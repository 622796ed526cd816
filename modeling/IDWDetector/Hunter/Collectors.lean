import IDWDetector.Hunter.EtherFlow

namespace IDWDetector.Hunter

open Vm Go Machine

/-- The dapps of the proxies and of the stake tokens. The keys of the source are lower-case
    addresses; no other key is looked up. -/
structure DappMaps where
  proxyMap : Map Address String
  stakeMap : Map Address String

structure DumpDicts where
  proxy : Map Address String := .empty
  stake : Map Address String := .empty

inductive HistoryKind
  | proxy
  | stake
deriving DecidableEq

namespace DappMaps

variable (maps : DappMaps)

def addProxy (addr : Address) (dicts : DumpDicts) : DumpDicts :=
  match maps.proxyMap.lookup addr with
  | some dapp => { dicts with proxy := dicts.proxy.set addr dapp }
  | none => dicts

def addStake (addr : Address) (dicts : DumpDicts) : DumpDicts :=
  match maps.stakeMap.lookup addr with
  | some dapp => { dicts with stake := dicts.stake.set addr dapp }
  | none => dicts

def addCall (toAddr : Address) (callType : CallType) (dicts : DumpDicts) : DumpDicts :=
  let dicts := maps.addProxy toAddr dicts
  if callType = .staticCall then dicts else maps.addStake toAddr dicts

end DappMaps

namespace TxCollector

variable (maps : DappMaps)

def parseEvent (event : Event) (dicts : DumpDicts) : Except Panic DumpDicts :=
  match event.topics with
  | [topic, sender, recipient] =>
    if topic = transferTopic then
      if event.data.length < 32 then .error .indexOutOfRange
      else if (maps.proxyMap.lookup (sender.setWidth 160)).isSome then .ok (maps.addProxy (sender.setWidth 160) dicts)
      else .ok (maps.addProxy (recipient.setWidth 160) dicts)
    else .ok dicts
  | _ => .ok dicts

def parseEvents : List Event → DumpDicts → Except Panic DumpDicts
  | [], dicts => .ok dicts
  | event :: rest, dicts => do
    let dicts ← parseEvent maps event dicts
    parseEvents rest dicts

mutual

def parseTxTreeUtil : InternalTx → DumpDicts → Except Panic DumpDicts
  | ⟨_, toAddr, _, _, callType, _, events, inTxs⟩, dicts => do
    let dicts ← parseTxTrees inTxs (maps.addCall toAddr callType dicts)
    parseEvents maps events dicts

def parseTxTrees : List InternalTx → DumpDicts → Except Panic DumpDicts
  | [], dicts => .ok dicts
  | tx :: rest, dicts => do
    let dicts ← parseTxTreeUtil tx dicts
    parseTxTrees rest dicts

end

def parseTx (printCall : Bool) (inTxs : List InternalTx) : Except Panic DumpDicts :=
  match inTxs with
  | [root] => parseTxTreeUtil maps root {}
  | [] => if printCall then .error .indexOutOfRange else .ok {}
  | _ => .ok {}

/-- The directories in which the transaction is dumped. -/
def parseTxAndDump (printCall dumpBool : Bool) (inTxs : List InternalTx) :
    Except Panic (Finset (HistoryKind × String)) := do
  let dicts ← parseTx maps printCall inTxs
  .ok (if dumpBool then
    dicts.proxy.keys.image (fun proxy => (.proxy, dicts.proxy.getD proxy "")) ∪
      dicts.stake.keys.image (fun stake => (.stake, dicts.stake.getD stake ""))
    else ∅)

end TxCollector

namespace EnvCollector

variable (maps : DappMaps)

mutual

def parseTxTreeUtil : InternalTx → DumpDicts → DumpDicts
  | ⟨_, toAddr, _, _, callType, _, _, inTxs⟩, dicts => parseTxTrees inTxs (maps.addCall toAddr callType dicts)

def parseTxTrees : List InternalTx → DumpDicts → DumpDicts
  | [], dicts => dicts
  | tx :: rest, dicts => parseTxTrees rest (parseTxTreeUtil tx dicts)

end

def parseTx (inTxs : List InternalTx) : DumpDicts :=
  match inTxs with
  | [root] => parseTxTreeUtil maps root {}
  | _ => {}

/-- The dapps under which the output alloc is written. The second loop of the source looks the
    stakes up in `proxy_dump_dict`. -/
def collectEnv (dumpBool : Bool) (inTxs : List InternalTx) : Finset String :=
  let dicts := parseTx maps inTxs
  if dumpBool then
    dicts.proxy.keys.image (fun proxy => dicts.proxy.getD proxy "") ∪
      dicts.stake.keys.image (fun stake => dicts.proxy.getD stake "")
  else ∅

end EnvCollector

namespace TokenCollector

def swapSelector : Bytes := [0x02, 0x2c, 0x0d, 0x9f]

variable (tokenSwapMap : Map Address String)

mutual

def collectTokenSwapUtil : InternalTx → Map Address String → Map Address String
  | ⟨_, toAddr, _, _, _, input, _, inTxs⟩, dict =>
    collectTokenSwaps inTxs <|
      match tokenSwapMap.lookup toAddr with
      | some pair => if input.take 4 = swapSelector then dict.set toAddr pair else dict
      | none => dict

def collectTokenSwaps : List InternalTx → Map Address String → Map Address String
  | [], dict => dict
  | tx :: rest, dict => collectTokenSwaps rest (collectTokenSwapUtil tx dict)

end

def collectTokenSwap (dumpBool : Bool) (inTxs : List InternalTx) : Finset String :=
  let dict := match inTxs with
    | [root] => collectTokenSwapUtil tokenSwapMap root .empty
    | _ => .empty
  if dumpBool then dict.keys.image fun token => dict.getD token "" else ∅

end TokenCollector

section Walks

variable (maps : DappMaps)

def called (nodes : List (InternalTx × List Entry)) : List Address := nodes.map fun node => node.1.toAddr

def staked (nodes : List (InternalTx × List Entry)) : List Address :=
  (nodes.filter fun node => node.1.callType ≠ .staticCall).map fun node => node.1.toAddr

def DappMaps.proxyOf : Entry → Option Address
  | (_, [topic, sender, recipient], _) =>
    if topic = transferTopic then
      if (maps.proxyMap.lookup (sender.setWidth 160)).isSome then some (sender.setWidth 160)
      else some (recipient.setWidth 160)
    else none
  | _ => none

def DappMaps.notified (nodes : List (InternalTx × List Entry)) : List Address :=
  nodes.flatMap fun node => node.2.filterMap maps.proxyOf

structure DumpDicts.Holds (dicts : DumpDicts) (proxies stakes : Set Address) : Prop where
  proxy : ∀ addr dapp, dicts.proxy.lookup addr = some dapp ↔ addr ∈ proxies ∧ maps.proxyMap.lookup addr = some dapp
  stake : ∀ addr dapp, dicts.stake.lookup addr = some dapp ↔ addr ∈ stakes ∧ maps.stakeMap.lookup addr = some dapp

variable {maps} {dicts : DumpDicts} {proxies stakes : Set Address}

theorem lookup_copy {source copied : Map Address String} {known : Set Address}
    (holds : ∀ addr dapp, copied.lookup addr = some dapp ↔ addr ∈ known ∧ source.lookup addr = some dapp)
    (key addr : Address) (dapp : String) :
    (match source.lookup key with
      | some value => copied.set key value
      | none => copied).lookup addr = some dapp ↔ addr ∈ insert key known ∧ source.lookup addr = some dapp := by
  rw [Set.mem_insert_iff]
  cases found : source.lookup key with
  | none =>
    simp only [holds]
    constructor
    · rintro ⟨member, value⟩
      exact ⟨Or.inr member, value⟩
    · rintro ⟨rfl | member, value⟩
      · rw [found] at value
        cases value
      · exact ⟨member, value⟩
  | some value =>
    by_cases same : addr = key
    · subst same
      simp [found]
    · simp only [Map.lookup_set_of_ne _ _ same, holds, same, false_or]

section

variable (holds : dicts.Holds maps proxies stakes)
include holds

theorem DumpDicts.Holds.addProxy (addr : Address) :
    (maps.addProxy addr dicts).Holds maps (insert addr proxies) stakes := by
  have copied := lookup_copy holds.proxy addr
  unfold DappMaps.addProxy
  cases found : maps.proxyMap.lookup addr with
  | none => exact ⟨by simpa only [found] using copied, holds.stake⟩
  | some dapp => exact ⟨by simpa only [found] using copied, holds.stake⟩

theorem DumpDicts.Holds.addStake (addr : Address) :
    (maps.addStake addr dicts).Holds maps proxies (insert addr stakes) := by
  have copied := lookup_copy holds.stake addr
  unfold DappMaps.addStake
  cases found : maps.stakeMap.lookup addr with
  | none => exact ⟨holds.proxy, by simpa only [found] using copied⟩
  | some dapp => exact ⟨holds.proxy, by simpa only [found] using copied⟩

theorem DumpDicts.Holds.addCall (addr : Address) (callType : CallType) :
    (maps.addCall addr callType dicts).Holds maps (insert addr proxies)
      (if callType = .staticCall then stakes else insert addr stakes) := by
  unfold DappMaps.addCall
  split
  · exact holds.addProxy addr
  · exact (holds.addProxy addr).addStake addr

theorem DumpDicts.Holds.proxy_none {addr : Address} (unlisted : maps.proxyMap.lookup addr = none) :
    dicts.proxy.lookup addr = none := by
  cases held : dicts.proxy.lookup addr with
  | none => rfl
  | some dapp =>
    have listed := ((holds.proxy addr dapp).mp held).2
    rw [unlisted] at listed
    cases listed

theorem DumpDicts.Holds.of_eq {proxies' stakes' : Set Address} (sameProxies : proxies = proxies')
    (sameStakes : stakes = stakes') : dicts.Holds maps proxies' stakes' := by
  subst sameProxies sameStakes
  exact holds

end

theorem staked_cons (node : InternalTx × List Entry) (nodes : List (InternalTx × List Entry)) :
    (if node.1.callType = .staticCall then stakes else insert node.1.toAddr stakes) ∪ {addr | addr ∈ staked nodes} =
      stakes ∪ {addr | addr ∈ staked (node :: nodes)} := by
  unfold staked
  rw [List.filter_cons]
  ext addr
  by_cases static : node.1.callType = .staticCall
  · simp [static]
  · simp [static]
    tauto

theorem staked_append (nodes more : List (InternalTx × List Entry)) :
    {addr | addr ∈ staked (nodes ++ more)} = {addr | addr ∈ staked nodes} ∪ {addr | addr ∈ staked more} := by
  ext addr
  simp [staked]

mutual

theorem EnvCollector.parseTxTreeUtil_holds (tx : InternalTx) (dicts : DumpDicts) (proxies stakes : Set Address)
    (holds : dicts.Holds maps proxies stakes) :
    (EnvCollector.parseTxTreeUtil maps tx dicts).Holds maps (proxies ∪ {addr | addr ∈ called tx.nodes})
      (stakes ∪ {addr | addr ∈ staked tx.nodes}) := by
  obtain ⟨_, toAddr, _, _, callType, _, _, inTxs⟩ := tx
  rw [EnvCollector.parseTxTreeUtil, InternalTx.nodes]
  apply (EnvCollector.parseTxTrees_holds inTxs _ _ _ (holds.addCall toAddr callType)).of_eq
  · ext addr
    simp only [called, Set.mem_union, Set.mem_insert_iff, Set.mem_ofPred_eq, List.map_cons, List.mem_cons]
    tauto
  · rw [← staked_cons]

theorem EnvCollector.parseTxTrees_holds (txs : List InternalTx) (dicts : DumpDicts) (proxies stakes : Set Address)
    (holds : dicts.Holds maps proxies stakes) :
    (EnvCollector.parseTxTrees maps txs dicts).Holds maps (proxies ∪ {addr | addr ∈ called (nodesOf txs)})
      (stakes ∪ {addr | addr ∈ staked (nodesOf txs)}) := by
  cases txs with
  | nil =>
    apply holds.of_eq
    · simp [called, nodesOf]
    · simp [staked, nodesOf]
  | cons tx rest =>
    rw [EnvCollector.parseTxTrees, nodesOf]
    have first := EnvCollector.parseTxTreeUtil_holds tx dicts proxies stakes holds
    apply (EnvCollector.parseTxTrees_holds rest _ _ _ first).of_eq
    · ext addr
      simp only [called, Set.mem_union, Set.mem_ofPred_eq, List.map_append, List.mem_append, or_assoc]
    · rw [staked_append, Set.union_assoc]

end

theorem TxCollector.parseEvent_eq (event : Event) (dicts : DumpDicts) : TxCollector.parseEvent maps event dicts =
    if malformed event.entry then .error .indexOutOfRange
    else .ok ((maps.proxyOf event.entry).elim dicts fun addr => maps.addProxy addr dicts) := by
  obtain ⟨address, topics, data, index⟩ := event
  rcases topics with _ | ⟨topic, _ | ⟨sender, _ | ⟨recipient, _ | ⟨more, rest⟩⟩⟩⟩
  · rfl
  · rfl
  · rfl
  · simp only [TxCollector.parseEvent, Event.entry, malformed, DappMaps.proxyOf, Bool.and_eq_true, decide_eq_true_eq]
    by_cases transfer : topic = transferTopic
    · by_cases short : data.length < 32
      · rw [if_pos transfer, if_pos short, if_pos ⟨transfer, short⟩]
      · have fine : ¬(topic = transferTopic ∧ data.length < 32) := fun both => short both.2
        simp only [if_pos transfer, if_neg short, if_neg fine]
        split
        · rfl
        · rfl
    · rw [if_neg transfer, if_neg fun both => transfer both.1, if_neg transfer]
      rfl
  · rfl

theorem TxCollector.parseEvent_ok_iff (event : Event) (dicts : DumpDicts) :
    (∃ dicts', TxCollector.parseEvent maps event dicts = .ok dicts') ↔ malformed event.entry = false := by
  rw [TxCollector.parseEvent_eq]
  cases malformed event.entry with
  | true => simp
  | false => simp

theorem TxCollector.parseEvent_holds {event : Event} {dicts' : DumpDicts} (holds : dicts.Holds maps proxies stakes)
    (parsed : TxCollector.parseEvent maps event dicts = .ok dicts') :
    dicts'.Holds maps (proxies ∪ {addr | maps.proxyOf event.entry = some addr}) stakes := by
  rw [TxCollector.parseEvent_eq] at parsed
  split at parsed
  · cases parsed
  · cases parsed
    cases maps.proxyOf event.entry with
    | none => exact holds.of_eq (by simp) rfl
    | some addr =>
      refine (holds.addProxy addr).of_eq ?_ rfl
      ext other
      simp only [Set.mem_insert_iff, Set.mem_union, Set.mem_ofPred_eq, Option.some.injEq]
      tauto

theorem TxCollector.parseEvents_ok_iff (events : List Event) (dicts : DumpDicts) :
    (∃ dicts', TxCollector.parseEvents maps events dicts = .ok dicts') ↔
      ∀ entry ∈ events.map Event.entry, malformed entry = false := by
  induction events generalizing dicts with
  | nil => simp [TxCollector.parseEvents]
  | cons event rest ih =>
    rw [List.map_cons, List.forall_mem_cons]
    exact exists_bind_ok (TxCollector.parseEvent_ok_iff event dicts) ih

theorem TxCollector.parseEvents_holds {events : List Event} {dicts' : DumpDicts}
    (holds : dicts.Holds maps proxies stakes) (parsed : TxCollector.parseEvents maps events dicts = .ok dicts') :
    dicts'.Holds maps (proxies ∪ {addr | addr ∈ (events.map Event.entry).filterMap maps.proxyOf}) stakes := by
  induction events generalizing dicts proxies with
  | nil =>
    cases parsed
    exact holds.of_eq (by simp) rfl
  | cons event rest ih =>
    obtain ⟨middle, first, later⟩ := bind_ok.mp parsed
    apply (ih (TxCollector.parseEvent_holds holds first) later).of_eq _ rfl
    ext addr
    simp only [Set.mem_union, Set.mem_ofPred_eq, List.map_cons, List.mem_filterMap, List.mem_cons, exists_eq_or_imp,
      or_assoc]

mutual

theorem TxCollector.parseTxTreeUtil_ok_iff (maps : DappMaps) (tx : InternalTx) (dicts : DumpDicts) :
    (∃ dicts', TxCollector.parseTxTreeUtil maps tx dicts = .ok dicts') ↔
      ∀ node ∈ tx.nodes, ∀ entry ∈ node.2, malformed entry = false := by
  obtain ⟨_, _, _, _, _, _, events, inTxs⟩ := tx
  rw [TxCollector.parseTxTreeUtil, InternalTx.nodes, List.forall_mem_cons, and_comm]
  exact exists_bind_ok (TxCollector.parseTxTrees_ok_iff maps inTxs _) (TxCollector.parseEvents_ok_iff events)

theorem TxCollector.parseTxTrees_ok_iff (maps : DappMaps) (txs : List InternalTx) (dicts : DumpDicts) :
    (∃ dicts', TxCollector.parseTxTrees maps txs dicts = .ok dicts') ↔
      ∀ node ∈ nodesOf txs, ∀ entry ∈ node.2, malformed entry = false := by
  cases txs with
  | nil => simp [TxCollector.parseTxTrees, nodesOf]
  | cons tx rest =>
    rw [TxCollector.parseTxTrees, nodesOf, List.forall_mem_append]
    exact exists_bind_ok (TxCollector.parseTxTreeUtil_ok_iff maps tx dicts) (TxCollector.parseTxTrees_ok_iff maps rest)

end

mutual

theorem TxCollector.parseTxTreeUtil_holds (tx : InternalTx) (dicts dicts' : DumpDicts) (proxies stakes : Set Address)
    (holds : dicts.Holds maps proxies stakes) (parsed : TxCollector.parseTxTreeUtil maps tx dicts = .ok dicts') :
    dicts'.Holds maps (proxies ∪ {addr | addr ∈ called tx.nodes ∨ addr ∈ maps.notified tx.nodes})
      (stakes ∪ {addr | addr ∈ staked tx.nodes}) := by
  obtain ⟨_, toAddr, _, _, callType, _, _, inTxs⟩ := tx
  rw [TxCollector.parseTxTreeUtil] at parsed
  obtain ⟨middle, first, later⟩ := bind_ok.mp parsed
  have below := TxCollector.parseTxTrees_holds inTxs _ _ _ _ (holds.addCall toAddr callType) first
  rw [InternalTx.nodes]
  apply (TxCollector.parseEvents_holds below later).of_eq
  · ext addr
    simp only [called, DappMaps.notified, Set.mem_union, Set.mem_insert_iff, Set.mem_ofPred_eq, List.map_cons,
      List.mem_cons, List.flatMap_cons, List.mem_append]
    tauto
  · rw [← staked_cons]

theorem TxCollector.parseTxTrees_holds (txs : List InternalTx) (dicts dicts' : DumpDicts) (proxies stakes : Set Address)
    (holds : dicts.Holds maps proxies stakes) (parsed : TxCollector.parseTxTrees maps txs dicts = .ok dicts') :
    dicts'.Holds maps (proxies ∪ {addr | addr ∈ called (nodesOf txs) ∨ addr ∈ maps.notified (nodesOf txs)})
      (stakes ∪ {addr | addr ∈ staked (nodesOf txs)}) := by
  cases txs with
  | nil =>
    cases parsed
    apply holds.of_eq
    · simp [called, DappMaps.notified, nodesOf]
    · simp [staked, nodesOf]
  | cons tx rest =>
    rw [TxCollector.parseTxTrees] at parsed
    obtain ⟨middle, first, later⟩ := bind_ok.mp parsed
    have here := TxCollector.parseTxTreeUtil_holds tx dicts middle proxies stakes holds first
    rw [nodesOf]
    apply (TxCollector.parseTxTrees_holds rest middle dicts' _ _ here later).of_eq
    · ext addr
      simp only [called, DappMaps.notified, Set.mem_union, Set.mem_ofPred_eq, List.map_append, List.flatMap_append,
        List.mem_append]
      tauto
    · rw [staked_append, Set.union_assoc]

end

theorem DumpDicts.Holds.empty : DumpDicts.Holds maps {} ∅ ∅ :=
  ⟨fun _ _ => by simp, fun _ _ => by simp⟩

end Walks

section Agreement

variable (maps : DappMaps)

/-- Every dapp in whose history a transaction is recorded gets its output alloc. -/
def HistoryInEnv (inTxs : List InternalTx) : Prop :=
  ∀ records, TxCollector.parseTxAndDump maps false true inTxs = .ok records →
    ∀ record ∈ records, record.2 ∈ EnvCollector.collectEnv maps true inTxs

/-- The dapps that a call tree names otherwise than by calling a proxy. -/
def DappMaps.named (nodes : List (InternalTx × List Entry)) : List String :=
  (maps.notified nodes).filterMap maps.proxyMap.lookup ++ (staked nodes).filterMap maps.stakeMap.lookup

/-- The dapps of the proxies that it calls. For a stake token that is no proxy the output alloc
    is written to the directory of the empty name. -/
def DappMaps.reached (nodes : List (InternalTx × List Entry)) : List String :=
  (called nodes).filterMap maps.proxyMap.lookup ++
    ((staked nodes).filter fun addr => (maps.stakeMap.lookup addr).isSome && (maps.proxyMap.lookup addr).isNone).map
      fun _ => ""

variable {maps} {dicts : DumpDicts} {proxies stakes : Set Address} {root : InternalTx}
  {records : Finset (HistoryKind × String)}

theorem mem_image_copy {source copied : Map Address String} {known : Set Address}
    (holds : ∀ addr dapp, copied.lookup addr = some dapp ↔ addr ∈ known ∧ source.lookup addr = some dapp)
    (dapp : String) : dapp ∈ copied.keys.image (fun addr => copied.getD addr "") ↔
      ∃ addr ∈ known, source.lookup addr = some dapp := by
  simp only [Finset.mem_image, Map.mem_keys_iff]
  constructor
  · rintro ⟨addr, ⟨value, found⟩, rfl⟩
    rw [Map.getD, found]
    exact ⟨addr, (holds addr value).mp found⟩
  · rintro ⟨addr, member, value⟩
    have found := (holds addr dapp).mpr ⟨member, value⟩
    refine ⟨addr, ⟨dapp, found⟩, ?_⟩
    rw [Map.getD, found]
    rfl

theorem called_of_staked {nodes : List (InternalTx × List Entry)} {addr : Address} (member : addr ∈ staked nodes) :
    addr ∈ called nodes := by
  obtain ⟨node, inside, same⟩ := List.mem_map.mp member
  exact List.mem_map.mpr ⟨node, (List.mem_filter.mp inside).1, same⟩

theorem mem_collectEnv (root : InternalTx) (dapp : String) :
    dapp ∈ EnvCollector.collectEnv maps true [root] ↔ dapp ∈ maps.reached root.nodes := by
  have holds : (EnvCollector.parseTxTreeUtil maps root {}).Holds maps _ _ :=
    EnvCollector.parseTxTreeUtil_holds root {} ∅ ∅ .empty
  rw [Set.empty_union, Set.empty_union] at holds
  have proxies := mem_image_copy holds.proxy dapp
  simp only [EnvCollector.collectEnv, EnvCollector.parseTx, if_true, Finset.mem_union, proxies, DappMaps.reached,
    List.mem_append, List.mem_filterMap, Set.mem_ofPred_eq]
  constructor
  · rintro (reached | written)
    · exact Or.inl reached
    · obtain ⟨addr, key, rfl⟩ := Finset.mem_image.mp written
      obtain ⟨value, found⟩ := (Map.mem_keys_iff _ _).mp key
      obtain ⟨member, listed⟩ := (holds.stake addr value).mp found
      cases proxy : maps.proxyMap.lookup addr with
      | some other =>
        have held := (holds.proxy addr other).mpr ⟨called_of_staked member, proxy⟩
        rw [Map.getD, held]
        exact Or.inl ⟨addr, called_of_staked member, proxy⟩
      | none =>
        rw [Map.getD, holds.proxy_none proxy]
        refine Or.inr (List.mem_map.mpr ⟨addr, List.mem_filter.mpr ⟨member, ?_⟩, rfl⟩)
        simp [listed, proxy]
  · rintro (reached | written)
    · exact Or.inl reached
    · obtain ⟨addr, inside, rfl⟩ := List.mem_map.mp written
      obtain ⟨member, facts⟩ := List.mem_filter.mp inside
      obtain ⟨listed, proxy⟩ := Bool.and_eq_true_iff.mp facts
      obtain ⟨value, listed⟩ := Option.isSome_iff_exists.mp listed
      have held := (holds.stake addr value).mpr ⟨member, listed⟩
      refine Or.inr (Finset.mem_image.mpr ⟨addr, (Map.mem_keys_iff _ _).mpr ⟨value, held⟩, ?_⟩)
      rw [Map.getD, holds.proxy_none (Option.isNone_iff_eq_none.mp proxy)]
      rfl

theorem parseTxAndDump_members {printCall : Bool}
    (parsed : TxCollector.parseTxAndDump maps printCall true [root] = .ok records) (dapp : String) :
    ((.proxy, dapp) ∈ records ↔ ∃ addr, (addr ∈ called root.nodes ∨ addr ∈ maps.notified root.nodes) ∧
      maps.proxyMap.lookup addr = some dapp) ∧
      ((.stake, dapp) ∈ records ↔ ∃ addr ∈ staked root.nodes, maps.stakeMap.lookup addr = some dapp) := by
  obtain ⟨dicts, walked, result⟩ := bind_ok.mp parsed
  have holds := TxCollector.parseTxTreeUtil_holds root {} dicts ∅ ∅ .empty walked
  rw [Set.empty_union, Set.empty_union] at holds
  have proxies := mem_image_copy holds.proxy dapp
  have stakes := mem_image_copy holds.stake dapp
  simp only [Finset.mem_image, Set.mem_ofPred_eq] at proxies stakes
  rw [← proxies, ← stakes]
  cases result
  simp

theorem mem_parseTxAndDump (parsed : TxCollector.parseTxAndDump maps false true [root] = .ok records) (dapp : String) :
    (∃ kind, (kind, dapp) ∈ records) ↔
      dapp ∈ (called root.nodes).filterMap maps.proxyMap.lookup ∨ dapp ∈ maps.named root.nodes := by
  have members : (∃ kind, (kind, dapp) ∈ records) ↔ (.proxy, dapp) ∈ records ∨ (.stake, dapp) ∈ records := by
    constructor
    · rintro ⟨kind, member⟩
      cases kind with
      | proxy => exact .inl member
      | stake => exact .inr member
    · rintro (member | member)
      · exact ⟨.proxy, member⟩
      · exact ⟨.stake, member⟩
  obtain ⟨proxies, stakes⟩ := parseTxAndDump_members parsed dapp
  rw [members, proxies, stakes]
  simp only [DappMaps.named, List.mem_append, List.mem_filterMap, or_and_right, exists_or, or_assoc]

/-- The environment is collected for every dapp of the history just if the dapps of its stake tokens and transfers
    have a proxy among the addresses called. -/
theorem historyInEnv_iff (maps : DappMaps) (inTxs : List InternalTx) :
    HistoryInEnv maps inTxs ↔ ∀ root, inTxs = [root] →
      (∃ node ∈ root.nodes, ∃ entry ∈ node.2, malformed entry = true) ∨
        ∀ dapp ∈ maps.named root.nodes, dapp ∈ maps.reached root.nodes := by
  constructor
  · rintro agrees root rfl
    by_cases bad : ∃ node ∈ root.nodes, ∃ entry ∈ node.2, malformed entry = true
    · exact Or.inl bad
    · right
      intro dapp named
      have wellFormed : ∀ node ∈ root.nodes, ∀ entry ∈ node.2, malformed entry = false := by
        intro node member entry inside
        rw [← Bool.not_eq_true]
        exact fun holds => bad ⟨node, member, entry, inside, holds⟩
      obtain ⟨dicts, walked⟩ := (TxCollector.parseTxTreeUtil_ok_iff maps root {}).mpr wellFormed
      have parsed : TxCollector.parseTxAndDump maps false true [root] = .ok _ :=
        bind_ok.mpr ⟨dicts, walked, rfl⟩
      obtain ⟨kind, member⟩ := (mem_parseTxAndDump parsed dapp).mpr (Or.inr named)
      exact (mem_collectEnv root dapp).mp (agrees _ parsed _ member)
  · intro condition records parsed record member
    rcases inTxs with _ | ⟨root, _ | ⟨second, rest⟩⟩
    · cases parsed
      simp at member
    · have recorded := (mem_parseTxAndDump parsed record.2).mp ⟨record.1, member⟩
      rw [mem_collectEnv]
      rcases condition root rfl with ⟨node, nodeMember, entry, inside, bad⟩ | reached
      · obtain ⟨dicts, walked, -⟩ := bind_ok.mp parsed
        have wellFormed := (TxCollector.parseTxTreeUtil_ok_iff maps root {}).mp
          ⟨dicts, walked⟩ node nodeMember entry inside
        rw [bad] at wellFormed
        cases wellFormed
      · rcases recorded with proxy | named
        · exact List.mem_append_left _ proxy
        · exact reached _ named
    · cases parsed
      simp at member

/-- A user hands the share 0xb0 of the dapp on; no proxy is called. -/
def stakeTree : InternalTx := ⟨0x50, 0xb0, true, none, .call, [], [transferEvent 0xb0 0x50 0x60 0], []⟩

def stakeMaps : DappMaps := ⟨.empty, Map.empty.set 0xb0 "dapp"⟩

/-- The history of the dapp has the transfer of the share, its environment has not. -/
theorem stake_not_in_env :
    (TxCollector.parseTxAndDump stakeMaps false true [stakeTree]).toOption.any
      (fun records => decide ((.stake, "dapp") ∈ records)) = true ∧
    "dapp" ∉ EnvCollector.collectEnv stakeMaps true [stakeTree] ∧ ¬ HistoryInEnv stakeMaps [stakeTree] := by
  have recorded : (TxCollector.parseTxAndDump stakeMaps false true [stakeTree]).toOption.any
      (fun records => decide ((.stake, "dapp") ∈ records)) = true := by decide +kernel
  have missing : "dapp" ∉ EnvCollector.collectEnv stakeMaps true [stakeTree] := by decide +kernel
  refine ⟨recorded, missing, ?_⟩
  intro agrees
  obtain ⟨records, parsed, member⟩ := toOption_any recorded
  exact missing (agrees records parsed _ (of_decide_eq_true member))

end Agreement

end IDWDetector.Hunter
