import IDWDetector.Hunter.Collecting
import IDWDetector.Vm.CallStack
import IDWDetector.Vm.Events
import Mathlib.Data.Multiset.Bind
import Mathlib.Tactic.Abel

namespace IDWDetector.Hunter

open State State.StateDB Vm Machine

abbrev Flow := Address × Payment

def TokenTx.flow (tokenTx : TokenTx) : Flow := (tokenTx.tokenAddress, ⟨tokenTx.sender, tokenTx.toAddr, tokenTx.amount⟩)

/-- A transfer without an amount, at which the extractor panics. -/
def malformed : Entry → Bool
  | (_, [topic, _, _], data) => topic = transferTopic && decide (data.length < 32)
  | _ => false

def announced : Entry → Option Flow
  | (address, [topic, sender, recipient], data) =>
    if topic = transferTopic then
      some (address, ⟨sender.setWidth 160, recipient.setWidth 160, Rlp.bytesNat (data.take 32)⟩)
    else none
  | _ => none

def nodeFlows (node : InternalTx × List Entry) : List Flow :=
  (etherTx node.1.fromAddr node.1.toAddr node.1.value).map TokenTx.flow ++ node.2.filterMap announced

def Flow.tokenTx (index : Nat) (flow : Flow) : TokenTx :=
  { eventIndex := index, sender := flow.2.sender, toAddr := flow.2.recipient, amount := flow.2.amount,
    tokenAddress := flow.1 }

theorem extractEvent_eq (event : Event) : extractEvent event =
    if malformed event.entry then .error .indexOutOfRange
    else .ok ((announced event.entry).map (Flow.tokenTx event.index)) := by
  obtain ⟨address, topics, data, index⟩ := event
  rcases topics with _ | ⟨topic, _ | ⟨sender, _ | ⟨recipient, _ | ⟨more, rest⟩⟩⟩⟩
  · rfl
  · rfl
  · rfl
  · simp only [extractEvent, Event.entry, malformed, announced, Bool.and_eq_true, decide_eq_true_eq]
    by_cases transfer : topic = transferTopic
    · by_cases short : data.length < 32
      · rw [if_pos transfer, if_pos short, if_pos ⟨transfer, short⟩]
      · rw [if_pos transfer, if_neg short, if_neg fun both => short both.2, if_pos transfer]
        rfl
    · rw [if_neg transfer, if_neg fun both => transfer both.1, if_neg transfer]
      rfl
  · rfl

theorem extractEvent_ok_iff (event : Event) :
    (∃ tokenTx, extractEvent event = .ok tokenTx) ↔ malformed event.entry = false := by
  rw [extractEvent_eq]
  cases malformed event.entry with
  | true => simp
  | false => simp

theorem extractEvent_flow {event : Event} {tokenTx : Option TokenTx} (extracted : extractEvent event = .ok tokenTx) :
    tokenTx.map TokenTx.flow = announced event.entry := by
  rw [extractEvent_eq] at extracted
  split at extracted
  · cases extracted
  · cases extracted
    rw [Option.map_map]
    exact Option.map_id'

theorem extractEvents_ok_iff (events : List Event) :
    (∃ tokenTxs, extractEvents events = .ok tokenTxs) ↔
      ∀ entry ∈ events.map Event.entry, malformed entry = false := by
  induction events with
  | nil => simp [extractEvents]
  | cons event rest ih =>
    rw [List.map_cons, List.forall_mem_cons]
    exact exists_bind_ok (extractEvent_ok_iff event) fun _ => exists_bind_pure ih

theorem extractEvents_flow {events : List Event} {tokenTxs : List TokenTx}
    (extracted : extractEvents events = .ok tokenTxs) :
    tokenTxs.map TokenTx.flow = (events.map Event.entry).filterMap announced := by
  induction events generalizing tokenTxs with
  | nil =>
    cases extracted
    rfl
  | cons event rest ih =>
    obtain ⟨tokenTx, first, later⟩ := bind_ok.mp extracted
    obtain ⟨more, second, last⟩ := bind_ok.mp later
    cases last
    have head := extractEvent_flow first
    rw [List.map_append, ih second, List.map_cons, List.filterMap_cons, ← head]
    cases tokenTx <;> rfl

section Collecting

variable (classify : Address → Bytes → Action) (proxies : Finset Address) (blockNumber txIndex : Int)

def flowsOf (c : List TokenTx × List ActionInfo) : Multiset Flow :=
  (c.1.map TokenTx.flow : List Flow) + ((c.2.flatMap ActionInfo.tokenTxList).map TokenTx.flow : List Flow)

mutual

theorem collect_flows (tx : InternalTx) (c : List TokenTx × List ActionInfo)
    (found : collect classify proxies blockNumber txIndex tx = .ok c) :
    flowsOf c = (tx.nodes.flatMap nodeFlows : List Flow) := by
  obtain ⟨fromAddr, toAddr, isContract, value, callType, input, events, inTxs⟩ := tx
  rw [collect] at found
  obtain ⟨below, inner, later⟩ := bind_ok.mp found
  obtain ⟨own, extracted, last⟩ := bind_ok.mp later
  have rest := collectAll_flows inTxs below inner
  have announced := extractEvents_flow extracted
  have whole : flowsOf (etherTx fromAddr toAddr value ++ below.1 ++ own, below.2) =
      (InternalTx.nodes ⟨fromAddr, toAddr, isContract, value, callType, input, events, inTxs⟩).flatMap nodeFlows := by
    rw [InternalTx.nodes, List.flatMap_cons, ← Multiset.coe_add, ← rest, nodeFlows, ← announced, flowsOf, flowsOf]
    simp only [List.map_append, ← Multiset.coe_add]
    abel
  simp only at last
  split at last
  · cases last
    exact whole
  · cases last
    rw [← whole, flowsOf, flowsOf]
    simp only [List.map_nil, List.flatMap_append, List.flatMap_singleton, List.map_append, ← Multiset.coe_add,
      Multiset.coe_nil]
    abel

theorem collectAll_flows (txs : List InternalTx) (c : List TokenTx × List ActionInfo)
    (found : collectAll classify proxies blockNumber txIndex txs = .ok c) :
    flowsOf c = ((nodesOf txs).flatMap nodeFlows : List Flow) := by
  cases txs with
  | nil =>
    cases found
    rfl
  | cons tx rest =>
    rw [collectAll] at found
    obtain ⟨first, here, later⟩ := bind_ok.mp found
    obtain ⟨second, there, last⟩ := bind_ok.mp later
    cases last
    have head := collect_flows tx first here
    have tail := collectAll_flows rest second there
    rw [nodesOf, List.flatMap_append, ← Multiset.coe_add, ← head, ← tail, flowsOf, flowsOf, flowsOf]
    simp only [List.flatMap_append, List.map_append, ← Multiset.coe_add]
    abel

end

mutual

theorem collect_ok_iff (tx : InternalTx) :
    (∃ c, collect classify proxies blockNumber txIndex tx = .ok c) ↔
      ∀ node ∈ tx.nodes, ∀ entry ∈ node.2, malformed entry = false := by
  obtain ⟨_, _, _, _, _, _, events, inTxs⟩ := tx
  rw [InternalTx.nodes, List.forall_mem_cons, and_comm, collect]
  refine exists_bind_ok (collectAll_ok_iff inTxs) fun below => ?_
  rw [exists_bind_ok (extractEvents_ok_iff events) fun own => ?_, and_true]
  split
  · exact iff_true_intro ⟨_, rfl⟩
  · exact iff_true_intro ⟨_, rfl⟩

theorem collectAll_ok_iff (txs : List InternalTx) :
    (∃ c, collectAll classify proxies blockNumber txIndex txs = .ok c) ↔
      ∀ node ∈ nodesOf txs, ∀ entry ∈ node.2, malformed entry = false := by
  cases txs with
  | nil => simp [collectAll, nodesOf]
  | cons tx rest =>
    rw [nodesOf, List.forall_mem_append, collectAll]
    exact exists_bind_ok (collect_ok_iff tx) fun _ => exists_bind_pure (collectAll_ok_iff rest)

end

end Collecting

namespace TxExtractor

def recorded (x : TxExtractor) : Multiset Flow :=
  x.actionInfoList.values.bind fun info => (info.tokenTxList.map TokenTx.flow : List Flow)

/-- `ExtractTokenTx` with what `extractInTxInfo` returns, which it drops. -/
def derive (classify : Address → Bytes → Action) (x : TxExtractor) (exTx : ExternalTx) :
    Except Panic (List TokenTx × TxExtractor) :=
  match exTx.inTxs with
  | [root] => extractInTxInfo classify exTx.blockNumber exTx.txIndex root x
  | _ => .ok ([], x)

theorem derive_eq (classify : Address → Bytes → Action) (x : TxExtractor) {exTx : ExternalTx}
    (short : exTx.inTxs.length ≤ 1) :
    x.derive classify exTx =
      (collectAll classify x.proxyABI exTx.blockNumber exTx.txIndex exTx.inTxs).map (collected x) := by
  obtain ⟨blockNumber, txIndex, inTxs⟩ := exTx
  match inTxs, short with
  | [], _ => rfl
  | [root], _ =>
    simp only [derive]
    rw [← extractInTxs_eq classify x.proxyABI blockNumber txIndex [root] x rfl, extractInTxs]
    cases extracted : extractInTxInfo classify blockNumber txIndex root x with
    | error panic => rfl
    | ok ended => simp [extractInTxs, Bind.bind, Except.bind]

theorem Indexed.recorded_collected {x : TxExtractor} (indexed : x.Indexed) (c : List TokenTx × List ActionInfo) :
    ((collected x c).1.map TokenTx.flow : List Flow) + (collected x c).2.recorded = x.recorded + flowsOf c := by
  have values := (indexed.foldl_addAction c.2).2
  have infos : (c.2 : Multiset ActionInfo).bind (fun info => (info.tokenTxList.map TokenTx.flow : Multiset Flow)) =
      ((c.2.flatMap ActionInfo.tokenTxList).map TokenTx.flow : List Flow) := by
    rw [Multiset.coe_bind, List.map_flatMap]
  rw [recorded, recorded, collected]
  simp only [values, Multiset.add_bind, infos, flowsOf]
  abel

end TxExtractor

def ether (flows : Multiset Flow) : Multiset Payment := (flows.filter fun flow => flow.1 = 0).map Prod.snd

theorem ether_add (flows more : Multiset Flow) : ether (flows + more) = ether flows + ether more := by
  rw [ether, Multiset.filter_add, Multiset.map_add, ether, ether]

section Visits

open Visit

def positive (visit : Visit) : List Payment := visit.moved.filter fun payment => 0 < payment.amount

def valueOf (tx : InternalTx) : List Payment :=
  (etherTx tx.fromAddr tx.toAddr tx.value).map fun tokenTx => tokenTx.flow.2

def shownValue (visit : Visit) : List Payment := visit.recorded.elim [] valueOf

/-- A value that is shown although nothing is moved: the one of a CALLCODE. -/
def unmoved (visit : Visit) : List Payment :=
  visit.recorded.elim [] fun tx => if tx.callType = .callCode then valueOf tx else []

/-- Ether that is moved by a creation, a precompiled contract or a SELFDESTRUCT, which no
    node shows. -/
def unrecorded (visit : Visit) : List Payment :=
  visit.recorded.elim (positive visit) fun tx => if tx.callType = .call then [] else positive visit

def forged (visit : Visit) : List Payment :=
  ((visit.events.filterMap announced).filter fun flow => flow.1 = 0).map Prod.snd

theorem shownValue_add_unrecorded {undone : Bool} {visit : Visit} (fits : visit.Fits undone) :
    shownValue visit ++ unrecorded visit = positive visit ++ unmoved visit := by
  cases recorded : visit.recorded with
  | none => simp [shownValue, unrecorded, unmoved, recorded]
  | some tx =>
    have shown := fits.shown tx recorded
    unfold Shown at shown
    simp only [shownValue, unrecorded, unmoved, recorded, Option.elim_some]
    split at shown <;> rename_i kind
    · obtain ⟨value, found, moved⟩ := shown
      simp only [kind, positive, moved, valueOf, found, etherTx]
      by_cases pays : 0 < value <;> simp [pays, TokenTx.flow]
    · simp [kind, positive, shown]
    · simp [kind, positive, shown.2, valueOf, shown.1, etherTx]
    · simp [kind, positive, shown.2, valueOf, shown.1, etherTx]
    · simp [kind, valueOf, shown, etherTx]

theorem ether_nodes (visits : List Visit)
    (blank : ∀ visit ∈ visits, visit.recorded = none → visit.events = []) :
    ether ((visits.filterMap Visit.node).flatMap nodeFlows : List Flow) =
      (visits.flatMap shownValue : List Payment) + (visits.flatMap forged : List Payment) := by
  induction visits with
  | nil => rfl
  | cons visit rest ih =>
    have rest' := ih fun other member => blank other (List.mem_cons_of_mem visit member)
    cases recorded : visit.recorded with
    | none =>
      have node : visit.node = none := by rw [Visit.node, recorded]; rfl
      have events := blank visit List.mem_cons_self recorded
      have shown : shownValue visit = [] := by rw [shownValue, recorded]; rfl
      have none : forged visit = [] := by rw [forged, events]; rfl
      rw [List.filterMap_cons_none node, rest', List.flatMap_cons, List.flatMap_cons, shown, none]
      rfl
    | some tx =>
      have node : visit.node = some (tx, visit.events) := by rw [Visit.node, recorded]; rfl
      have here : ether (nodeFlows (tx, visit.events) : List Flow) =
          (shownValue visit : List Payment) + (forged visit : List Payment) := by
        have shown : shownValue visit = valueOf tx := by rw [shownValue, recorded]; rfl
        have kept : ((etherTx tx.fromAddr tx.toAddr tx.value).map TokenTx.flow).filter (fun flow => flow.1 = 0) =
            (etherTx tx.fromAddr tx.toAddr tx.value).map TokenTx.flow := by
          unfold etherTx
          split
          · rfl
          · split <;> rfl
        rw [ether, nodeFlows, Multiset.filter_coe, Multiset.map_coe, List.filter_append, List.map_append, kept, shown,
          forged, List.map_map, Multiset.coe_add]
        rfl
      rw [List.filterMap_cons_some node, List.flatMap_cons, ← Multiset.coe_add, ether_add, rest', here]
      simp only [List.flatMap_cons, ← Multiset.coe_add]
      abel

theorem nodes_wellFormed {visits : List Visit}
    (blank : ∀ visit ∈ visits, visit.recorded = none → visit.events = []) :
    (∀ node ∈ visits.filterMap Visit.node, ∀ entry ∈ node.2, malformed entry = false) ↔
      ∀ visit ∈ visits, ∀ entry ∈ visit.events, malformed entry = false := by
  constructor
  · intro wellFormed visit member entry inside
    cases recorded : visit.recorded with
    | none =>
      rw [blank visit member recorded] at inside
      cases inside
    | some tx =>
      have node : visit.node = some (tx, visit.events) := by rw [Visit.node, recorded]; rfl
      exact wellFormed (tx, visit.events) (List.mem_filterMap.mpr ⟨visit, member, node⟩) entry inside
  · intro wellFormed node member entry inside
    obtain ⟨visit, member', found⟩ := List.mem_filterMap.mp member
    obtain ⟨tx, recorded, rfl⟩ := Option.map_eq_some_iff.mp found
    exact wellFormed visit member' entry inside

theorem sum_shownValue {visits : List Visit} {undone : Bool} (fits : ∀ visit ∈ visits, visit.Fits undone) :
    (visits.flatMap shownValue : Multiset Payment) + (visits.flatMap unrecorded : List Payment) =
      (visits.flatMap positive : List Payment) + (visits.flatMap unmoved : List Payment) := by
  simp only [← Multiset.coe_bind, ← Multiset.bind_add]
  refine Multiset.bind_congr fun visit member => ?_
  rw [Multiset.coe_add, Multiset.coe_add, shownValue_add_unrecorded (fits visit member)]

end Visits

theorem add_eq_iff_of_balance {shown unrecorded moved unmoved forged : Multiset Payment}
    (balance : shown + unrecorded = moved + unmoved) :
    shown + forged = moved ↔ unmoved + forged = unrecorded := by
  constructor
  · intro equal
    have both : shown + (unmoved + forged) = shown + unrecorded := by
      rw [balance, ← equal]
      abel
    exact add_left_cancel both
  · intro equal
    have both : shown + forged + unmoved = moved + unmoved := by
      rw [← balance, ← equal]
      abel
    exact add_right_cancel both

/-- The extractor finds, in the call tree of a message, exactly the ether that moved. -/
def ExtractsEther (classify : Address → Bytes → Action) (x : TxExtractor) (blockNumber txIndex : Int)
    (r : Returned) : Prop :=
  ∃ tokenTxList x', x.derive classify ⟨blockNumber, txIndex, r.evm.exTx⟩ = .ok (tokenTxList, x') ∧
    ether ((tokenTxList.map TokenTx.flow : List Flow) + x'.recorded) =
      ether x.recorded + (r.evm.payments.filter fun payment => 0 < payment.amount : List Payment)

/-- Exactly if every transfer event has an amount, and what CALLCODE shows and the address zero announces is the
    ether of creations, precompiled contracts and SELFDESTRUCT. -/
theorem extractsEther_iff (chain : Chain) (s : StateDB) (message : Message) (r : Returned)
    (classify : Address → Bytes → Action) (x : TxExtractor) (blockNumber txIndex : Int)
    (numbered : s.Numbered) (applied : message.apply chain s = .ok r) (indexed : x.Indexed) :
    ExtractsEther classify x blockNumber txIndex r ↔
      (∀ visit ∈ message.visits chain s false, ∀ entry ∈ visit.events, malformed entry = false) ∧
      ((message.visits chain s false).flatMap unmoved : Multiset Payment) +
          ((message.visits chain s false).flatMap forged : List Payment) =
        ((message.visits chain s false).flatMap unrecorded : List Payment) := by
  obtain ⟨kids, added, step⟩ := message.apply_step numbered applied
  have exTx : r.evm.exTx = kids := (Prod.mk.inj step.returns.frames).2
  have short : kids.length ≤ 1 := by
    rw [← length_bareOf, step.frames]
    exact Attempt.frames_length _ _
  have fits := message.visits_fit chain s false
  have nodes := step.nodes false
  have paid : r.evm.payments.filter (fun payment => 0 < payment.amount) =
      (message.visits chain s false).flatMap positive := by
    rw [step.payments false, List.nil_append, List.filter_flatMap]
    rfl
  have blank := fun visit member => (fits visit member).blank
  have balance := sum_shownValue fits
  rw [← nodes_wellFormed blank, ← nodes, ← collectAll_ok_iff classify x.proxyABI blockNumber txIndex, ExtractsEther,
    exTx, TxExtractor.derive_eq classify x short, paid]
  cases found : collectAll classify x.proxyABI blockNumber txIndex kids with
  | error panic => simp [Except.map]
  | ok c =>
    have flows := collectAll_flows classify x.proxyABI blockNumber txIndex kids c found
    have total : ether ((c.1.map TokenTx.flow : List Flow) + (c.2.foldl TxExtractor.addAction x).recorded) =
        ether x.recorded + (((message.visits chain s false).flatMap shownValue : List Payment) +
          ((message.visits chain s false).flatMap forged : List Payment)) := by
      have recorded := indexed.recorded_collected c
      rw [collected] at recorded
      rw [recorded, ether_add, flows, nodes, ether_nodes _ blank]
    have whole : (∃ tokenTxList x', (Except.ok c : Except Panic _).map (collected x) = .ok (tokenTxList, x') ∧
        ether ((tokenTxList.map TokenTx.flow : List Flow) + x'.recorded) =
          ether x.recorded + ((message.visits chain s false).flatMap positive : List Payment)) ↔
        ((message.visits chain s false).flatMap shownValue : Multiset Payment) +
          ((message.visits chain s false).flatMap forged : List Payment) =
        ((message.visits chain s false).flatMap positive : List Payment) := by
      constructor
      · rintro ⟨tokenTxList, x', same, equal⟩
        cases same
        rw [total] at equal
        exact add_left_cancel equal
      · intro equal
        refine ⟨_, _, rfl, ?_⟩
        rw [total, equal]
    rw [whole, add_eq_iff_of_balance balance]
    exact ⟨fun equal => ⟨⟨c, rfl⟩, equal⟩, fun both => both.2⟩

def blindExtractor : TxExtractor where
  proxyABI := ∅

def payState : StateDB :=
  .new ((Go.Map.empty.set 0x10 ⟨1, 0, emittingCode, .empty⟩).set 0x30 ⟨0, 5, [], .empty⟩)

def payMessage : Message := .call 0x30 0x10 [] 5 none (.log [] [] (.done (.stop [])))

theorem extractsEther_paying :
    ∃ r, payMessage.apply london payState = .ok r ∧ ExtractsEther (fun _ _ => .none) blindExtractor 1 0 r := by
  have ran : (payMessage.apply london payState).toOption.isSome = true := by decide +kernel
  obtain ⟨r, applied⟩ := toOption_isSome ran
  refine ⟨r, applied, (extractsEther_iff london payState payMessage r (fun _ _ => .none) blindExtractor 1 0
    (new_numbered _) applied rfl).mpr ⟨?_, ?_⟩⟩
  · decide +kernel
  · decide +kernel

def payOutCode : Bytes := [0x60, 0x20, 0xff]

def payOutChain : Chain :=
  { london with keccak := fun code =>
      if code = payOutCode then 0x89672ba926f97d7b4e0e4c60008966de4ec868daebed81f8fdcbae106f7bf882
      else london.keccak code }

def payOutState : StateDB := .new (Go.Map.empty.set 0x10 ⟨1, 5, payOutCode, .empty⟩)

def payOutMessage : Message := .call 0x30 0x10 [] 0 none (.selfdestruct 0x20)

/-- The balance that a SELFDESTRUCT pays out is in no flow. -/
theorem payOut_not_extracted :
    ∃ r, payOutMessage.apply payOutChain payOutState = .ok r ∧ r.err = none ∧
      (∀ visit ∈ payOutMessage.visits payOutChain payOutState false, visit.undone = false) ∧
      r.evm.payments = [⟨0x30, 0x10, 0⟩, ⟨0x10, 0x20, 5⟩] ∧
      ¬ ExtractsEther (fun _ _ => .none) blindExtractor 1 0 r := by
  have kept : ∀ visit ∈ payOutMessage.visits payOutChain payOutState false, visit.undone = false := by
    decide +kernel
  have ran : (payOutMessage.apply payOutChain payOutState).toOption.any (fun r =>
      decide (r.err = none ∧ r.evm.payments = [⟨0x30, 0x10, 0⟩, ⟨0x10, 0x20, 5⟩]) &&
      (blindExtractor.derive (fun _ _ => .none) ⟨1, 0, r.evm.exTx⟩).toOption.all fun derived =>
        decide (ether ((derived.1.map TokenTx.flow : List Flow) + derived.2.recorded) ≠
          ether blindExtractor.recorded +
            (r.evm.payments.filter fun payment => 0 < payment.amount : List Payment))) = true := by
    decide +kernel
  obtain ⟨r, applied, checked⟩ := toOption_any ran
  obtain ⟨facts, missed⟩ := Bool.and_eq_true_iff.mp checked
  obtain ⟨err, payments⟩ := of_decide_eq_true facts
  refine ⟨r, applied, err, kept, payments, ?_⟩
  rintro ⟨tokenTxList, x', derived, equal⟩
  rw [derived] at missed
  exact of_decide_eq_true missed equal

end IDWDetector.Hunter
