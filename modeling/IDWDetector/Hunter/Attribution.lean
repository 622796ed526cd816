import IDWDetector.Hunter.EtherFlow

namespace IDWDetector.Hunter

open Vm Machine

abbrev Path := List Nat

def recognised (event : Event) : Option TokenTx := ((extractEvent event).toOption).join

mutual

def treeTransfers : InternalTx → List (Path × TokenTx)
  | ⟨fromAddr, toAddr, _, value, _, _, events, inTxs⟩ =>
    (etherTx fromAddr toAddr value).map (fun tokenTx => ([], tokenTx)) ++ transfersBelow 0 inTxs ++
      (events.filterMap recognised).map fun tokenTx => ([], tokenTx)

def transfersBelow (index : Nat) : List InternalTx → List (Path × TokenTx)
  | [] => []
  | tx :: rest => (treeTransfers tx).map (fun (path, tokenTx) => (index :: path, tokenTx)) ++
      transfersBelow (index + 1) rest

end

section Attribution

variable (classify : Address → Bytes → Action) (proxies : Finset Address)

def callAction (tx : InternalTx) : Action := TxExtractor.actionOf classify proxies tx.toAddr tx.input

mutual

def actingCalls : InternalTx → List (Path × Action)
  | ⟨_, toAddr, _, _, _, input, _, inTxs⟩ =>
    let own := TxExtractor.actionOf classify proxies toAddr input
    actingBelow 0 inTxs ++ if own = .none then [] else [([], own)]

def actingBelow (index : Nat) : List InternalTx → List (Path × Action)
  | [] => []
  | tx :: rest =>
    (actingCalls tx).map (fun (path, own) => (index :: path, own)) ++ actingBelow (index + 1) rest

end

def ownPath (tx : InternalTx) : Option Path := if callAction classify proxies tx = .none then none else some []

def owner : InternalTx → Path → Option Path
  | tx, [] => ownPath classify proxies tx
  | tx, index :: path =>
    match tx.inTxs[index]? with
    | some inTx => ((owner inTx path).map fun path => index :: path).or (ownPath classify proxies tx)
    | none => ownPath classify proxies tx

def ownerBelow (inTxs : List InternalTx) : Path → Option Path
  | [] => none
  | index :: path => inTxs[index]?.bind fun inTx => (owner classify proxies inTx path).map fun path => index :: path

def owned (tx : InternalTx) (who : Option Path) : List TokenTx :=
  ((treeTransfers tx).filter fun (path, _) => owner classify proxies tx path = who).map Prod.snd

def ownedBelow (inTxs : List InternalTx) (placed : List (Path × TokenTx)) (who : Option Path) : List TokenTx :=
  (placed.filter fun (path, _) => ownerBelow classify proxies inTxs path = who).map Prod.snd

def actionInfo (blockNumber txIndex : Int) (owned : Option Path → List TokenTx) (call : Path × Action) : ActionInfo :=
  ⟨call.2, blockNumber, txIndex, owned (some call.1)⟩

theorem owner_eq (tx : InternalTx) (path : Path) :
    owner classify proxies tx path = (ownerBelow classify proxies tx.inTxs path).or (ownPath classify proxies tx) := by
  cases path with
  | nil => rfl
  | cons index path =>
    rw [owner, ownerBelow]
    cases tx.inTxs[index]? with
    | none => rfl
    | some inTx => rfl

variable {classify proxies} {inTxs : List InternalTx}

theorem ownerBelow_head {index : Nat} {path who : Path}
    (found : ownerBelow classify proxies inTxs (index :: path) = some who) : ∃ rest, who = index :: rest := by
  obtain ⟨inTx, -, held⟩ := Option.bind_eq_some_iff.mp found
  obtain ⟨rest, -, rfl⟩ := Option.map_eq_some_iff.mp held
  exact ⟨rest, rfl⟩

theorem ownerBelow_ne_nil {path : Path} : ownerBelow classify proxies inTxs path ≠ some [] := by
  intro found
  cases path with
  | nil => cases found
  | cons index path =>
    obtain ⟨rest, same⟩ := ownerBelow_head found
    cases same

theorem transfersBelow_head {index : Nat} {placed : Path × TokenTx} (member : placed ∈ transfersBelow index inTxs) :
    ∃ index' path, placed.1 = index' :: path ∧ index ≤ index' := by
  induction inTxs generalizing index with
  | nil => cases member
  | cons tx rest ih =>
    rw [transfersBelow] at member
    rcases List.mem_append.mp member with first | later
    · obtain ⟨inner, -, rfl⟩ := List.mem_map.mp first
      exact ⟨index, inner.1, rfl, le_refl _⟩
    · obtain ⟨index', path, same, above⟩ := ih later
      exact ⟨index', path, same, by omega⟩

theorem actingBelow_head {index : Nat} {call : Path × Action}
    (member : call ∈ actingBelow classify proxies index inTxs) :
    ∃ index' path, call.1 = index' :: path ∧ index ≤ index' := by
  induction inTxs generalizing index with
  | nil =>
    rw [actingBelow] at member
    cases member
  | cons tx rest ih =>
    rw [actingBelow] at member
    rcases List.mem_append.mp member with first | later
    · obtain ⟨inner, -, rfl⟩ := List.mem_map.mp first
      exact ⟨index, inner.1, rfl, le_refl _⟩
    · obtain ⟨index', path, same, above⟩ := ih later
      exact ⟨index', path, same, by omega⟩

theorem extractEvents_recognised {events : List Event} {own : List TokenTx}
    (extracted : extractEvents events = .ok own) :
    own = events.filterMap recognised := by
  induction events generalizing own with
  | nil =>
    cases extracted
    rfl
  | cons event rest ih =>
    obtain ⟨tokenTx, first, later⟩ := bind_ok.mp extracted
    obtain ⟨more, second, last⟩ := bind_ok.mp later
    cases last
    have head : recognised event = tokenTx := by
      rw [recognised, first]
      cases tokenTx with
      | none => rfl
      | some tokenTx => rfl
    rw [List.filterMap_cons, head, ih second]
    cases tokenTx with
    | none => rfl
    | some tokenTx => rfl

theorem ownedBelow_append (inTxs : List InternalTx) (first second : List (Path × TokenTx)) (who : Option Path) :
    ownedBelow classify proxies inTxs (first ++ second) who =
      ownedBelow classify proxies inTxs first who ++ ownedBelow classify proxies inTxs second who := by
  rw [ownedBelow, List.filter_append, List.map_append]
  rfl

theorem ownedBelow_eq_nil {placed : List (Path × TokenTx)} {who : Option Path}
    (other : ∀ entry ∈ placed, ownerBelow classify proxies inTxs entry.1 ≠ who) :
    ownedBelow classify proxies inTxs placed who = [] := by
  rw [ownedBelow, List.map_eq_nil_iff, List.filter_eq_nil_iff]
  intro entry member
  simpa using other entry member

theorem ownedBelow_map {index : Nat} {tx : InternalTx} (here : inTxs[index]? = some tx) (who : Option Path) :
    ownedBelow classify proxies inTxs
      ((treeTransfers tx).map fun (path, tokenTx) => (index :: path, tokenTx)) (who.map fun path => index :: path) =
      owned classify proxies tx who := by
  have injective : Function.Injective (Option.map fun path : Path => index :: path) :=
    Option.map_injective fun _ _ same => (List.cons.inj same).2
  have same (path : Path) : ownerBelow classify proxies inTxs (index :: path) = who.map (fun path => index :: path) ↔
      owner classify proxies tx path = who := by
    rw [ownerBelow, here, Option.bind_some, injective.eq_iff]
  rw [ownedBelow, owned, List.filter_map, List.map_map]
  simp only [Function.comp_def, same]

section Node

variable (tx : InternalTx)

theorem treeTransfers_eq : treeTransfers tx = (etherTx tx.fromAddr tx.toAddr tx.value).map
    (fun tokenTx => ([], tokenTx)) ++
    transfersBelow 0 tx.inTxs ++ (tx.events.filterMap recognised).map fun tokenTx => ([], tokenTx) := by
  cases tx
  rw [treeTransfers]

theorem owned_below {who : Path} (inner : who ≠ []) : owned classify proxies tx (some who) =
    ownedBelow classify proxies tx.inTxs (transfersBelow 0 tx.inTxs) (some who) := by
  have same (path : Path) : owner classify proxies tx path = some who ↔
      ownerBelow classify proxies tx.inTxs path = some who := by
    rw [owner_eq, ownPath]
    cases ownerBelow classify proxies tx.inTxs path with
    | some found => rfl
    | none =>
      split
      · rfl
      · simp [inner.symm]
  have outside : ownerBelow classify proxies tx.inTxs [] ≠ some who := nofun
  rw [owned, ownedBelow, treeTransfers_eq]
  simp only [same, List.filter_append, List.filter_map, Function.comp_def, outside, decide_false, List.filter_false,
    List.map_nil, List.nil_append, List.append_nil]

theorem owned_ownPath : owned classify proxies tx (ownPath classify proxies tx) =
    etherTx tx.fromAddr tx.toAddr tx.value ++
      ownedBelow classify proxies tx.inTxs (transfersBelow 0 tx.inTxs) none ++ tx.events.filterMap recognised := by
  have same (path : Path) : owner classify proxies tx path = ownPath classify proxies tx ↔
      ownerBelow classify proxies tx.inTxs path = none := by
    rw [owner_eq]
    cases found : ownerBelow classify proxies tx.inTxs path with
    | none => simp
    | some who =>
      rw [Option.some_or, ownPath]
      split
      · rfl
      · constructor
        · intro equal
          rw [equal] at found
          exact absurd found ownerBelow_ne_nil
        · exact nofun
  have outside : ownerBelow classify proxies tx.inTxs [] = none := rfl
  rw [owned, ownedBelow, treeTransfers_eq]
  simp only [same, List.filter_append, List.filter_map, Function.comp_def, outside, decide_true, List.filter_true,
    List.map_append, List.map_map, List.map_id']

theorem owned_none (acts : callAction classify proxies tx ≠ .none) : owned classify proxies tx none = [] := by
  have never (path : Path) : owner classify proxies tx path ≠ none := by
    rw [owner_eq, ownPath, if_neg acts]
    simp
  rw [owned, List.map_eq_nil_iff, List.filter_eq_nil_iff]
  intro entry _
  simpa using never entry.1

end Node

theorem actingBelow_actionInfo (tx : InternalTx) (blockNumber txIndex : Int) :
    (actingBelow classify proxies 0 tx.inTxs).map (actionInfo blockNumber txIndex
      (ownedBelow classify proxies tx.inTxs (transfersBelow 0 tx.inTxs))) =
    (actingBelow classify proxies 0 tx.inTxs).map (actionInfo blockNumber txIndex (owned classify proxies tx)) := by
  apply List.map_congr_left
  intro call member
  obtain ⟨index, path, same, -⟩ := actingBelow_head member
  rw [actionInfo, actionInfo, owned_below tx (same ▸ List.cons_ne_nil _ _)]

variable {blockNumber txIndex : Int}

mutual

theorem collect_owned (tx : InternalTx) (c : List TokenTx × List ActionInfo)
    (result : collect classify proxies blockNumber txIndex tx = .ok c) :
    c = (owned classify proxies tx none,
      (actingCalls classify proxies tx).map (actionInfo blockNumber txIndex (owned classify proxies tx))) := by
  obtain ⟨fromAddr, toAddr, isContract, value, callType, input, events, inTxs⟩ := tx
  rw [collect] at result
  obtain ⟨below, inner, later⟩ := bind_ok.mp result
  obtain ⟨own, extracted, last⟩ := bind_ok.mp later
  have rest := collectAll_owned inTxs 0 inTxs below rfl inner
  have recognised := extractEvents_recognised extracted
  subst rest recognised
  have infos := @actingBelow_actionInfo classify proxies
    ⟨fromAddr, toAddr, isContract, value, callType, input, events, inTxs⟩ blockNumber txIndex
  have whole := @owned_ownPath classify proxies ⟨fromAddr, toAddr, isContract, value, callType, input, events, inTxs⟩
  simp only [infos] at last
  rw [actingCalls]
  split at last
  · rename_i none
    cases last
    rw [ownPath, callAction, if_pos none] at whole
    simp only [none, if_true, List.append_nil, whole]
  · rename_i acts
    cases last
    rw [ownPath, callAction, if_neg acts] at whole
    have nothing := @owned_none classify proxies
      ⟨fromAddr, toAddr, isContract, value, callType, input, events, inTxs⟩ acts
    simp only [nothing, acts, if_false, List.map_append, List.map_singleton, actionInfo, whole]

theorem collectAll_owned (all : List InternalTx) (index : Nat) (txs : List InternalTx)
    (c : List TokenTx × List ActionInfo) (placed : all.drop index = txs)
    (result : collectAll classify proxies blockNumber txIndex txs = .ok c) :
    c = (ownedBelow classify proxies all (transfersBelow index txs) none,
      (actingBelow classify proxies index txs).map
        (actionInfo blockNumber txIndex (ownedBelow classify proxies all (transfersBelow index txs)))) := by
  cases txs with
  | nil =>
    cases result
    rw [actingBelow, transfersBelow]
    rfl
  | cons tx rest =>
    rw [collectAll] at result
    obtain ⟨first, here, later⟩ := bind_ok.mp result
    obtain ⟨second, there, last⟩ := bind_ok.mp later
    cases last
    have head := collect_owned tx first here
    have at_index : all[index]? = some tx := by
      rw [← List.head?_drop, placed]
      rfl
    have next : all.drop (index + 1) = rest := by
      rw [← List.drop_drop, placed]
      rfl
    have tail := collectAll_owned all (index + 1) rest second next there
    subst head tail
    have apart (call : Path × Action) (member : call ∈ actingBelow classify proxies (index + 1) rest) :
        ownedBelow classify proxies all ((treeTransfers tx).map fun (path, tokenTx) => (index :: path, tokenTx))
          (some call.1) = [] := by
      obtain ⟨index', path, same, above⟩ := actingBelow_head member
      apply ownedBelow_eq_nil
      intro entry mapped found
      obtain ⟨inner, -, rfl⟩ := List.mem_map.mp mapped
      obtain ⟨rest, head⟩ := ownerBelow_head found
      rw [same] at head
      have equal := (List.cons.inj head).1
      omega
    have apart' (path : Path) : ownedBelow classify proxies all (transfersBelow (index + 1) rest)
        (some (index :: path)) = [] := by
      apply ownedBelow_eq_nil
      intro entry member found
      obtain ⟨index', path', same, above⟩ := transfersBelow_head member
      rw [same] at found
      obtain ⟨rest, head⟩ := ownerBelow_head found
      have equal := (List.cons.inj head).1
      omega
    have own (who : Option Path) := @ownedBelow_map classify proxies _ _ _ at_index who
    rw [transfersBelow, ownedBelow_append, actingBelow, List.map_append, List.map_map]
    congr 1
    · rw [← own none]
      rfl
    · congr 1
      · apply List.map_congr_left
        intro call _
        simp only [Function.comp_apply, actionInfo, ownedBelow_append, apart', List.append_nil]
        rw [← own (some call.1)]
        rfl
      · apply List.map_congr_left
        intro call member
        simp only [actionInfo, ownedBelow_append, apart call member, List.nil_append]

end

mutual

theorem actingCalls_ordered (tx : InternalTx) :
    (actingCalls classify proxies tx).Pairwise fun call later => ¬call.1 <+: later.1 := by
  obtain ⟨_, _, _, _, _, _, _, inTxs⟩ := tx
  rw [actingCalls, List.pairwise_append]
  refine ⟨actingBelow_ordered 0 inTxs, ?_, ?_⟩
  · split
    · exact .nil
    · exact List.pairwise_singleton _ _
  · intro call member last listed
    obtain ⟨index, path, same, -⟩ := actingBelow_head member
    split at listed
    · cases listed
    · rw [List.mem_singleton.mp listed, same]
      simp

theorem actingBelow_ordered (index : Nat) (txs : List InternalTx) :
    (actingBelow classify proxies index txs).Pairwise fun call later => ¬call.1 <+: later.1 := by
  cases txs with
  | nil =>
    rw [actingBelow]
    exact .nil
  | cons tx rest =>
    rw [actingBelow, List.pairwise_append]
    refine ⟨?_, actingBelow_ordered (index + 1) rest, ?_⟩
    · refine (actingCalls_ordered tx).map _ fun call later ordered => ?_
      rw [List.cons_prefix_cons]
      exact fun both => ordered both.2
    · intro call member later listed
      obtain ⟨inner, -, rfl⟩ := List.mem_map.mp member
      obtain ⟨index', path, same, above⟩ := actingBelow_head listed
      rw [same, List.cons_prefix_cons]
      omega

end

theorem mem_actingBelow {txs : List InternalTx} {offset index : Nat} {tx : InternalTx} (here : txs[index]? = some tx)
    {call : Path × Action} (member : call ∈ actingCalls classify proxies tx) :
    ((offset + index) :: call.1, call.2) ∈ actingBelow classify proxies offset txs := by
  induction txs generalizing offset index with
  | nil => cases here
  | cons first rest ih =>
    rw [actingBelow, List.mem_append]
    cases index with
    | zero =>
      cases here
      exact .inl (List.mem_map.mpr ⟨call, member, rfl⟩)
    | succ index =>
      have later := @ih (offset + 1) index here
      rw [Nat.add_right_comm] at later
      exact .inr later

theorem owner_acts {tx : InternalTx} {path who : Path} (found : owner classify proxies tx path = some who) :
    ∃ own, (who, own) ∈ actingCalls classify proxies tx := by
  have whole (tx : InternalTx) (who : Path) (here : ownPath classify proxies tx = some who) :
      ∃ own, (who, own) ∈ actingCalls classify proxies tx := by
    obtain ⟨fromAddr, toAddr, isContract, value, callType, input, events, inTxs⟩ := tx
    unfold ownPath callAction at here
    split at here
    · cases here
    · rename_i acts
      cases here
      rw [actingCalls]
      exact ⟨_, List.mem_append_right _ (by rw [if_neg acts]; exact List.mem_singleton_self _)⟩
  induction path generalizing tx who with
  | nil => exact whole tx who found
  | cons index path ih =>
    rw [owner] at found
    split at found
    · rename_i inTx here
      rcases Option.or_eq_some_iff.mp found with below | ⟨-, here⟩
      · obtain ⟨inner, held, rfl⟩ := Option.map_eq_some_iff.mp below
        obtain ⟨own, member⟩ := ih held
        have listed := @mem_actingBelow classify proxies _ 0 _ _ here _ member
        rw [Nat.zero_add] at listed
        cases tx
        rw [actingCalls]
        exact ⟨own, List.mem_append_left _ listed⟩
      · exact whole tx who here
    · exact whole tx who found

end Attribution

theorem TxExtractor.Indexed.lookup_foldl_addAction {x : TxExtractor} (indexed : x.Indexed) (infos : List ActionInfo)
    (index : Nat) : (infos.foldl TxExtractor.addAction x).actionInfoList.lookup index =
      if index < x.actionInfoList.len then x.actionInfoList.lookup index
      else infos[index - x.actionInfoList.len]? := by
  induction infos generalizing x with
  | nil =>
    split_ifs with beyond
    · rfl
    · rw [List.foldl_nil, List.getElem?_nil, ← Go.Map.not_mem_keys, indexed, Finset.mem_range]
      exact beyond
  | cons info rest ih =>
    obtain ⟨indexed', -⟩ := indexed.addAction info
    rw [List.foldl_cons, ih indexed', indexed.len_addAction, addAction_actionInfoList, Go.Map.lookup_set]
    by_cases last : index = x.actionInfoList.len
    · subst last
      simp
    · by_cases before : index < x.actionInfoList.len
      · rw [if_pos (by omega), if_neg last, if_pos before]
      · rw [if_neg (by omega), if_neg before, show index - x.actionInfoList.len =
          index - (x.actionInfoList.len + 1) + 1 by omega, List.getElem?_cons_succ]

/-- Every transfer of a tree is in the action of its owner, or is returned if it has none; inner actions come first. -/
structure Partitions (classify : Address → Bytes → Action) (blockNumber txIndex : Int) (tx : InternalTx)
    (x : TxExtractor) (returned : List TokenTx) (x' : TxExtractor) : Prop where
  returned : returned = owned classify x.proxyABI tx none
  appended : ∀ index, x'.actionInfoList.lookup index =
    if index < x.actionInfoList.len then x.actionInfoList.lookup index
    else ((actingCalls classify x.proxyABI tx).map
      (actionInfo blockNumber txIndex (owned classify x.proxyABI tx)))[index - x.actionInfoList.len]?
  lands : ∀ placed ∈ treeTransfers tx, ∀ who, owner classify x.proxyABI tx placed.1 = some who →
    ∃ own, (who, own) ∈ actingCalls classify x.proxyABI tx
  innerFirst : (actingCalls classify x.proxyABI tx).Pairwise fun call later => ¬call.1 <+: later.1

/-- The extraction returns and partitions the transfers exactly if no transfer event lacks its amount. -/
theorem extractInTxInfo_partitions_iff (classify : Address → Bytes → Action) (blockNumber txIndex : Int)
    (tx : InternalTx) (x : TxExtractor) (indexed : x.Indexed) :
    (∃ returned x', x.extractInTxInfo classify blockNumber txIndex tx = .ok (returned, x') ∧
      Partitions classify blockNumber txIndex tx x returned x') ↔
      ∀ node ∈ tx.nodes, ∀ entry ∈ node.2, malformed entry = false := by
  rw [← collect_ok_iff classify x.proxyABI blockNumber txIndex tx,
    extractInTxInfo_eq classify x.proxyABI blockNumber txIndex tx x rfl]
  constructor
  · rintro ⟨returned, x', extracted, -⟩
    obtain ⟨c, found, -⟩ := map_ok.mp extracted
    exact ⟨c, found⟩
  · rintro ⟨c, found⟩
    have parts := collect_owned tx c found
    subst parts
    refine ⟨_, _, by rw [found]; rfl, rfl, ?_, ?_, actingCalls_ordered tx⟩
    · intro index
      exact indexed.lookup_foldl_addAction _ index
    · intro placed _ who found
      exact owner_acts found

/-- The method `d` is a deposit, and `w` a withdrawal. -/
def byLetter (_ : Address) (selector : Bytes) : Action :=
  if selector = [100, 0, 0, 0] then .deposit else if selector = [119, 0, 0, 0] then .withdraw else .none

def nestedCalls : InternalTx where
  fromAddr := 0x20
  toAddr := 0x10
  value := some 5
  callType := .call
  input := [100, 0, 0, 0]
  events := [transferEvent 0x60 0x20 0x10 1]
  inTxs := [{ fromAddr := 0x10, toAddr := 0x10, value := some 2, callType := .call, input := [119, 0, 0, 0],
              events := [transferEvent 0x61 0x10 0x20 0] }]

theorem extractInTxInfo_partitions_nested : ∃ returned x',
    TxExtractor.extractInTxInfo byLetter 7 0 nestedCalls { proxyABI := {0x10} } = .ok (returned, x') ∧
      Partitions byLetter 7 0 nestedCalls { proxyABI := {0x10} } returned x' :=
  (extractInTxInfo_partitions_iff byLetter 7 0 nestedCalls { proxyABI := {0x10} } rfl).mpr (by decide)

def emptyTransfer : InternalTx where
  fromAddr := 0x20
  toAddr := 0x10
  value := some 5
  callType := .call
  events := [⟨0x60, [transferTopic, 0x20, 0x10], [], 0⟩]

theorem emptyTransfer_not_partitioned : ¬∃ returned x',
    TxExtractor.extractInTxInfo byLetter 7 0 emptyTransfer { proxyABI := {0x10} } = .ok (returned, x') ∧
      Partitions byLetter 7 0 emptyTransfer { proxyABI := {0x10} } returned x' := by
  rintro ⟨returned, x', extracted, -⟩
  have panics : TxExtractor.extractInTxInfo byLetter 7 0 emptyTransfer { proxyABI := {0x10} } =
      .error .indexOutOfRange := rfl
  rw [panics] at extracted
  cases extracted

end IDWDetector.Hunter
