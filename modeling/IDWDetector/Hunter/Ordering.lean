import IDWDetector.Hunter.Attribution
import IDWDetector.Hunter.Distribution
import IDWDetector.Hunter.Monotone
import IDWDetector.Vm.Happenings

namespace IDWDetector.Hunter

open State Vm Go Machine

variable {ledger : Ledger}

def transfersOf : Happening → List TokenTx
  | .opened fromAddr toAddr value => etherTx fromAddr toAddr value
  | .emitted event => (recognised event).toList

def placedTransfers (placed : Placed) : List (Path × TokenTx) :=
  (transfersOf placed.2).map fun tokenTx => (placed.1, tokenTx)

theorem placedTransfers_below (index : Nat) (placed : Placed) :
    placedTransfers (.below index placed) =
      (placedTransfers placed).map fun (path, tokenTx) => (index :: path, tokenTx) := by
  rw [placedTransfers, placedTransfers, List.map_map]
  rfl

mutual

theorem happenings_transfers (tx : InternalTx) : tx.happenings.flatMap placedTransfers = treeTransfers tx := by
  obtain ⟨_, _, _, _, _, _, events, inTxs⟩ := tx
  have own : (events.map fun event => Placed.own (.emitted event)).flatMap placedTransfers =
      (events.filterMap recognised).map fun tokenTx => (([] : Path), tokenTx) := by
    rw [List.flatMap_map, List.filterMap_eq_flatMap_toList, List.map_flatMap]
    rfl
  rw [InternalTx.happenings, treeTransfers, List.flatMap_cons, List.flatMap_append,
    happeningsBelow_transfers 0 inTxs, own,
    List.append_assoc]
  rfl

theorem happeningsBelow_transfers (index : Nat) (txs : List InternalTx) :
    (happeningsBelow index txs).flatMap placedTransfers = transfersBelow index txs := by
  cases txs with
  | nil => rfl
  | cons tx rest =>
    rw [happeningsBelow, transfersBelow, List.flatMap_append, happeningsBelow_transfers (index + 1) rest,
      ← happenings_transfers tx, List.flatMap_map, List.map_flatMap]
    simp only [placedTransfers_below]

end

def executed (chain : Chain) (stateDB : StateDB) (message : Message) : List (Path × TokenTx) :=
  (message.order chain stateDB).flatMap placedTransfers

theorem executed_perm {chain : Chain} {stateDB : StateDB} {message : Message} {r : Returned} {root : InternalTx}
    (applied : message.apply chain stateDB = .ok r) (tree : r.evm.exTx = [root]) :
    (executed chain stateDB message).Perm (treeTransfers root) := by
  rw [← happenings_transfers]
  exact (message.order_perm applied tree).flatMap_right _

section Attribution

variable (classify : Address → Bytes → Action) (proxies lpTokenMap commonAddressMap : Finset Address)
  (blockNumber txIndex : Int) (root : InternalTx)

def giveFlow (own : Action) (placed : Path × TokenTx) : Option (Address × TokenTx) :=
  let tokenTx := { placed.2 with blockNumber := blockNumber, txIndex := txIndex, action := own }
  if tokenTx.tokenAddress ∈ lpTokenMap then none
  else (flowUser commonAddressMap tokenTx).map fun user => (user, tokenTx)

/-- The user to whom a transfer of a call tree is attributed, and the transfer as it is
    attributed. -/
def attributed (placed : Path × TokenTx) : Option (Address × TokenTx) :=
  (owner classify proxies root placed.1).bind fun who =>
    ((actingCalls classify proxies root).lookup who).bind fun own =>
      giveFlow lpTokenMap commonAddressMap blockNumber txIndex own placed

theorem infoFlows_actionInfo (call : Path × Action) : infoFlows lpTokenMap commonAddressMap
    (actionInfo blockNumber txIndex (owned classify proxies root) call) =
      ((treeTransfers root).filter fun placed => owner classify proxies root placed.1 = some call.1).filterMap
        (giveFlow lpTokenMap commonAddressMap blockNumber txIndex call.2) := by
  rw [infoFlows, ActionInfo.tokenTxListWithoutLP, actionInfo, owned]
  induction (treeTransfers root).filter fun placed => owner classify proxies root placed.1 = some call.1 with
  | nil => rfl
  | cons placed rest ih =>
    rw [List.map_cons, List.filter_cons, List.filterMap_cons, giveFlow]
    by_cases own : placed.2.tokenAddress ∈ lpTokenMap
    · simp only [own, not_true_eq_false, decide_false, Bool.false_eq_true, if_false, if_true]
      exact ih
    · simp only [own, not_false_eq_true, decide_true, if_true, if_false, List.map_cons, List.filterMap_cons]
      rw [← ih]

theorem infoFlows_perm : (((actingCalls classify proxies root).map
    (actionInfo blockNumber txIndex (owned classify proxies root))).flatMap
    (infoFlows lpTokenMap commonAddressMap)).Perm
      ((treeTransfers root).filterMap
        (attributed classify proxies lpTokenMap commonAddressMap blockNumber txIndex root)) := by
  have distinct : ((actingCalls classify proxies root).map Prod.fst).Nodup := by
    rw [List.Nodup, List.pairwise_map]
    refine (actingCalls_ordered root).imp fun {call later} apart same => apart ?_
    rw [same]
  rw [List.flatMap_map]
  simp only [infoFlows_actionInfo]
  exact group_perm (fun placed => owner classify proxies root placed.1)
    (giveFlow lpTokenMap commonAddressMap blockNumber txIndex) distinct (treeTransfers root)

end Attribution

def ofTransaction (blockNumber txIndex : Int) (tokenTx : TokenTx) : Bool :=
  decide (tokenTx.blockNumber = blockNumber ∧ tokenTx.txIndex = txIndex)

def TxExtractor.transfersFor (x : TxExtractor) (classify : Address → Bytes → Action) (blockNumber txIndex : Int)
    (root : InternalTx) (transfers : List (Path × TokenTx)) (user : Address) : List TokenTx :=
  let flows := transfers.filterMap
    (attributed classify x.proxyABI x.lpTokenMap x.commonAddressMap blockNumber txIndex root)
  (flows.filter fun flow => flow.1 = user).map Prod.snd

theorem infoFlows_stamped {lpTokenMap commonAddressMap : Finset Address} {info : ActionInfo} {flow : Address × TokenTx}
    (member : flow ∈ infoFlows lpTokenMap commonAddressMap info) :
    flow.2.blockNumber = info.blockNumber ∧ flow.2.txIndex = info.txIndex := by
  obtain ⟨tokenTx, listed, given⟩ := List.mem_filterMap.mp member
  obtain ⟨user, -, rfl⟩ := Option.map_eq_some_iff.mp given
  obtain ⟨original, -, rfl⟩ := List.mem_map.mp listed
  exact ⟨rfl, rfl⟩

theorem actionsOf_stamped {classify : Address → Bytes → Action} {proxies : Finset Address} {exTx : ExternalTx}
    {infos : List ActionInfo} (found : actionsOf classify proxies exTx = .ok infos) {info : ActionInfo}
    (member : info ∈ infos) : info.blockNumber = exTx.blockNumber ∧ info.txIndex = exTx.txIndex := by
  unfold actionsOf at found
  split at found
  · obtain ⟨c, collected, rfl⟩ := map_ok.mp found
    obtain ⟨block, index, -⟩ := collect_found classify proxies _ _ _ c collected info member
    exact ⟨block, index⟩
  · cases found
    cases member

section Ledgers

variable {classify : Address → Bytes → Action} {x z : TxExtractor} {before after : List ExternalTx}
  {blockNumber txIndex : Int} {root : InternalTx} {infos : List ActionInfo} {flows : List (Address × TokenTx)}

theorem gather_others {txs : List ExternalTx} {proxies lpTokenMap commonAddressMap : Finset Address}
    (found : gather (actionsOf classify proxies) txs = .ok infos)
    (others : ∀ exTx ∈ txs, (exTx.blockNumber, exTx.txIndex) ≠ (blockNumber, txIndex)) :
    ((infos.flatMap (infoFlows lpTokenMap commonAddressMap)).filter fun flow =>
      ofTransaction blockNumber txIndex flow.2) = [] := by
  rw [List.filter_eq_nil_iff]
  intro flow member own
  obtain ⟨info, listed, inside⟩ := List.mem_flatMap.mp member
  obtain ⟨exTx, here, out, acted, infoMember⟩ := (mem_gather found info).mp listed
  obtain ⟨block, index⟩ := infoFlows_stamped inside
  obtain ⟨block', index'⟩ := actionsOf_stamped acted infoMember
  obtain ⟨sameBlock, sameIndex⟩ := of_decide_eq_true own
  apply others exTx here
  rw [← block', ← index', ← block, ← index, sameBlock, sameIndex]

variable {ordered : List (Path × TokenTx)}

theorem TxExtractor.transfersFor_stamped {user : Address} {tokenTx : TokenTx}
    (member : tokenTx ∈ x.transfersFor classify blockNumber txIndex root ordered user) :
    ofTransaction blockNumber txIndex tokenTx = true := by
  obtain ⟨flow, listed, rfl⟩ := List.mem_map.mp member
  obtain ⟨placed, -, given⟩ := List.mem_filterMap.mp (List.mem_filter.mp listed).1
  obtain ⟨who, -, given⟩ := Option.bind_eq_some_iff.mp given
  obtain ⟨own, -, given⟩ := Option.bind_eq_some_iff.mp given
  simp only [giveFlow] at given
  split at given
  · cases given
  · obtain ⟨found, -, rfl⟩ := Option.map_eq_some_iff.mp given
    exact decide_eq_true ⟨rfl, rfl⟩

theorem TxExtractor.ledgerOf_group {tokenTxMap : TokenTxMap} {order : List Address} {key : Address}
    (nodup : order.Nodup) (found : x.ledgerOf tokenTxMap order key = some ledger) :
    ∃ tokens : List Address, tokens.Nodup ∧ ledger.group = TxExtractor.transfersIn tokenTxMap tokens := by
  unfold TxExtractor.ledgerOf at found
  split at found
  · cases found
    exact ⟨order, nodup, rfl⟩
  · split at found
    · split at found
      · cases found
        exact ⟨[key], List.nodup_singleton key, (List.append_nil _).symm⟩
      · cases found
    · cases found
      exact ⟨x.pegged key order, nodup.filter _, rfl⟩

section Transaction

variable (distributes : Distributes classify x (before ++ ⟨blockNumber, txIndex, [root]⟩ :: after) infos flows z)
  (others : ∀ exTx ∈ before ++ after, (exTx.blockNumber, exTx.txIndex) ≠ (blockNumber, txIndex))
include distributes others

theorem Distributes.transaction :
    (flows.filter fun flow => ofTransaction blockNumber txIndex flow.2).Perm ((treeTransfers root).filterMap
      (attributed classify z.proxyABI z.lpTokenMap z.commonAddressMap blockNumber txIndex root)) := by
  obtain ⟨left, right, leftFound, rightFound, rfl⟩ := gather_append_ok.mp distributes.actions
  obtain ⟨own, later, ownFound, laterFound, rfl⟩ := gather_cons_ok.mp rightFound
  have early := @gather_others _ blockNumber txIndex _ _ _ z.lpTokenMap z.commonAddressMap leftFound
    fun exTx member => others exTx (List.mem_append_left _ member)
  have late := @gather_others _ blockNumber txIndex _ _ _ z.lpTokenMap z.commonAddressMap laterFound
    fun exTx member => others exTx (List.mem_append_right _ member)
  have kept : (own.flatMap (infoFlows z.lpTokenMap z.commonAddressMap)).filter
      (fun flow => ofTransaction blockNumber txIndex flow.2) =
        own.flatMap (infoFlows z.lpTokenMap z.commonAddressMap) := by
    rw [List.filter_eq_self]
    intro flow member
    obtain ⟨info, listed, inside⟩ := List.mem_flatMap.mp member
    obtain ⟨block, index⟩ := infoFlows_stamped inside
    obtain ⟨block', index'⟩ := actionsOf_stamped ownFound listed
    exact decide_eq_true ⟨block.trans block', index.trans index'⟩
  obtain ⟨c, collected, rfl⟩ := map_ok.mp ownFound
  have parts := collect_owned root c collected
  have perm := distributes.perm.filter fun flow => ofTransaction blockNumber txIndex flow.2
  rw [List.flatMap_append, List.flatMap_append, List.filter_append, List.filter_append, early, late, kept, parts,
    List.nil_append, List.append_nil] at perm
  exact perm.trans (infoFlows_perm _ _ _ _ _ _ _)

variable (initial : ∀ user token, ∀ tokenTx ∈ x.userTokenTxMap.listOf user token,
  ofTransaction blockNumber txIndex tokenTx = false) (perm : ordered.Perm (treeTransfers root))
include initial perm

theorem Distributes.listOf_perm (user token : Address) :
    ((z.userTokenTxMap.listOf user token).filter (ofTransaction blockNumber txIndex)).Perm
      ((z.transfersFor classify blockNumber txIndex root ordered user).filter fun tokenTx =>
        tokenTx.tokenAddress = token) := by
  have nothing : (x.userTokenTxMap.listOf user token).filter (ofTransaction blockNumber txIndex) = [] := by
    rw [List.filter_eq_nil_iff]
    intro tokenTx member
    exact Bool.eq_false_iff.mp (initial user token tokenTx member)
  have whole := (distributes.transaction others).trans (perm.filterMap _).symm
  have mine := ((whole.filter fun flow => flow.1 = user).map Prod.snd).filter fun tokenTx =>
    tokenTx.tokenAddress = token
  rw [distributes.lists, List.filter_append, nothing, List.nil_append]
  refine .trans (.of_eq ?_) mine
  simp only [List.filter_map, List.filter_filter]
  congr 2
  funext flow
  simp only [Function.comp_apply, Bool.decide_and]
  rw [Bool.and_comm, Bool.and_comm (decide (flow.1 = user)), Bool.and_assoc]

theorem Distributes.ledger_perm {order : Address → List Address} (enumerates : ∀ user tokenTxMap,
    z.userTokenTxMap.lookup user = some tokenTxMap → Map.Enumerates (order user) tokenTxMap) {user key : Address}
    (found : z.ledger z.userTokenTxMap order key user = some ledger) :
    (ledger.group.filter (ofTransaction blockNumber txIndex)).Perm
    ((z.transfersFor classify blockNumber txIndex root ordered user).filter
      fun tokenTx => tokenTx ∈ ledger.group) := by
  obtain ⟨tokenTxMap, known, generated⟩ := Option.bind_eq_some_iff.mp found
  obtain ⟨tokens, distinct, group⟩ := TxExtractor.ledgerOf_group (enumerates user tokenTxMap known).nodup generated
  have lists (token : Address) : z.userTokenTxMap.listOf user token = tokenTxMap.getD token [] := by
    rw [UserTokenTxMap.listOf, Map.getD_of_lookup known]
  have whole : (ledger.group.filter (ofTransaction blockNumber txIndex)).Perm
    ((z.transfersFor classify blockNumber txIndex root ordered user).filter
      fun tokenTx => tokenTx.tokenAddress ∈ tokens) := by
    rw [group, TxExtractor.transfersIn, List.filter_flatMap]
    refine .trans (List.Perm.flatMap_left tokens fun token _ => ?_) (partition_perm _ distinct _)
    rw [← lists]
    exact distributes.listOf_perm others initial perm user token
  refine whole.trans (.of_eq (List.filter_congr fun tokenTx member => ?_))
  have own : ofTransaction blockNumber txIndex tokenTx = true := TxExtractor.transfersFor_stamped member
  have both := whole.mem_iff (a := tokenTx)
  rw [List.mem_filter, List.mem_filter] at both
  simpa [own, member] using both.symm

end Transaction

def Ledger.enters (ledger : Ledger) (tokenTx : TokenTx) : Bool :=
  counted ledger.convert tokenTx && decide (tokenTx ∈ ledger.group)

theorem less_iff_eventIndex {first second : TokenTx} (own : ofTransaction blockNumber txIndex first = true)
    (own' : ofTransaction blockNumber txIndex second = true) :
    TokenTx.less first second = true ↔ first.eventIndex < second.eventIndex := by
  obtain ⟨block, index⟩ := of_decide_eq_true own
  obtain ⟨block', index'⟩ := of_decide_eq_true own'
  rw [TokenTx.less, block, block', index, index', if_neg (lt_irrefl _), if_pos rfl, if_neg (lt_irrefl _), if_pos rfl,
    decide_eq_true_iff]

theorem sorted_ledger_iff {transfers : List TokenTx}
    (stamped : ∀ tokenTx ∈ transfers, ofTransaction blockNumber txIndex tokenTx = true)
    (perm : (ledger.group.filter (ofTransaction blockNumber txIndex)).Perm
      (transfers.filter fun tokenTx => tokenTx ∈ ledger.group)) :
    (∀ sorted, Sorted TokenTx.less ledger.group sorted → (sorted.filter fun tokenTx =>
      counted ledger.convert tokenTx && ofTransaction blockNumber txIndex tokenTx) = transfers.filter ledger.enters) ↔
      (transfers.filter ledger.enters).Pairwise fun first second =>
        first.eventIndex < second.eventIndex ∨ first = second := by
  have counts : (transfers.filter ledger.enters).Perm (ledger.group.filter fun tokenTx =>
      counted ledger.convert tokenTx && ofTransaction blockNumber txIndex tokenTx) := by
    have both := (perm.filter (counted ledger.convert)).symm
    rw [List.filter_filter, List.filter_filter] at both
    exact both
  rw [TokenTx.less_weakOrder.filter_sorted_iff counts]
  apply List.Pairwise.iff_of_mem
  intro first second member member'
  rw [less_iff_eventIndex (stamped first (List.mem_filter.mp member).1) (stamped second (List.mem_filter.mp member').1)]

/-- Transfers stand in the order of execution in every list of a user exactly when the one executed first has the
    smaller event index. -/
theorem generateUserFlow_order_iff {chain : Chain} {stateDB : StateDB} {message : Message} {r : Returned}
    {stakeTxs : List ExternalTx} {order : Address → List Address}
    (applied : message.apply chain stateDB = .ok r) (tree : r.evm.exTx = [root]) (fresh : x.actionInfoList = .empty)
    (extracts : TxExtractor.Extracts classify x (before ++ ⟨blockNumber, txIndex, [root]⟩ :: after) stakeTxs (.ok z))
    (others : ∀ exTx ∈ before ++ after, (exTx.blockNumber, exTx.txIndex) ≠ (blockNumber, txIndex))
    (initial : ∀ user token, ∀ tokenTx ∈ x.userTokenTxMap.listOf user token,
      ofTransaction blockNumber txIndex tokenTx = false)
    (enumerates : ∀ user tokenTxMap, z.userTokenTxMap.lookup user = some tokenTxMap →
      Map.Enumerates (order user) tokenTxMap) :
    (∀ sort : List TokenTx → List TokenTx, (∀ list, Sorted TokenTx.less list (sort list)) →
      ∀ user key ledger, z.ledger z.userTokenTxMap order key user = some ledger →
        ((z.generateUserFlow sort order).getD user .empty).lookup key =
          some (flowList ledger.convert (sort ledger.group)) ∧
        ((sort ledger.group).filter fun tokenTx =>
          counted ledger.convert tokenTx && ofTransaction blockNumber txIndex tokenTx) =
            (z.transfersFor classify blockNumber txIndex root (executed chain stateDB message) user).filter
              ledger.enters) ↔
      ∀ user key ledger, z.ledger z.userTokenTxMap order key user = some ledger →
        ((z.transfersFor classify blockNumber txIndex root (executed chain stateDB message) user).filter
          ledger.enters).Pairwise fun first second => first.eventIndex < second.eventIndex ∨ first = second := by
  obtain ⟨infos, flows, distributes⟩ := extracts.distributes fresh
  have list {user key : Address} {ledger : Ledger} (found : z.ledger z.userTokenTxMap order key user = some ledger) :=
    sorted_ledger_iff (fun _ member => TxExtractor.transfersFor_stamped member)
      (distributes.ledger_perm others initial (executed_perm applied tree) enumerates found)
  constructor
  · intro always user key ledger found
    refine (list found).mp (TokenTx.less_weakOrder.forall_sort_iff.mp fun sort sorts => ?_)
    exact (always sort sorts user key ledger found).2
  · intro ordered sort sorts user key ledger found
    refine ⟨?_, (list found).mpr (ordered user key ledger found) _ (sorts _)⟩
    rw [TxExtractor.lookup_generateUserFlow, found]
    rfl

end Ledgers

def vaultCode (self : Byte) (rest : Bytes) : Bytes :=
  [0x60, 0, 0x60, 0, 0xa0, 0x60, 1, 0x60, 0, 0x52, 0x60, self, 0x60, 0x20, 0x7f,
    0xdd, 0xf2, 0x52, 0xad, 0x1b, 0xe2, 0xc8, 0x9b, 0x69, 0xc2, 0xb0, 0x68, 0xfc, 0x37, 0x8d, 0xaa,
    0x95, 0x2b, 0xa7, 0xf1, 0x63, 0xc4, 0xa1, 0x16, 0x28, 0xf5, 0x5a, 0x4d, 0xf5, 0x23, 0xb3, 0xef,
    0x60, 0x20, 0x60, 0, 0xa3] ++ rest

def withdrawing : Bytes :=
  [0x60, 0x77, 0x60, 0, 0x53, 0x60, 0, 0x60, 0, 0x60, 4, 0x60, 0, 0x60, 0, 0x60, 0x11, 0x5a, 0xf1, 0]

def payingCode : Bytes := [0x60, 0, 0x60, 0, 0x60, 0, 0x60, 0, 0x60, 1, 0x60, 0x20, 0x5a, 0xf1, 0]

def vaultChain : Chain :=
  { london with keccak := fun code =>
      if code = vaultCode 0x10 withdrawing then 0xbf655772f09c1f22b0ed3fb2d3cd7fb3f1c4833f85c5b047bcc264a5da072089
      else if code = vaultCode 0x12 [0] then 0x21e63d706f0fd92ce21997b96284147b3bcd8fb565c27d88bd3cd420bda88733
      else if code = payingCode then 0x63d6cfd0efd338fec4cc4563c40b7dcb63828f40ddfb49a5e7b060da9f9b6260
      else london.keccak code }

def vaultState : StateDB :=
  .new ((((Map.empty.set 0x10 ⟨1, 0, vaultCode 0x10 withdrawing, .empty⟩).set 0x11
    ⟨1, 9, payingCode, .empty⟩).set 0x12
    ⟨1, 0, vaultCode 0x12 [0], .empty⟩).set 0x20 ⟨1, 9, [], .empty⟩)

def vaultScript (self : Address) (next : Script) : Script :=
  .log [] [] (.log [transferTopic, 0x20, self.setWidth 256] (List.replicate 31 0 ++ [1]) next)

def depositAndWithdraw : Message :=
  .call 0x20 0x10 [100, 0, 0, 0] 0 none (vaultScript 0x10
    (.call .call 0x11 0 [119, 0, 0, 0] none
      (.read (.empty 0x20) (.call .call 0x20 1 [] none (.done (.stop [])) (.done (.stop []))))
      (.done (.stop []))))

def depositBoth : Message := .call 0x20 0x12 [100, 0, 0, 0] 2 none (vaultScript 0x12 (.done (.stop [])))

/-- Ether and the tokens of the vaults count for one token. -/
def vaultExtractor : TxExtractor where
  proxyABI := {0x10, 0x11, 0x12}
  relatedToken := some .empty
  stableTokenMap := ((Map.empty.set 0 ⟨18, 0x1, 1⟩).set 0x10 ⟨18, 0x1, 1⟩).set 0x12 ⟨18, 0x1, 1⟩

def TxExtractor.sortedTokens (x : TxExtractor) (user : Address) : List Address :=
  (x.userTokenTxMap.getD user .empty).sortedKeys

def ranAs (message : Message) (check : InternalTx → TxExtractor → Bool) : Bool :=
  (message.apply vaultChain vaultState).toOption.any fun r =>
    decide (r.err = none) && match r.evm.exTx with
      | [root] => (vaultExtractor.extractHistory byLetter [⟨7, 0, [root]⟩] []).toOption.any (check root)
      | _ => false

theorem ranAs_run {message : Message} {check : InternalTx → TxExtractor → Bool} (ran : ranAs message check = true) :
    ∃ r root z, message.apply vaultChain vaultState = .ok r ∧ r.err = none ∧ r.evm.exTx = [root] ∧
      TxExtractor.Extracts byLetter vaultExtractor [⟨7, 0, [root]⟩] [] (.ok z) ∧ check root z = true := by
  obtain ⟨r, applied, found⟩ := toOption_any ran
  obtain ⟨succeeded, found⟩ := Bool.and_eq_true_iff.mp found
  split at found
  · rename_i root tree
    obtain ⟨z, extracted, checked⟩ := toOption_any found
    refine ⟨r, root, z, applied, of_decide_eq_true succeeded, tree, ?_, checked⟩
    rw [← extracted]
    exact extractHistory_extracts byLetter ⟨rfl, rfl⟩ _ _
  · cases found

/-- A deposit that is executed before a withdrawal is counted after it. -/
theorem deposit_counted_late : ∃ r root z,
    depositAndWithdraw.apply vaultChain vaultState = .ok r ∧ r.err = none ∧ r.evm.exTx = [root] ∧
    TxExtractor.Extracts byLetter vaultExtractor [⟨7, 0, [root]⟩] [] (.ok z) ∧
    z.transfersFor byLetter 7 0 root (executed vaultChain vaultState depositAndWithdraw) 0x20 =
      [⟨7, 0, 1, 0x20, 0x10, 1, 0x10, .deposit⟩, ⟨7, 0, 0, 0x11, 0x20, 1, 0, .withdraw⟩] ∧
    ((z.generateUserFlow (stableSort TokenTx.less) z.sortedTokens).getD 0x20 .empty).lookup 0x1 =
      some [.zero, ⟨7, 0, 1, .withdraw, 0, 1⟩, ⟨7, 0, 1, .deposit, 1, 1⟩] := by
  have ran : ranAs depositAndWithdraw (fun root z => decide
      (z.transfersFor byLetter 7 0 root (executed vaultChain vaultState depositAndWithdraw) 0x20 =
        [⟨7, 0, 1, 0x20, 0x10, 1, 0x10, .deposit⟩, ⟨7, 0, 0, 0x11, 0x20, 1, 0, .withdraw⟩] ∧
      ((z.generateUserFlow (stableSort TokenTx.less) z.sortedTokens).getD 0x20 .empty).lookup 0x1 =
        some [.zero, ⟨7, 0, 1, .withdraw, 0, 1⟩, ⟨7, 0, 1, .deposit, 1, 1⟩])) = true := by
    decide +kernel
  obtain ⟨r, root, z, applied, succeeded, tree, extracts, checked⟩ := ranAs_run ran
  exact ⟨r, root, z, applied, succeeded, tree, extracts, of_decide_eq_true checked⟩

theorem generateUserFlow_order_deposits : ∃ r root z,
    depositBoth.apply vaultChain vaultState = .ok r ∧ r.evm.exTx = [root] ∧
    TxExtractor.Extracts byLetter vaultExtractor [⟨7, 0, [root]⟩] [] (.ok z) ∧
    z.transfersFor byLetter 7 0 root (executed vaultChain vaultState depositBoth) 0x20 =
      [⟨7, 0, 0, 0x20, 0x12, 2, 0, .deposit⟩, ⟨7, 0, 1, 0x20, 0x12, 1, 0x12, .deposit⟩] ∧
    ∀ user key ledger, z.ledger z.userTokenTxMap z.sortedTokens key user = some ledger →
      ((stableSort TokenTx.less ledger.group).filter fun tokenTx =>
        counted ledger.convert tokenTx && ofTransaction 7 0 tokenTx) =
          (z.transfersFor byLetter 7 0 root
            (executed vaultChain vaultState depositBoth) user).filter ledger.enters := by
  have ran : ranAs depositBoth (fun root z => decide
      (z.transfersFor byLetter 7 0 root (executed vaultChain vaultState depositBoth) 0x20 =
        [⟨7, 0, 0, 0x20, 0x12, 2, 0, .deposit⟩, ⟨7, 0, 1, 0x20, 0x12, 1, 0x12, .deposit⟩] ∧
      ((executed vaultChain vaultState depositBoth).filterMap (attributed byLetter z.proxyABI z.lpTokenMap
        z.commonAddressMap 7 0 root)).Pairwise fun first second => first.2.eventIndex < second.2.eventIndex)) =
          true := by
    decide +kernel
  obtain ⟨r, root, z, applied, -, tree, extracts, checked⟩ := ranAs_run ran
  obtain ⟨transfers, ordered⟩ := of_decide_eq_true checked
  have enumerates : ∀ user tokenTxMap, z.userTokenTxMap.lookup user = some tokenTxMap →
      Map.Enumerates (z.sortedTokens user) tokenTxMap := by
    intro user tokenTxMap known
    rw [TxExtractor.sortedTokens, Map.getD_of_lookup known]
    exact Map.sortedKeys_enumerates _
  have always := (@generateUserFlow_order_iff byLetter vaultExtractor z []
    [] 7 0 root _ _ _ _ _ _ applied tree rfl extracts
    (by simp) (by simp [UserTokenTxMap.listOf, vaultExtractor, Map.getD]) enumerates).mpr (by
      intro user key ledger found
      refine List.Pairwise.filter _ (List.pairwise_map.mpr ((ordered.filter _).imp ?_))
      exact Or.inl)
  refine ⟨r, root, z, applied, tree, extracts, transfers, ?_⟩
  intro user key ledger found
  exact (always _ TokenTx.less_weakOrder.stableSort_sorted user key ledger found).2

end IDWDetector.Hunter
