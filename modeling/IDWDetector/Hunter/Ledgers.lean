import IDWDetector.Hunter.Totals
import Mathlib.Algebra.Order.BigOperators.Group.List

namespace IDWDetector.Hunter

open Go

variable {group : List TokenTx} {tokenTx : TokenTx}

def amounts (action : Action) (flows : List TokenFlow) : ℚ :=
  (flows.map fun flow => if flow.action = action then flow.amount else 0).sum

theorem amounts_cons (action : Action) (flow : TokenFlow) (rest : List TokenFlow) :
    amounts action (flow :: rest) = (if flow.action = action then flow.amount else 0) + amounts action rest :=
  List.sum_cons

theorem amounts_append (action : Action) (first second : List TokenFlow) :
    amounts action (first ++ second) = amounts action first + amounts action second := by
  rw [amounts, List.map_append, List.sum_append]
  rfl

def TokenFlow.part (flow : TokenFlow) : Totals :=
  match flow.action with
  | .deposit => (flow.amount, 0)
  | .withdraw => (0, flow.amount)
  | .none => 0

def partsOf (flows : List TokenFlow) : Totals := (flows.map TokenFlow.part).sum

theorem partsOf_eq (flows : List TokenFlow) : partsOf flows = (amounts .deposit flows, amounts .withdraw flows) := by
  induction flows with
  | nil => rfl
  | cons flow rest ih =>
    rw [partsOf, List.map_cons, List.sum_cons, amounts_cons, amounts_cons]
    rw [partsOf] at ih
    rw [ih, TokenFlow.part]
    cases flow.action with
    | none => simp
    | deposit => simp
    | withdraw => simp

theorem partsOf_append (first second : List TokenFlow) :
    partsOf (first ++ second) = partsOf first + partsOf second := by
  rw [partsOf, List.map_append, List.sum_append]
  rfl

section Entries

variable (convert : TokenTx → Option ℚ)

def counted (tokenTx : TokenTx) : Bool := decide (0 < tokenTx.amount) && (convert tokenTx).isSome

structure Enters (tokenTx : TokenTx) (flow : TokenFlow) : Prop where
  blockNumber : flow.blockNumber = tokenTx.blockNumber
  txIndex : flow.txIndex = tokenTx.txIndex
  action : flow.action = tokenTx.action
  amount : convert tokenTx = some flow.amount

/-- The flows of a group of transfers: a zero entry, then one entry for each transfer that counts, in
    order, with the running totals. -/
structure IsLedger (group : List TokenTx) (flows : List TokenFlow) : Prop where
  zero : flows.head? = some .zero
  entries : ∃ transfers, Sorted TokenTx.less (group.filter (counted convert)) transfers ∧
    List.Forall₂ (Enters convert) transfers flows.tail
  totalDeposit : ∀ before flow after, flows = before ++ flow :: after →
    flow.totalDeposit = amounts .deposit (before ++ [flow])
  totalWithdraw : ∀ before flow after, flows = before ++ flow :: after →
    flow.totalWithdraw = amounts .withdraw (before ++ [flow])

variable {convert} {before : List TokenTx} {flow : TokenFlow} {flows : List TokenFlow}

theorem flowOf_eq_some : flowOf convert before tokenTx = some flow ↔
    0 < tokenTx.amount ∧ ∃ amount, convert tokenTx = some amount ∧ flowAfter convert before tokenTx amount = flow := by
  unfold flowOf
  split
  · rename_i positive
    rw [Option.map_eq_some_iff]
    exact ⟨fun found => ⟨positive, found⟩, And.right⟩
  · rename_i negative
    exact ⟨nofun, fun found => absurd found.1 negative⟩

theorem flowOf_eq_none : flowOf convert before tokenTx = none ↔ counted convert tokenTx = false := by
  unfold flowOf counted
  split
  · rename_i positive
    simp [positive]
  · rename_i negative
    simp [negative]

theorem shareOf_uncounted (none : counted convert tokenTx = false) : shareOf convert tokenTx = 0 := by
  have nothing (action : Action) : share convert action tokenTx = 0 := by
    unfold share
    split_ifs with counts
    · have unsupported : convert tokenTx = Option.none := by simpa [counted, counts.1] using none
      rw [unsupported]
      rfl
    · rfl
  exact Prod.ext (nothing .deposit) (nothing .withdraw)

theorem part_flowAfter {amount : ℚ} (positive : 0 < tokenTx.amount)
    (converted : convert tokenTx = some amount) :
    (flowAfter convert before tokenTx amount).part = shareOf convert tokenTx := by
  simp only [TokenFlow.part, flowAfter, shareOf, share, positive, converted, true_and, Option.getD_some]
  cases tokenTx.action with
  | none => rfl
  | deposit => rfl
  | withdraw => rfl

theorem flowsFrom_totals (before list : List TokenTx) {earlier later : List TokenFlow}
    (split : flowsFrom convert before list = earlier ++ flow :: later) :
    flow.totals = sharesOf convert before + partsOf (earlier ++ [flow]) := by
  induction list generalizing before earlier with
  | nil => exact absurd split (by simp [flowsFrom])
  | cons tokenTx rest ih =>
    rw [flowsFrom] at split
    cases found : flowOf convert before tokenTx with
    | none =>
      rw [found] at split
      rw [ih (before ++ [tokenTx]) split, sharesOf_snoc, shareOf_uncounted (flowOf_eq_none.mp found), add_zero]
    | some first =>
      rw [found, Option.toList_some, List.singleton_append] at split
      obtain ⟨positive, amount, converted, rfl⟩ := flowOf_eq_some.mp found
      have part : (flowAfter convert before tokenTx amount).part = _ := part_flowAfter positive converted
      cases earlier with
      | nil =>
        obtain ⟨rfl, -⟩ := List.cons.inj split
        rw [List.nil_append, partsOf, List.map_singleton, List.sum_singleton, part]
        exact sharesOf_snoc convert before tokenTx
      | cons head earlier =>
        obtain ⟨rfl, tail⟩ := List.cons.inj split
        rw [ih (before ++ [tokenTx]) tail, sharesOf_snoc, ← part, add_assoc]
        rfl

theorem flowList_totals (list : List TokenTx) {earlier later : List TokenFlow}
    (split : flowList convert list = earlier ++ flow :: later) : flow.totals = partsOf (earlier ++ [flow]) := by
  rw [flowList_eq] at split
  cases earlier with
  | nil =>
    obtain ⟨rfl, -⟩ := List.cons.inj split
    exact (add_zero _).symm
  | cons head earlier =>
    obtain ⟨rfl, tail⟩ := List.cons.inj split
    exact flowsFrom_totals [] list tail

theorem flowsFrom_enters (before list : List TokenTx) :
    List.Forall₂ (Enters convert) (list.filter (counted convert)) (flowsFrom convert before list) := by
  induction list generalizing before with
  | nil => exact .nil
  | cons tokenTx rest ih =>
    rw [flowsFrom, List.filter_cons]
    cases found : flowOf convert before tokenTx with
    | none =>
      rw [flowOf_eq_none.mp found]
      exact ih _
    | some flow =>
      have counts : counted convert tokenTx = true := by
        by_contra absent
        rw [flowOf_eq_none.mpr (Bool.eq_false_of_not_eq_true absent)] at found
        cases found
      obtain ⟨-, amount, converted, rfl⟩ := flowOf_eq_some.mp found
      rw [if_pos counts, Option.toList_some, List.singleton_append]
      exact .cons ⟨rfl, rfl, rfl, converted⟩ (ih _)

theorem isLedger_flowList {sorted : List TokenTx} (sorts : Sorted TokenTx.less group sorted) :
    IsLedger convert group (flowList convert sorted) := by
  refine ⟨?_, ⟨sorted.filter (counted convert), ?_, ?_⟩, ?_, ?_⟩
  · rw [flowList_eq]
    rfl
  · exact ⟨sorts.perm.filter _, sorts.ordered.filter _⟩
  · rw [flowList_eq]
    exact flowsFrom_enters [] sorted
  · intro earlier flow later split
    exact congrArg Prod.fst ((flowList_totals sorted split).trans (partsOf_eq _))
  · intro earlier flow later split
    exact congrArg Prod.snd ((flowList_totals sorted split).trans (partsOf_eq _))

theorem amounts_nonneg (action : Action) (nonneg : ∀ flow ∈ flows, 0 ≤ flow.amount) : 0 ≤ amounts action flows := by
  apply List.sum_nonneg
  intro amount member
  obtain ⟨flow, listed, rfl⟩ := List.mem_map.mp member
  split
  · exact nonneg flow listed
  · exact le_refl 0

theorem exists_of_forall₂ {α β : Type} {related : α → β → Prop} {first : List α} {second : List β}
    (all : List.Forall₂ related first second) {b : β} (member : b ∈ second) : ∃ a ∈ first, related a b := by
  induction all with
  | nil => cases member
  | cons here _ ih =>
    rcases List.mem_cons.mp member with rfl | member
    · exact ⟨_, List.mem_cons_self, here⟩
    · obtain ⟨a, listed, there⟩ := ih member
      exact ⟨a, List.mem_cons_of_mem _ listed, there⟩

theorem IsLedger.amount_nonneg (ledger : IsLedger convert group flows)
    (nonneg : ∀ tokenTx ∈ group, 0 < tokenTx.amount → ∀ amount, convert tokenTx = some amount → 0 ≤ amount) :
    ∀ flow ∈ flows, 0 ≤ flow.amount := by
  intro flow member
  obtain ⟨transfers, sorts, all⟩ := ledger.entries
  have head := ledger.zero
  cases flows with
  | nil => cases member
  | cons first rest =>
    cases head
    rcases List.mem_cons.mp member with rfl | member
    · exact le_refl 0
    · obtain ⟨tokenTx, listed, enters⟩ := exists_of_forall₂ all member
      obtain ⟨inGroup, counts⟩ := List.mem_filter.mp (sorts.perm.mem_iff.mp listed)
      rw [counted, Bool.and_eq_true, decide_eq_true_eq] at counts
      exact nonneg tokenTx inGroup counts.1 flow.amount enters.amount

theorem IsLedger.monotone (ledger : IsLedger convert group flows)
    (nonneg : ∀ tokenTx ∈ group, 0 < tokenTx.amount → ∀ amount, convert tokenTx = some amount → 0 ≤ amount) :
    flows.Pairwise fun first second =>
      first.totalDeposit ≤ second.totalDeposit ∧ first.totalWithdraw ≤ second.totalWithdraw := by
  have amountNonneg := ledger.amount_nonneg nonneg
  have totals (i : Nat) (bound : i < flows.length) :
      flows[i].totalDeposit = amounts .deposit (flows.take (i + 1)) ∧
        flows[i].totalWithdraw = amounts .withdraw (flows.take (i + 1)) := by
    have split : flows = flows.take i ++ flows[i] :: flows.drop (i + 1) := by
      rw [← List.drop_eq_getElem_cons bound, List.take_append_drop]
    rw [List.take_succ_eq_append_getElem bound]
    exact ⟨ledger.totalDeposit _ _ _ split, ledger.totalWithdraw _ _ _ split⟩
  rw [List.pairwise_iff_getElem]
  intro i j first second less
  have grows (action : Action) : amounts action (flows.take (i + 1)) ≤ amounts action (flows.take (j + 1)) := by
    have longer : flows.take (j + 1) = flows.take (i + 1) ++ (flows.drop (i + 1)).take (j - i) := by
      rw [show j + 1 = i + 1 + (j - i) by omega, List.take_add]
    have rest : 0 ≤ amounts action ((flows.drop (i + 1)).take (j - i)) := by
      apply amounts_nonneg
      intro flow member
      exact amountNonneg flow (List.mem_of_mem_drop (List.mem_of_mem_take member))
    rw [longer, amounts_append]
    exact le_add_of_nonneg_right rest
  rw [(totals i first).1, (totals i first).2, (totals j second).1, (totals j second).2]
  exact ⟨grows .deposit, grows .withdraw⟩

end Entries

namespace TxExtractor

variable (x : TxExtractor)

def pegged (xToken : Address) (order : List Address) : List Address :=
  order.filter fun tokenAddress => (x.stableTokenMap.lookup tokenAddress).any fun stable => stable.xToken = xToken

def transfersIn (tokenTxMap : TokenTxMap) (tokens : List Address) : List TokenTx :=
  tokens.flatMap fun tokenAddress => tokenTxMap.getD tokenAddress []

section Lookups

variable {Entry : Type} (loops : Loops Entry) (sort : List TokenTx → List TokenTx) (tokenTxMap : TokenTxMap)
  (order : List Address)

theorem lookup_tokenFlows (key : Address) : (x.tokenFlows loops sort tokenTxMap order).lookup key =
    if key ∈ order ∧ x.hasFlow key = true then some (loops.token (sort (tokenTxMap.getD key []))) else none := by
  have along (order : List Address) (flows : Map Address (List Entry)) :
      (order.foldl (fun flows tokenAddress => if x.hasFlow tokenAddress then
        flows.set tokenAddress (loops.token (sort (tokenTxMap.getD tokenAddress [])))
        else flows) flows).lookup key =
      if key ∈ order ∧ x.hasFlow key = true then some (loops.token (sort (tokenTxMap.getD key [])))
      else flows.lookup key := by
    induction order generalizing flows with
    | nil => simp
    | cons token rest ih =>
      rw [List.foldl_cons, ih]
      by_cases same : key = token
      · subst same
        by_cases flowing : x.hasFlow key = true
        · simp [flowing]
        · simp [flowing]
      · by_cases flowing : x.hasFlow token = true
        · simp [flowing, same, Map.lookup_set_of_ne]
        · simp [flowing, same]
  exact along order .empty

theorem lookup_stableTokenListMap (xToken : Address) : (x.stableTokenListMap tokenTxMap order).lookup xToken =
    if x.pegged xToken order = [] then none else some (transfersIn tokenTxMap (x.pegged xToken order)) := by
  have along (order : List Address) (lists : Map Address (List TokenTx)) :
      (order.foldl (fun lists tokenAddress => (x.stableTokenMap.lookup tokenAddress).elim lists fun stable =>
        lists.upsert stable.xToken fun list => list.getD [] ++ tokenTxMap.getD tokenAddress []) lists).lookup xToken =
      if x.pegged xToken order = [] then lists.lookup xToken
      else some ((lists.lookup xToken).getD [] ++ transfersIn tokenTxMap (x.pegged xToken order)) := by
    induction order generalizing lists with
    | nil => simp [pegged]
    | cons token rest ih =>
      rw [List.foldl_cons, ih]
      have head : x.pegged xToken (token :: rest) =
          if (x.stableTokenMap.lookup token).any fun stable => stable.xToken = xToken then
            token :: x.pegged xToken rest
          else x.pegged xToken rest := List.filter_cons
      cases found : x.stableTokenMap.lookup token with
      | none => simp [head, found]
      | some stable =>
        by_cases same : stable.xToken = xToken
        · rw [head, found, Option.elim_some, Map.lookup_upsert]
          by_cases last : x.pegged xToken rest = []
          · simp [same, last, transfersIn]
          · simp [same, last, transfersIn]
        · rw [head, found, Option.elim_some, Map.lookup_upsert, if_neg (Ne.symm same)]
          simp [same]
  rw [show (none : Option (List TokenTx)) = Map.empty.lookup xToken from rfl]
  refine Eq.trans ?_ (along order .empty)
  rw [stableTokenListMap]
  congr 2
  funext lists tokenAddress
  cases x.stableTokenMap.lookup tokenAddress <;> rfl

theorem lookup_loopFlows (key : Address) : (x.loopFlows loops sort tokenTxMap order).lookup key =
    if key = 4 then some (loops.merged (sort (transfersIn tokenTxMap order)))
    else if x.pegged key order = [] then
      if key ∈ order ∧ x.hasFlow key = true then some (loops.token (sort (tokenTxMap.getD key []))) else none
    else some (loops.stable (sort (transfersIn tokenTxMap (x.pegged key order)))) := by
  have found := x.lookup_stableTokenListMap tokenTxMap order key
  rw [loopFlows]
  by_cases merged : key = 4
  · rw [if_pos merged, merged, Map.lookup_set_self]
    rfl
  · rw [if_neg merged, Map.lookup_set_of_ne _ _ merged, Map.lookup_overwrite]
    by_cases none : x.pegged key order = []
    · rw [if_pos none] at found
      rw [if_neg ((Map.not_mem_keys _ _).mpr found), if_pos none, lookup_tokenFlows]
    · rw [if_neg none] at found
      rw [if_pos ((Map.mem_keys_iff _ _).mpr ⟨_, found⟩), if_neg none, found]
      rfl

theorem lookup_userFlow_merged : (x.userFlow sort tokenTxMap order).lookup 4 =
    some (flowList x.mergedAmount (sort (mergedTokenTxList tokenTxMap order))) :=
  Map.lookup_set_self _ _ _

theorem lookup_userFlow {key : Address} (other : key ≠ 4) : (x.userFlow sort tokenTxMap order).lookup key =
    if x.pegged key order = [] then
      if key ∈ order ∧ x.hasFlow key = true then some (flowList amountOf (sort (tokenTxMap.getD key []))) else none
    else some (flowList x.stableAmount (sort (transfersIn tokenTxMap (x.pegged key order)))) := by
  rw [userFlow, lookup_loopFlows, if_neg other]
  rfl

variable {x loops sort tokenTxMap order} in
theorem of_lookup_loopFlows {key : Address} {flows : List Entry}
    (found : (x.loopFlows loops sort tokenTxMap order).lookup key = some flows) :
    ∃ loop ∈ [loops.token, loops.stable, loops.merged], ∃ tokens,
      flows = loop (sort (transfersIn tokenTxMap tokens)) := by
  rw [lookup_loopFlows] at found
  split_ifs at found
  · exact ⟨loops.merged, by simp, order, (Option.some.inj found).symm⟩
  · refine ⟨loops.token, by simp, [key], (Option.some.inj found).symm.trans ?_⟩
    rw [transfersIn, List.flatMap_singleton]
  · exact ⟨loops.stable, by simp, _, (Option.some.inj found).symm⟩

theorem lookup_userFlow_flowList {key : Address} {flows : List TokenFlow}
    (found : (x.userFlow sort tokenTxMap order).lookup key = some flows) :
    ∃ convert tokens, flows = flowList convert (sort (transfersIn tokenTxMap tokens)) := by
  obtain ⟨loop, listed, tokens, rfl⟩ := of_lookup_loopFlows found
  simp only [exactLoops, List.mem_cons, List.not_mem_nil, or_false] at listed
  rcases listed with rfl | rfl | rfl
  all_goals exact ⟨_, tokens, rfl⟩

end Lookups

def price (tokenAddress : Address) (blockNumber : Int) : Option ℚ :=
  (x.tokenSwapMap.lookup tokenAddress).bind fun swap => swap.rateMap.lookup (BitVec.ofInt 64 blockNumber / 500 * 500)

theorem swapRate_eq (tokenAddress : Address) (blockNumber : Int) :
    x.swapRate tokenAddress blockNumber = (x.price tokenAddress blockNumber).getD 0 := rfl

def reference (tokenAddress : Address) (stable : StableToken) : Address :=
  if stable.xToken = 1 then weth else if stable.xToken = 3 then wbtc else tokenAddress

def mergedRate (tokenAddress : Address) (blockNumber : Int) : Option ℚ :=
  match x.stableTokenMap.lookup tokenAddress with
  | some stable =>
    if stable.xToken = 2 then some stable.rate
    else some (x.swapRate (reference tokenAddress stable) blockNumber)
  | none =>
    if (x.tokenSwapMap.lookup tokenAddress).isSome then some (x.swapRate tokenAddress blockNumber) else none

theorem mergedAmount_eq (tokenTx : TokenTx) : x.mergedAmount tokenTx =
    (x.mergedRate tokenTx.tokenAddress tokenTx.blockNumber).map fun rate : ℚ => (tokenTx.amount : ℚ) * rate := by
  simp only [mergedAmount, mergedRate]
  cases x.stableTokenMap.lookup tokenTx.tokenAddress with
  | none =>
    simp only
    split
    · rfl
    · rfl
  | some stable =>
    simp only
    split
    · rfl
    · rfl

structure NonnegRates : Prop where
  stable : ∀ {tokenAddress stable}, x.stableTokenMap.lookup tokenAddress = some stable → 0 ≤ stable.rate
  swap : ∀ {tokenAddress swap}, x.tokenSwapMap.lookup tokenAddress = some swap →
    ∀ {block rate}, swap.rateMap.lookup block = some rate → 0 ≤ rate

variable {x}

theorem NonnegRates.swapRate (rates : x.NonnegRates) (tokenAddress : Address) (blockNumber : Int) :
    0 ≤ x.swapRate tokenAddress blockNumber := by
  rw [swapRate_eq]
  cases priced : x.price tokenAddress blockNumber with
  | none => exact le_refl 0
  | some rate =>
    obtain ⟨swap, found, listed⟩ := Option.bind_eq_some_iff.mp priced
    exact rates.swap found listed

theorem NonnegRates.mergedRate (rates : x.NonnegRates) {tokenAddress : Address} {blockNumber : Int} {rate : ℚ}
    (found : x.mergedRate tokenAddress blockNumber = some rate) : 0 ≤ rate := by
  unfold TxExtractor.mergedRate at found
  split at found
  · rename_i stable listed
    split at found
    · cases found
      exact_mod_cast rates.stable listed
    · cases found
      exact rates.swapRate _ _
  · split at found
    · cases found
      exact rates.swapRate _ _
    · cases found

theorem NonnegRates.amountOf (positive : 0 < tokenTx.amount) {amount : ℚ}
    (converted : TxExtractor.amountOf tokenTx = some amount) : 0 ≤ amount := by
  cases converted
  exact_mod_cast positive.le

theorem NonnegRates.stableAmount (rates : x.NonnegRates) (positive : 0 < tokenTx.amount) {amount : ℚ}
    (converted : x.stableAmount tokenTx = some amount) : 0 ≤ amount := by
  cases converted
  apply mul_nonneg
  · exact_mod_cast positive.le
  · cases found : x.stableTokenMap.lookup tokenTx.tokenAddress with
    | none => exact le_refl 0
    | some stable => exact_mod_cast rates.stable found

theorem NonnegRates.mergedAmount (rates : x.NonnegRates) (positive : 0 < tokenTx.amount) {amount : ℚ}
    (converted : x.mergedAmount tokenTx = some amount) : 0 ≤ amount := by
  rw [mergedAmount_eq] at converted
  obtain ⟨rate, found, rfl⟩ := Option.map_eq_some_iff.mp converted
  apply mul_nonneg
  · exact_mod_cast positive.le
  · exact rates.mergedRate found

variable (x)

/-- A ledger whose totals do not decrease if no rate is negative. -/
def HasLedger (convert : TokenTx → Option ℚ) (group : List TokenTx) (flows : List TokenFlow) : Prop :=
  IsLedger convert group flows ∧ (x.NonnegRates → flows.Pairwise fun first second =>
    first.totalDeposit ≤ second.totalDeposit ∧ first.totalWithdraw ≤ second.totalWithdraw)

/-- Every list that `GenerateUserFlow` builds is a ledger: one for each token that has one, for each X token and for
    all tokens together. -/
theorem generateUserFlow_ledgers (sort : List TokenTx → List TokenTx) (order : Address → List Address) (user : Address)
    (tokenTxMap : TokenTxMap) (sorts : ∀ list, Sorted TokenTx.less list (sort list))
    (found : x.userTokenTxMap.lookup user = some tokenTxMap) (enumerates : Map.Enumerates (order user) tokenTxMap)
    (unreserved : ∀ tokenAddress ∈ tokenTxMap.keys, tokenAddress ∉ ([1, 2, 3, 4] : List Address))
    (pegs : ∀ tokenAddress stable, x.stableTokenMap.lookup tokenAddress = some stable →
      stable.xToken ∈ ([1, 2, 3] : List Address)) :
    ∃ tokenFlowMap, (x.generateUserFlow sort order).lookup user = some tokenFlowMap ∧
      (∀ tokenAddress ∈ tokenTxMap.keys, x.hasFlow tokenAddress = true → ∃ flows,
        tokenFlowMap.lookup tokenAddress = some flows ∧
        x.HasLedger amountOf (tokenTxMap.getD tokenAddress []) flows) ∧
      (∀ xToken ∈ ([1, 2, 3] : List Address), x.pegged xToken (order user) ≠ [] → ∃ flows,
        tokenFlowMap.lookup xToken = some flows ∧
        x.HasLedger x.stableAmount (transfersIn tokenTxMap (x.pegged xToken (order user))) flows) ∧
      (∃ flows, tokenFlowMap.lookup 4 = some flows ∧
        x.HasLedger x.mergedAmount (transfersIn tokenTxMap (order user)) flows) ∧
      ∀ key ∈ tokenFlowMap.keys, key ∈ tokenTxMap.keys ∧ x.hasFlow key = true ∨
        key ∈ ([1, 2, 3] : List Address) ∧ x.pegged key (order user) ≠ [] ∨ key = 4 := by
  have ledger (convert : TokenTx → Option ℚ) (group : List TokenTx)
      (nonneg : x.NonnegRates → ∀ tokenTx, 0 < tokenTx.amount → ∀ {amount},
        convert tokenTx = some amount → 0 ≤ amount) :
      x.HasLedger convert group (flowList convert (sort group)) := by
    have isLedger : IsLedger convert group (flowList convert (sort group)) := isLedger_flowList (sorts group)
    refine ⟨isLedger, ?_⟩
    intro rates
    exact isLedger.monotone fun tokenTx _ positive amount => nonneg rates tokenTx positive
  refine ⟨x.userFlow sort tokenTxMap (order user), ?_, ?_, ?_, ?_, ?_⟩
  · rw [generateUserFlow, Map.lookup_mapValues, found]
    rfl
  · intro tokenAddress listed flowing
    have plain := unreserved tokenAddress listed
    have unpegged : x.pegged tokenAddress (order user) = [] := by
      apply List.filter_eq_nil_iff.mpr
      intro token _ pegged
      obtain ⟨stable, held, same⟩ := (Option.any_eq_true _ _).mp pegged
      have peg := pegs token stable held
      rw [of_decide_eq_true same] at peg
      exact plain (List.mem_of_mem_dropLast peg)
    have here : (x.userFlow sort tokenTxMap (order user)).lookup tokenAddress =
        some (flowList amountOf (sort (tokenTxMap.getD tokenAddress []))) := by
      rw [lookup_userFlow x sort tokenTxMap (order user) (fun four => plain (by simp [four])), if_pos unpegged,
        if_pos ⟨(enumerates.mem_iff tokenAddress).mpr listed, flowing⟩]
    exact ⟨_, here, ledger amountOf _ fun _ _ positive _ => NonnegRates.amountOf positive⟩
  · intro xToken reserved pegged
    have here : (x.userFlow sort tokenTxMap (order user)).lookup xToken =
        some (flowList x.stableAmount (sort (transfersIn tokenTxMap (x.pegged xToken (order user))))) := by
      rw [lookup_userFlow x sort tokenTxMap (order user)
        (fun four => absurd reserved (by rw [four]; decide)), if_neg pegged]
    exact ⟨_, here, ledger x.stableAmount _ fun rates _ positive _ => rates.stableAmount positive⟩
  · exact ⟨_, lookup_userFlow_merged x sort tokenTxMap (order user),
      ledger x.mergedAmount _ fun rates _ positive _ => rates.mergedAmount positive⟩
  · intro key listed
    by_cases four : key = 4
    · exact .inr (.inr four)
    obtain ⟨flows, here⟩ := (Map.mem_keys_iff _ _).mp listed
    rw [lookup_userFlow x sort tokenTxMap (order user) four] at here
    by_cases unpegged : x.pegged key (order user) = []
    · rw [if_pos unpegged] at here
      split at here
      · rename_i both
        exact .inl ⟨(enumerates.mem_iff key).mp both.1, both.2⟩
      · cases here
    · refine .inr (.inl ⟨?_, unpegged⟩)
      obtain ⟨token, member⟩ := List.exists_mem_of_ne_nil _ unpegged
      obtain ⟨stable, held, same⟩ := (Option.any_eq_true _ _).mp (List.mem_filter.mp member).2
      rw [← of_decide_eq_true same]
      exact pegs token stable held

def mixedTransfers : TokenTxMap :=
  ((Map.empty.set 0xa0 [⟨502, 1, 3, 0x50, 0x10, 8, 0xa0, .withdraw⟩, ⟨501, 0, 2, 0x10, 0x50, 5, 0xa0, .deposit⟩]).set
    0xb0 [⟨503, 0, 0, 0x10, 0x50, 4, 0xb0, .deposit⟩, ⟨503, 0, 1, 0x10, 0x50, 0, 0xb0, .deposit⟩]).set
    0xc0 [⟨502, 1, 1, 0x50, 0x10, 6, 0xc0, .withdraw⟩]

def mixedTokens : TxExtractor where
  proxyABI := {0x50}
  userTokenTxMap := Map.empty.set 0x10 mixedTransfers
  stableTokenMap := Map.empty.set 0xa0 ⟨6, 2, 1⟩
  tokenSwapMap := Map.empty.set 0xb0 ⟨Map.empty.set 500 2⟩

theorem mixedTokens_pegs (tokenAddress : Address) (stable : StableToken)
    (found : mixedTokens.stableTokenMap.lookup tokenAddress = some stable) :
    stable.xToken ∈ ([1, 2, 3] : List Address) := by
  obtain ⟨-, rfl⟩ := Map.of_lookup_single found
  decide

def mixedOrder (_ : Address) : List Address := [0xc0, 0xa0, 0xb0]

theorem mixedOrder_enumerates (user : Address) : Map.Enumerates (mixedOrder user) mixedTransfers where
  nodup := by
    rw [mixedOrder]
    decide
  mem_iff := by
    intro tokenAddress
    simp only [mixedOrder, mixedTransfers, Map.keys_set, Map.keys_empty, Finset.mem_insert, Finset.notMem_empty,
      List.mem_cons, List.not_mem_nil, or_false]
    tauto

theorem generateUserFlow_ledgers_mixed : ∃ tokenFlowMap,
    (mixedTokens.generateUserFlow (stableSort TokenTx.less) mixedOrder).lookup 0x10 = some tokenFlowMap ∧
    (∃ flows, tokenFlowMap.lookup 0xa0 = some flows ∧
      mixedTokens.HasLedger amountOf (mixedTransfers.getD 0xa0 []) flows) ∧
    (∃ flows, tokenFlowMap.lookup 2 = some flows ∧ mixedTokens.HasLedger mixedTokens.stableAmount
      (transfersIn mixedTransfers (mixedTokens.pegged 2 (mixedOrder 0x10))) flows) ∧
    ∃ flows, tokenFlowMap.lookup 4 = some flows ∧
      mixedTokens.HasLedger mixedTokens.mergedAmount (transfersIn mixedTransfers (mixedOrder 0x10)) flows := by
  have unreserved : ∀ tokenAddress ∈ mixedTransfers.keys, tokenAddress ∉ ([1, 2, 3, 4] : List Address) := by
    intro tokenAddress listed
    rw [← (mixedOrder_enumerates 0x10).mem_iff] at listed
    rcases List.mem_cons.mp listed with rfl | listed
    · decide
    · rcases List.mem_pair.mp listed with rfl | rfl
      · decide
      · decide
  have stable : (0xa0 : Address) ∈ mixedTransfers.keys := by
    rw [← (mixedOrder_enumerates 0x10).mem_iff]
    decide
  obtain ⟨tokenFlowMap, found, tokens, xTokens, merged, -⟩ := generateUserFlow_ledgers mixedTokens
    (stableSort TokenTx.less) mixedOrder 0x10 mixedTransfers TokenTx.less_weakOrder.stableSort_sorted
    (Map.lookup_set_self _ _ _) (mixedOrder_enumerates 0x10) unreserved mixedTokens_pegs
  exact ⟨tokenFlowMap, found, tokens 0xa0 stable rfl, xTokens 2 (by decide) (by decide), merged⟩

end TxExtractor

end IDWDetector.Hunter
