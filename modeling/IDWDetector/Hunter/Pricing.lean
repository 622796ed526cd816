import IDWDetector.Hunter.Ledgers
import Mathlib.Algebra.Module.Prod
import Mathlib.Tactic.Linarith

namespace IDWDetector.Hunter

open Go

variable {tokenTx : TokenTx}

namespace TxExtractor

variable (x : TxExtractor)

def supported (tokenAddress : Address) : Bool :=
  (x.stableTokenMap.lookup tokenAddress).isSome || (x.tokenSwapMap.lookup tokenAddress).isSome

theorem mergedAmount_isNone (tokenTx : TokenTx) :
    (x.mergedAmount tokenTx).isNone = !x.supported tokenTx.tokenAddress := by
  rw [mergedAmount_eq, Option.isNone_map, mergedRate, supported]
  cases x.stableTokenMap.lookup tokenTx.tokenAddress with
  | some stable =>
    simp only
    split
    · rfl
    · rfl
  | none =>
    cases x.tokenSwapMap.lookup tokenTx.tokenAddress with
    | some swap => rfl
    | none => rfl

section Unsupported

variable (sort : List TokenTx → List TokenTx) (order : Address → List Address) (users : List Address)

def allTransfers : List TokenTx :=
  users.flatMap fun user => mergedTokenTxList (x.userTokenTxMap.getD user .empty) (order user)

def ofToken (tokenAddress : Address) (tokenTx : TokenTx) : Bool :=
  decide (tokenTx.tokenAddress = tokenAddress) && decide (0 < tokenTx.amount)

theorem getD_countUnsupported (tokenAddress : Address) (counts : Map Address Int) (tokenTx : TokenTx) :
    (x.countUnsupported counts tokenTx).getD tokenAddress 0 =
      counts.getD tokenAddress 0 + if ofToken tokenAddress tokenTx && !x.supported tokenAddress then 1 else 0 := by
  unfold countUnsupported
  rw [mergedAmount_isNone]
  by_cases same : tokenAddress = tokenTx.tokenAddress
  · subst same
    by_cases positive : 0 < tokenTx.amount
    · cases x.supported tokenTx.tokenAddress with
      | true => simp [ofToken, positive]
      | false => simp [ofToken, positive, Map.getD, Map.lookup_upsert]
    · simp [ofToken, positive]
  · have other : ofToken tokenAddress tokenTx = false := by
      simp [ofToken, Ne.symm same]
    rw [other]
    split
    · simp [Map.getD, Map.lookup_upsert, same]
    · simp

theorem getD_foldl_countUnsupported (tokenAddress : Address) (list : List TokenTx) (counts : Map Address Int) :
    (list.foldl x.countUnsupported counts).getD tokenAddress 0 =
      counts.getD tokenAddress 0 + if x.supported tokenAddress then 0 else
        (list.countP (ofToken tokenAddress) : Int) := by
  induction list generalizing counts with
  | nil => simp
  | cons tokenTx rest ih =>
    rw [List.foldl_cons, ih, getD_countUnsupported, List.countP_cons]
    cases x.supported tokenAddress with
    | true => simp
    | false =>
      cases ofToken tokenAddress tokenTx with
      | true => simp; ring
      | false => simp

theorem getD_unSupportToken (sorts : ∀ list, Sorted TokenTx.less list (sort list)) (tokenAddress : Address) :
    (x.unSupportToken sort order users).getD tokenAddress 0 =
      if x.supported tokenAddress then 0 else ((x.allTransfers order users).countP (ofToken tokenAddress) : Int) := by
  have along (counts : Map Address Int) : (users.foldl (fun counts user =>
      (sort (mergedTokenTxList (x.userTokenTxMap.getD user .empty) (order user))).foldl x.countUnsupported counts)
        counts).getD tokenAddress 0 = counts.getD tokenAddress 0 +
      if x.supported tokenAddress then 0 else ((x.allTransfers order users).countP (ofToken tokenAddress) : Int) := by
    induction users generalizing counts with
    | nil => simp [allTransfers]
    | cons user rest ih =>
      rw [List.foldl_cons, ih, getD_foldl_countUnsupported, (sorts _).perm.countP_eq, allTransfers, allTransfers,
        List.flatMap_cons, List.countP_append]
      cases x.supported tokenAddress with
      | true => simp
      | false => simp; ring
  have whole := along .empty
  rw [show (Map.empty : Map Address Int).getD tokenAddress 0 = 0 from rfl, zero_add] at whole
  exact whole

def CountedUnsupported (tokenTx : TokenTx) : Prop :=
  (x.unSupportToken sort order users).getD tokenTx.tokenAddress 0 =
    (x.allTransfers order users).countP (ofToken tokenTx.tokenAddress)

/-- The transfer has a flow in the merged ledger of the user, and its amount is positive. -/
def AddsFlow (user : Address) (tokenTx : TokenTx) : Prop :=
  ∃ tokenFlowMap flows flow, (x.generateUserFlow sort order).lookup user = some tokenFlowMap ∧
    tokenFlowMap.lookup 4 = some flows ∧ flow ∈ flows ∧ Enters x.mergedAmount tokenTx flow ∧ 0 < flow.amount

end Unsupported

/-- The token of a transfer is in neither table, or has a rate for its block: stable tokens of 0x2 have their own. -/
def priced (tokenTx : TokenTx) : Bool :=
  match x.stableTokenMap.lookup tokenTx.tokenAddress with
  | some stable =>
    if stable.xToken = 2 then decide (0 < stable.rate)
    else (x.price (reference tokenTx.tokenAddress stable) tokenTx.blockNumber).isSome
  | none =>
    (x.tokenSwapMap.lookup tokenTx.tokenAddress).isNone ||
      (x.price tokenTx.tokenAddress tokenTx.blockNumber).isSome

def PositivePrices : Prop :=
  ∀ {tokenAddress swap}, x.tokenSwapMap.lookup tokenAddress = some swap →
    ∀ {block rate}, swap.rateMap.lookup block = some rate → 0 < rate

variable {x}

theorem PositivePrices.swapRate_pos_iff (prices : x.PositivePrices) (tokenAddress : Address) (blockNumber : Int) :
    0 < x.swapRate tokenAddress blockNumber ↔ (x.price tokenAddress blockNumber).isSome = true := by
  rw [swapRate_eq]
  cases found : x.price tokenAddress blockNumber with
  | none => simp
  | some rate =>
    obtain ⟨swap, held, listed⟩ := Option.bind_eq_some_iff.mp found
    simpa using prices held listed

theorem PositivePrices.mergedRate_pos_iff (prices : x.PositivePrices) {rate : ℚ}
    (found : x.mergedRate tokenTx.tokenAddress tokenTx.blockNumber = some rate) :
    0 < rate ↔ x.priced tokenTx = true := by
  unfold mergedRate at found
  unfold priced
  cases held : x.stableTokenMap.lookup tokenTx.tokenAddress with
  | some stable =>
    simp only [held] at found ⊢
    split at found
    · rename_i dollar
      cases found
      simp [dollar]
    · rename_i other
      cases found
      rw [if_neg other]
      exact prices.swapRate_pos_iff _ _
  | none =>
    simp only [held] at found ⊢
    split at found
    · rename_i listed
      cases found
      rw [prices.swapRate_pos_iff, Option.isNone_eq_false_iff.mpr listed, Bool.false_or]
    · cases found

theorem priced_of_unsupported (unsupported : x.supported tokenTx.tokenAddress = false) : x.priced tokenTx = true := by
  obtain ⟨unstable, unlisted⟩ := Bool.or_eq_false_iff.mp unsupported
  rw [Option.isSome_eq_false_iff, Option.isNone_iff_eq_none] at unstable unlisted
  simp [priced, unstable, unlisted]

section Held

variable {sort : List TokenTx → List TokenTx} {order : Address → List Address} {users : List Address} {user : Address}
  {tokenTxMap : TokenTxMap}

theorem addsFlow_iff (sorts : ∀ list, Sorted TokenTx.less list (sort list))
    (found : x.userTokenTxMap.lookup user = some tokenTxMap)
    (member : tokenTx ∈ mergedTokenTxList tokenTxMap (order user)) (positive : 0 < tokenTx.amount) :
    x.AddsFlow sort order user tokenTx ↔
      ∃ rate, x.mergedRate tokenTx.tokenAddress tokenTx.blockNumber = some rate ∧ 0 < rate := by
  have amountPos : (0 : ℚ) < tokenTx.amount := by exact_mod_cast positive
  constructor
  · rintro ⟨-, -, flow, -, -, -, enters, flowPos⟩
    have converted := enters.amount
    rw [mergedAmount_eq] at converted
    obtain ⟨rate, rated, product⟩ := Option.map_eq_some_iff.mp converted
    rw [← product] at flowPos
    exact ⟨rate, rated, (mul_pos_iff_of_pos_left amountPos).mp flowPos⟩
  · rintro ⟨rate, rated, ratePos⟩
    have converted : x.mergedAmount tokenTx = some (tokenTx.amount * rate) := by
      rw [mergedAmount_eq, rated]
      rfl
    obtain ⟨before, after, split⟩ := List.append_of_mem ((sorts _).perm.mem_iff.mpr member)
    refine ⟨x.userFlow sort tokenTxMap (order user), _, flowAfter x.mergedAmount before tokenTx (tokenTx.amount * rate),
      ?_, lookup_userFlow_merged x sort tokenTxMap (order user), ?_, ⟨rfl, rfl, rfl, converted⟩,
        mul_pos amountPos ratePos⟩
    · rw [generateUserFlow, Map.lookup_mapValues, found]
      rfl
    · rw [split]
      exact flowAfter_mem_flowList x.mergedAmount positive converted

/-- Every transfer is either counted as unsupported or has a positive amount in the merged ledger, exactly if it is
    priced. -/
theorem valued_iff_priced (x : TxExtractor) (sort : List TokenTx → List TokenTx) (order : Address → List Address)
    (users : List Address) {user tokenAddress : Address} {tokenTxMap : TokenTxMap} {tokenTxList : List TokenTx}
    {tokenTx : TokenTx} (sorts : ∀ list, Sorted TokenTx.less list (sort list))
    (allUsers : Map.Enumerates users x.userTokenTxMap)
    (allTokens : ∀ user tokenTxMap, x.userTokenTxMap.lookup user = some tokenTxMap →
      Map.Enumerates (order user) tokenTxMap)
    (prices : x.PositivePrices) (found : x.userTokenTxMap.lookup user = some tokenTxMap)
    (held : tokenTxMap.lookup tokenAddress = some tokenTxList) (listed : tokenTx ∈ tokenTxList)
    (positive : 0 < tokenTx.amount) :
    x.CountedUnsupported sort order users tokenTx ∨ x.AddsFlow sort order user tokenTx ↔ x.priced tokenTx = true := by
  have member : tokenTx ∈ mergedTokenTxList tokenTxMap (order user) := by
    refine List.mem_flatMap.mpr ⟨tokenAddress, ?_, ?_⟩
    · rw [(allTokens user tokenTxMap found).mem_iff]
      exact (Map.mem_keys_iff _ _).mpr ⟨tokenTxList, held⟩
    · rw [Map.getD, held]
      exact listed
  rw [addsFlow_iff sorts found member positive, CountedUnsupported, getD_unSupportToken x sort order users sorts]
  cases supported : x.supported tokenTx.tokenAddress with
  | false =>
    have priced := priced_of_unsupported supported
    simp [priced]
  | true =>
    -- A supported token is not counted, though it has this transfer.
    have among : tokenTx ∈ x.allTransfers order users := by
      refine List.mem_flatMap.mpr ⟨user, ?_, ?_⟩
      · rw [allUsers.mem_iff]
        exact (Map.mem_keys_iff _ _).mpr ⟨tokenTxMap, found⟩
      · rw [Map.getD, found]
        exact member
    have counted : 0 < (x.allTransfers order users).countP (ofToken tokenTx.tokenAddress) := by
      rw [List.countP_pos_iff]
      exact ⟨tokenTx, among, by simp [ofToken, positive]⟩
    have rated : (x.mergedAmount tokenTx).isNone = false := by
      rw [mergedAmount_isNone, supported]
      rfl
    rw [mergedAmount_eq, Option.isNone_map, Option.isNone_eq_false_iff] at rated
    obtain ⟨rate, isRate⟩ := Option.isSome_iff_exists.mp rated
    rw [if_pos rfl, ← prices.mergedRate_pos_iff isRate, isRate]
    constructor
    · rintro (none | ⟨rate', same, ratePos⟩)
      · omega
      · cases same
        exact ratePos
    · intro ratePos
      exact .inr ⟨rate, rfl, ratePos⟩

end Held

/-- A deposit in a window of blocks for which its token has no price, though it has one before. -/
def laterDeposit : TokenTx := ⟨1200, 0, 0, 0x10, 0x50, 7, 0xb0, .deposit⟩

def laterTransfers : TokenTxMap := Map.empty.set 0xb0 [⟨501, 0, 0, 0x10, 0x50, 3, 0xb0, .deposit⟩, laterDeposit]

def laterTokens : TxExtractor where
  proxyABI := {0x50}
  userTokenTxMap := Map.empty.set 0x10 laterTransfers
  tokenSwapMap := Map.empty.set 0xb0 ⟨Map.empty.set 500 2⟩

theorem laterTokens_prices : laterTokens.PositivePrices := by
  intro tokenAddress swap found block rate listed
  obtain ⟨-, rfl⟩ := Map.of_lookup_single found
  obtain ⟨-, rfl⟩ := Map.of_lookup_single listed
  norm_num

/-- The deposit is neither counted as unsupported nor has it a positive flow. -/
theorem laterDeposit_lost : laterTokens.PositivePrices ∧ 0 < laterDeposit.amount ∧
    ¬(laterTokens.CountedUnsupported (stableSort TokenTx.less) (fun _ => [0xb0]) [0x10] laterDeposit ∨
      laterTokens.AddsFlow (stableSort TokenTx.less) (fun _ => [0xb0]) 0x10 laterDeposit) := by
  refine ⟨laterTokens_prices, by decide, ?_⟩
  have sorts := TokenTx.less_weakOrder.stableSort_sorted
  rw [addsFlow_iff sorts (Map.lookup_set_self _ 0x10 laterTransfers) (by decide) (by decide), CountedUnsupported,
    getD_unSupportToken _ _ _ _ sorts]
  rintro (counted | ⟨rate, found, ratePos⟩)
  · revert counted
    decide
  · have zero : laterTokens.mergedRate laterDeposit.tokenAddress laterDeposit.blockNumber = some 0 := rfl
    rw [zero] at found
    cases found
    exact lt_irrefl 0 ratePos

theorem valued_iff_priced_earlier :
    laterTokens.CountedUnsupported (stableSort TokenTx.less) (fun _ => [0xb0]) [0x10]
        ⟨501, 0, 0, 0x10, 0x50, 3, 0xb0, .deposit⟩ ∨
      laterTokens.AddsFlow (stableSort TokenTx.less) (fun _ => [0xb0]) 0x10
        ⟨501, 0, 0, 0x10, 0x50, 3, 0xb0, .deposit⟩ := by
  have allTokens (user : Address) (tokenTxMap : TokenTxMap) (found : laterTokens.userTokenTxMap.lookup user =
      some tokenTxMap) : Map.Enumerates [0xb0] tokenTxMap := by
    change (Map.empty.set _ _).lookup user = some tokenTxMap at found
    rw [Map.lookup_set] at found
    split at found
    · cases found
      exact Map.enumerates_single 0xb0 _
    · cases found
  exact (valued_iff_priced laterTokens (stableSort TokenTx.less) (fun _ => [0xb0]) [0x10]
    TokenTx.less_weakOrder.stableSort_sorted (Map.enumerates_single 0x10 _) allTokens laterTokens_prices
    (Map.lookup_set_self _ 0x10 laterTransfers) (Map.lookup_set_self _ 0xb0 _) List.mem_cons_self
    (by decide)).mpr rfl

end TxExtractor

section Proportional

/-- At every entry the totals of one list are one positive multiple of those of another, which the verdict does not
    see. -/
def Proportional (first second : List TokenFlow) : Prop :=
  ∃ factor : ℚ, 0 < factor ∧ List.Forall₂ (fun flow flow' => flow.totals = factor • flow'.totals ∧
    abnormal flow.totals = abnormal flow'.totals) first second

theorem abnormal_smul {factor : ℚ} (positive : 0 < factor) (totals : Totals) :
    abnormal (factor • totals) = abnormal totals := by
  have deposit : 0 < factor * totals.1 ↔ 0 < totals.1 := mul_pos_iff_of_pos_left positive
  have withdraw : 0 < factor * totals.2 ↔ 0 < totals.2 := mul_pos_iff_of_pos_left positive
  have zero : factor * totals.1 = 0 ↔ totals.1 = 0 := mul_eq_zero_iff_left positive.ne'
  have ratio : factor * totals.2 / (factor * totals.1) = totals.2 / totals.1 := mul_div_mul_left _ _ positive.ne'
  simp only [abnormal, Prod.smul_fst, Prod.smul_snd, smul_eq_mul, deposit, withdraw, zero, ratio]

theorem flowOf_of_counted {convert : TokenTx → Option ℚ} (before : List TokenTx)
    (counts : counted convert tokenTx = true) :
    ∃ flow, flowOf convert before tokenTx = some flow ∧ flow.totals = sharesOf convert (before ++ [tokenTx]) := by
  rw [counted, Bool.and_eq_true, decide_eq_true_eq] at counts
  obtain ⟨amount, converted⟩ := Option.isSome_iff_exists.mp counts.2
  exact ⟨_, flowOf_some convert counts.1 converted, rfl⟩

variable {first second : TokenTx → Option ℚ}

theorem flowsFrom_proportional (factor : ℚ) {list : List TokenTx}
    (both : ∀ tokenTx ∈ list, counted first tokenTx = counted second tokenTx) {before : List TokenTx}
    (start : sharesOf first before = factor • sharesOf second before) :
    List.Forall₂ (fun flow flow' => flow.totals = factor • flow'.totals) (flowsFrom first before list)
        (flowsFrom second before list) ↔
      ∀ tokenTx ∈ list, shareOf first tokenTx = factor • shareOf second tokenTx := by
  induction list generalizing before with
  | nil => simp [flowsFrom]
  | cons tokenTx rest ih =>
    have same := both tokenTx List.mem_cons_self
    have tail : ∀ tokenTx ∈ rest, counted first tokenTx = counted second tokenTx := by
      intro other member
      exact both other (List.mem_cons_of_mem _ member)
    have next : sharesOf first (before ++ [tokenTx]) = factor • sharesOf second (before ++ [tokenTx]) ↔
        shareOf first tokenTx = factor • shareOf second tokenTx := by
      rw [sharesOf_snoc, sharesOf_snoc, smul_add, start, add_right_inj]
    rw [List.forall_mem_cons, flowsFrom, flowsFrom]
    cases counts : counted first tokenTx with
    | false =>
      have none : flowOf first before tokenTx = .none := flowOf_eq_none.mpr counts
      have none' : flowOf second before tokenTx = .none := flowOf_eq_none.mpr (same ▸ counts)
      have nothing : shareOf first tokenTx = factor • shareOf second tokenTx := by
        rw [shareOf_uncounted counts, shareOf_uncounted (same ▸ counts), smul_zero]
      rw [none, none', Option.toList_none, List.nil_append, List.nil_append, ih tail (next.mpr nothing)]
      exact ⟨fun all => ⟨nothing, all⟩, And.right⟩
    | true =>
      obtain ⟨flow, found, totals⟩ := flowOf_of_counted before counts
      obtain ⟨flow', found', totals'⟩ := flowOf_of_counted before (same ▸ counts)
      rw [found, found', Option.toList_some, Option.toList_some, List.singleton_append, List.singleton_append,
        List.forall₂_cons, totals, totals', next]
      constructor
      · rintro ⟨here, later⟩
        exact ⟨here, (ih tail (next.mpr here)).mp later⟩
      · rintro ⟨here, later⟩
        exact ⟨here, (ih tail (next.mpr here)).mpr later⟩

theorem flowList_proportional {list : List TokenTx}
    (both : ∀ tokenTx ∈ list, counted first tokenTx = counted second tokenTx) :
    Proportional (flowList first list) (flowList second list) ↔
      ∃ factor : ℚ, 0 < factor ∧ ∀ tokenTx ∈ list, shareOf first tokenTx = factor • shareOf second tokenTx := by
  apply exists_congr
  intro factor
  apply and_congr_right
  intro positive
  have verdict : List.Forall₂ (fun flow flow' => flow.totals = factor • flow'.totals ∧
        abnormal flow.totals = abnormal flow'.totals) (flowList first list) (flowList second list) ↔
      List.Forall₂ (fun flow flow' => flow.totals = factor • flow'.totals) (flowList first list)
        (flowList second list) := by
    constructor
    · intro all
      exact all.imp fun _ _ => And.left
    · intro all
      refine all.imp fun flow flow' same => ⟨same, ?_⟩
      rw [same, abnormal_smul positive]
  have zero : TokenFlow.zero.totals = factor • TokenFlow.zero.totals := by
    simp [TokenFlow.totals, TokenFlow.zero]
  rw [verdict, flowList_eq, flowList_eq, List.forall₂_cons, and_iff_right zero]
  exact flowsFrom_proportional factor both (smul_zero factor).symm

theorem shareOf_smul_iff {amount amount' factor : ℚ} (found : first tokenTx = some amount)
    (found' : second tokenTx = some amount') : shareOf first tokenTx = factor • shareOf second tokenTx ↔
      (0 < tokenTx.amount → tokenTx.action ≠ .none → amount = factor * amount') := by
  by_cases positive : 0 < tokenTx.amount
  · cases action : tokenTx.action with
    | none => simp [shareOf, share, action]
    | deposit => simp [shareOf, share, action, positive, found, found']
    | withdraw => simp [shareOf, share, action, positive, found, found']
  · simp [shareOf, share, positive]

end Proportional

namespace TxExtractor

variable (x : TxExtractor)

def stableRate (tokenAddress : Address) : ℚ := ((x.stableTokenMap.lookup tokenAddress).map StableToken.rate).getD 0

/-- All transfers of a user are in stable tokens of one X token. -/
structure OneXToken (tokenTxMap : TokenTxMap) (xToken : Address) : Prop where
  stable : ∀ {tokenAddress tokenTxList}, tokenTxMap.lookup tokenAddress = some tokenTxList →
    ∃ stable, x.stableTokenMap.lookup tokenAddress = some stable ∧ stable.xToken = xToken ∧
      0 ≤ stable.decimals ∧ stable.decimals ≤ 18
  own : ∀ {tokenAddress tokenTxList}, tokenTxMap.lookup tokenAddress = some tokenTxList →
    ∀ tokenTx ∈ tokenTxList, tokenTx.tokenAddress = tokenAddress

/-- All transfers of a user are in one window of blocks, in which a reference token has a price. -/
def OneWindow (tokenTxMap : TokenTxMap) (reference : Address) : Prop :=
  ∃ swap window price, x.tokenSwapMap.lookup reference = some swap ∧
    swap.rateMap.lookup window = some price ∧ 0 < price ∧
    ∀ {tokenAddress tokenTxList}, tokenTxMap.lookup tokenAddress = some tokenTxList →
      ∀ tokenTx ∈ tokenTxList, BitVec.ofInt 64 tokenTx.blockNumber / 500 * 500 = window

variable {x} {tokenTxMap : TokenTxMap} {xToken : Address} {order : List Address}

theorem mem_mergedTokenTxList_iff (enumerates : Map.Enumerates order tokenTxMap) (tokenTx : TokenTx) :
    tokenTx ∈ mergedTokenTxList tokenTxMap order ↔
      ∃ tokenAddress tokenTxList, tokenTxMap.lookup tokenAddress = some tokenTxList ∧ tokenTx ∈ tokenTxList := by
  rw [mergedTokenTxList, List.mem_flatMap]
  apply exists_congr
  intro tokenAddress
  rw [enumerates.mem_iff, Map.mem_keys_iff, Map.getD]
  constructor
  · rintro ⟨⟨tokenTxList, found⟩, member⟩
    rw [found] at member
    exact ⟨tokenTxList, found, member⟩
  · rintro ⟨tokenTxList, found, member⟩
    rw [found]
    exact ⟨⟨tokenTxList, rfl⟩, member⟩

section

variable (one : x.OneXToken tokenTxMap xToken)
include one

theorem OneXToken.pegged_eq (enumerates : Map.Enumerates order tokenTxMap) : x.pegged xToken order = order := by
  apply List.filter_eq_self.mpr
  intro tokenAddress listed
  rw [enumerates.mem_iff, Map.mem_keys_iff] at listed
  obtain ⟨tokenTxList, found⟩ := listed
  obtain ⟨stable, held, same, -⟩ := one.stable found
  simp [held, same]

theorem OneXToken.lookup_userFlow (enumerates : Map.Enumerates order tokenTxMap)
    (sort : List TokenTx → List TokenTx) (unmerged : xToken ≠ 4) {flows : List TokenFlow}
    (found : (x.userFlow sort tokenTxMap order).lookup xToken = some flows) :
    flows = flowList x.stableAmount (sort (mergedTokenTxList tokenTxMap order)) := by
  rw [TxExtractor.lookup_userFlow x sort tokenTxMap order unmerged, one.pegged_eq enumerates] at found
  split at found
  · rename_i empty
    rw [empty] at found
    simp at found
  · exact (Option.some.inj found).symm

theorem OneXToken.amounts {tokenAddress : Address} {tokenTxList : List TokenTx}
    (found : tokenTxMap.lookup tokenAddress = some tokenTxList) (member : tokenTx ∈ tokenTxList) :
    x.stableAmount tokenTx = some (tokenTx.amount * x.stableRate tokenAddress) ∧
      x.mergedAmount tokenTx = some (tokenTx.amount * if xToken = 2 then x.stableRate tokenAddress
        else x.swapRate (if xToken = 1 then weth else if xToken = 3 then wbtc else tokenAddress)
          tokenTx.blockNumber) := by
  have own := one.own found tokenTx member
  obtain ⟨stable, held, rfl, -⟩ := one.stable found
  constructor
  · rw [stableAmount, own, stableRate]
  · rw [mergedAmount_eq, own, mergedRate, held, stableRate, held]
    simp only [reference]
    split
    · rfl
    · rfl

end

theorem OneWindow.swapRate {reference : Address} (window : x.OneWindow tokenTxMap reference) :
    ∃ price, 0 < price ∧ ∀ {tokenAddress tokenTxList}, tokenTxMap.lookup tokenAddress = some tokenTxList →
      ∀ tokenTx ∈ tokenTxList, x.swapRate reference tokenTx.blockNumber = price := by
  obtain ⟨swap, block, price, listed, priced, positive, inside⟩ := window
  refine ⟨price, positive, ?_⟩
  intro tokenAddress tokenTxList found tokenTx member
  rw [swapRate_eq, TxExtractor.price, listed, Option.bind_some, inside found tokenTx member, priced]
  rfl

theorem OneXToken.shares_iff (one : x.OneXToken tokenTxMap xToken) {price : ℚ} (positive : 0 < price)
    (merged : ∀ {tokenAddress tokenTxList}, tokenTxMap.lookup tokenAddress = some tokenTxList →
      ∀ tokenTx ∈ tokenTxList, x.mergedAmount tokenTx = some (tokenTx.amount * price)) :
    (∃ factor : ℚ, 0 < factor ∧ ∀ tokenAddress tokenTxList, tokenTxMap.lookup tokenAddress = some tokenTxList →
      ∀ tokenTx ∈ tokenTxList, shareOf x.mergedAmount tokenTx = factor • shareOf x.stableAmount tokenTx) ↔
    ∃ rate : ℚ, 0 < rate ∧ ∀ tokenAddress tokenTxList, tokenTxMap.lookup tokenAddress = some tokenTxList →
      ∀ tokenTx ∈ tokenTxList, 0 < tokenTx.amount → tokenTx.action ≠ .none → x.stableRate tokenAddress = rate := by
  have cancel {amount rate factor : ℚ} (amountPos : 0 < amount) :
      amount * price = factor * (amount * rate) ↔ price = factor * rate := by
    rw [mul_left_comm, mul_right_inj' amountPos.ne']
  constructor
  · rintro ⟨factor, factorPos, proportional⟩
    refine ⟨price / factor, div_pos positive factorPos, ?_⟩
    intro tokenAddress tokenTxList found tokenTx member amountPos acting
    have share := proportional tokenAddress tokenTxList found tokenTx member
    rw [shareOf_smul_iff (merged found tokenTx member) (one.amounts found member).1] at share
    have equal := (cancel (by exact_mod_cast amountPos)).mp (share amountPos acting)
    rw [equal, mul_div_cancel_left₀ _ factorPos.ne']
  · rintro ⟨rate, ratePos, same⟩
    refine ⟨price / rate, div_pos positive ratePos, ?_⟩
    intro tokenAddress tokenTxList found tokenTx member
    rw [shareOf_smul_iff (merged found tokenTx member) (one.amounts found member).1]
    intro amountPos acting
    rw [cancel (by exact_mod_cast amountPos), same tokenAddress tokenTxList found tokenTx member amountPos acting,
      div_mul_cancel₀ _ ratePos.ne']

/-- The merged ledger and the one of the X token agree exactly if that is 0x2 or the tokens have one positive rate
    to it. -/
theorem merged_proportional_iff (x : TxExtractor) (sort : List TokenTx → List TokenTx) (order : Address → List Address)
    (user xToken : Address) (tokenTxMap : TokenTxMap) (tokenFlowMap : TokenFlowMap) (merged pegged : List TokenFlow)
    (sorts : ∀ list, Sorted TokenTx.less list (sort list)) (found : x.userTokenTxMap.lookup user = some tokenTxMap)
    (enumerates : Map.Enumerates (order user) tokenTxMap) (peg : xToken ∈ ([1, 2, 3] : List Address))
    (one : x.OneXToken tokenTxMap xToken)
    (windows : (xToken = 1 → x.OneWindow tokenTxMap weth) ∧ (xToken = 3 → x.OneWindow tokenTxMap wbtc))
    (generated : (x.generateUserFlow sort order).lookup user = some tokenFlowMap)
    (mergedFound : tokenFlowMap.lookup 4 = some merged) (peggedFound : tokenFlowMap.lookup xToken = some pegged) :
    Proportional merged pegged ↔ xToken = 2 ∨ ∃ rate : ℚ, 0 < rate ∧
      ∀ tokenAddress tokenTxList, tokenTxMap.lookup tokenAddress = some tokenTxList → ∀ tokenTx ∈ tokenTxList,
        0 < tokenTx.amount → tokenTx.action ≠ .none → x.stableRate tokenAddress = rate := by
  rw [generateUserFlow, Map.lookup_mapValues, found] at generated
  cases generated
  have unmerged : xToken ≠ 4 := by
    rintro rfl
    exact absurd peg (by decide)
  rw [lookup_userFlow_merged] at mergedFound
  cases mergedFound
  have same := one.lookup_userFlow enumerates sort unmerged peggedFound
  subst same
  have member (tokenTx : TokenTx) : tokenTx ∈ sort (mergedTokenTxList tokenTxMap (order user)) ↔
      ∃ tokenAddress tokenTxList, tokenTxMap.lookup tokenAddress = some tokenTxList ∧ tokenTx ∈ tokenTxList := by
    rw [(sorts _).perm.mem_iff, mem_mergedTokenTxList_iff enumerates]
  rw [flowList_proportional]
  swap
  · intro tokenTx listed
    obtain ⟨tokenAddress, tokenTxList, held, inside⟩ := (member tokenTx).mp listed
    obtain ⟨stable, merged⟩ := one.amounts held inside
    rw [counted, counted, stable, merged]
    rfl
  have everywhere (factor : ℚ) : (∀ tokenTx ∈ sort (mergedTokenTxList tokenTxMap (order user)),
        shareOf x.mergedAmount tokenTx = factor • shareOf x.stableAmount tokenTx) ↔
      ∀ tokenAddress tokenTxList, tokenTxMap.lookup tokenAddress = some tokenTxList → ∀ tokenTx ∈ tokenTxList,
        shareOf x.mergedAmount tokenTx = factor • shareOf x.stableAmount tokenTx := by
    constructor
    · intro all tokenAddress tokenTxList held tokenTx inside
      exact all tokenTx ((member tokenTx).mpr ⟨tokenAddress, tokenTxList, held, inside⟩)
    · intro all tokenTx listed
      obtain ⟨tokenAddress, tokenTxList, held, inside⟩ := (member tokenTx).mp listed
      exact all tokenAddress tokenTxList held tokenTx inside
  simp only [everywhere]
  simp only [List.mem_cons, List.not_mem_nil, or_false] at peg
  rcases peg with rfl | rfl | rfl
  · obtain ⟨price, positive, rates⟩ := (windows.1 rfl).swapRate
    rw [one.shares_iff positive, or_iff_right (by decide)]
    intro tokenAddress tokenTxList held tokenTx inside
    rw [(one.amounts held inside).2, ← rates held tokenTx inside]
    rfl
  · refine ⟨fun _ => .inl rfl, fun _ => ⟨1, one_pos, ?_⟩⟩
    intro tokenAddress tokenTxList held tokenTx inside
    obtain ⟨stable, merged⟩ := one.amounts held inside
    rw [shareOf_smul_iff merged stable]
    intro _ _
    rw [if_pos rfl, one_mul]
  · obtain ⟨price, positive, rates⟩ := (windows.2 rfl).swapRate
    rw [one.shares_iff positive, or_iff_right (by decide)]
    intro tokenAddress tokenTxList held tokenTx inside
    rw [(one.amounts held inside).2, ← rates held tokenTx inside]
    rfl

def hbtc : Address := 0x0316eb71485b0ab14103307bf65a021042c6d380

def coinTransfers : TokenTxMap :=
  (Map.empty.set wbtc [⟨501, 0, 0, 0x10, 0x50, 10 ^ 8, wbtc, .deposit⟩]).set hbtc
    [⟨502, 0, 0, 0x50, 0x10, 10 ^ 18, hbtc, .withdraw⟩]

def coins : TxExtractor where
  proxyABI := {0x50}
  userTokenTxMap := Map.empty.set 0x10 coinTransfers
  stableTokenMap := (Map.empty.set wbtc ⟨8, 3, 1⟩).set hbtc ⟨18, 3, 1⟩
  tokenSwapMap := Map.empty.set wbtc ⟨Map.empty.set 500 2⟩

theorem coinTransfers_cases {tokenAddress : Address} {tokenTxList : List TokenTx}
    (found : coinTransfers.lookup tokenAddress = some tokenTxList) :
    tokenAddress = hbtc ∧ tokenTxList = [⟨502, 0, 0, 0x50, 0x10, 10 ^ 18, hbtc, .withdraw⟩] ∨
      tokenAddress = wbtc ∧ tokenTxList = [⟨501, 0, 0, 0x10, 0x50, 10 ^ 8, wbtc, .deposit⟩] := by
  rcases Map.of_lookup_set found with ⟨rfl, rfl⟩ | found
  · exact .inl ⟨rfl, rfl⟩
  · exact .inr ((Map.of_lookup_single found).imp id Eq.symm)

theorem coins_oneXToken : coins.OneXToken coinTransfers 3 where
  stable := by
    intro tokenAddress tokenTxList found
    rcases coinTransfers_cases found with ⟨rfl, -⟩ | ⟨rfl, -⟩
    · exact ⟨⟨18, 3, 1⟩, rfl, rfl, by decide, by decide⟩
    · exact ⟨⟨8, 3, 1⟩, rfl, rfl, by decide, by decide⟩
  own := by
    intro tokenAddress tokenTxList found tokenTx member
    rcases coinTransfers_cases found with ⟨rfl, rfl⟩ | ⟨rfl, rfl⟩
    · rw [List.mem_singleton.mp member]
    · rw [List.mem_singleton.mp member]

theorem coins_oneWindow : coins.OneWindow coinTransfers wbtc := by
  refine ⟨_, 500, 2, rfl, rfl, by norm_num, ?_⟩
  intro tokenAddress tokenTxList found tokenTx member
  rcases coinTransfers_cases found with ⟨rfl, rfl⟩ | ⟨rfl, rfl⟩
  · rw [List.mem_singleton.mp member]
    rfl
  · rw [List.mem_singleton.mp member]
    rfl

/-- The merged ledger has withdrawn 10¹⁰ times what was deposited, and the one of 0x3 as much as was deposited. -/
theorem coins_not_proportional : coins.OneXToken coinTransfers 3 ∧ coins.OneWindow coinTransfers wbtc ∧
    ∃ tokenFlowMap merged pegged,
      (coins.generateUserFlow (stableSort TokenTx.less) fun _ => [wbtc, hbtc]).lookup 0x10 = some tokenFlowMap ∧
      tokenFlowMap.lookup 4 = some merged ∧ tokenFlowMap.lookup 3 = some pegged ∧ ¬Proportional merged pegged := by
  refine ⟨coins_oneXToken, coins_oneWindow, _, [.zero, ⟨501, 0, 2 * 10 ^ 8, .deposit, 2 * 10 ^ 8, 0⟩,
    ⟨502, 0, 2 * 10 ^ 18, .withdraw, 2 * 10 ^ 8, 2 * 10 ^ 18⟩], [.zero, ⟨501, 0, 10 ^ 18, .deposit, 10 ^ 18, 0⟩,
    ⟨502, 0, 10 ^ 18, .withdraw, 10 ^ 18, 10 ^ 18⟩], rfl, by decide +kernel, by decide +kernel, ?_⟩
  rintro ⟨factor, -, entries⟩
  obtain ⟨⟨deposited, -⟩, ⟨withdrawn, -⟩, -⟩ := (List.forall₂_cons.mp (List.forall₂_cons.mp entries).2).imp id
    List.forall₂_cons.mp
  have deposits := congrArg Prod.fst deposited
  have withdrawals := congrArg Prod.snd withdrawn
  simp only [TokenFlow.totals, Prod.smul_fst, Prod.smul_snd, smul_eq_mul] at deposits withdrawals
  linarith

def dollarTransfers : TokenTxMap := Map.empty.set 0xa0
  [⟨501, 0, 0, 0x10, 0x50, 5, 0xa0, .deposit⟩, ⟨502, 0, 0, 0x50, 0x10, 8, 0xa0, .withdraw⟩]

def dollars : TxExtractor where
  proxyABI := {0x50}
  userTokenTxMap := Map.empty.set 0x10 dollarTransfers
  stableTokenMap := Map.empty.set 0xa0 ⟨6, 2, 1⟩

theorem dollars_oneXToken : dollars.OneXToken dollarTransfers 2 where
  stable := by
    intro tokenAddress tokenTxList found
    obtain ⟨rfl, -⟩ := Map.of_lookup_single found
    exact ⟨_, Map.lookup_set_self _ _ _, rfl, by decide, by decide⟩
  own := by
    intro tokenAddress tokenTxList found tokenTx member
    obtain ⟨rfl, rfl⟩ := Map.of_lookup_single found
    rcases List.mem_pair.mp member with rfl | rfl
    · rfl
    · rfl

theorem merged_proportional_dollars : ∃ tokenFlowMap merged pegged,
    (dollars.generateUserFlow (stableSort TokenTx.less) fun _ => [0xa0]).lookup 0x10 = some tokenFlowMap ∧
      tokenFlowMap.lookup 4 = some merged ∧ tokenFlowMap.lookup 2 = some pegged ∧ Proportional merged pegged := by
  have generated : (dollars.generateUserFlow (stableSort TokenTx.less) fun _ => [0xa0]).lookup 0x10 =
      some (dollars.userFlow (stableSort TokenTx.less) dollarTransfers [0xa0]) := rfl
  have pegged : (dollars.userFlow (stableSort TokenTx.less) dollarTransfers [0xa0]).lookup 2 =
      some (flowList dollars.stableAmount (stableSort TokenTx.less (transfersIn dollarTransfers [0xa0]))) := by
    rw [lookup_userFlow _ _ _ _ (by decide)]
    rfl
  have merged := lookup_userFlow_merged dollars (stableSort TokenTx.less) dollarTransfers [0xa0]
  exact ⟨_, _, _, generated, merged, pegged, (merged_proportional_iff dollars (stableSort TokenTx.less)
    (fun _ => [0xa0]) 0x10 2 dollarTransfers _ _ _ TokenTx.less_weakOrder.stableSort_sorted
    (Map.lookup_set_self _ _ _) (Map.enumerates_single _ _) (by decide) dollars_oneXToken ⟨nofun, nofun⟩ generated
    merged pegged).mpr (.inl rfl)⟩

end TxExtractor

end IDWDetector.Hunter
