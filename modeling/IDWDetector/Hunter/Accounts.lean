import IDWDetector.Hunter.Distribution
import IDWDetector.Hunter.Merging
import IDWDetector.Hunter.Monotone
import Mathlib.Data.Finset.Max

namespace IDWDetector.Hunter

open Go

namespace TxExtractor

variable (x : TxExtractor)

def bagAfter : Map Address (Map Address (Multiset TokenTx)) := x.gains.foldl addToBag x.userTokenTxMap.bag

def linked : TxExtractor := { x with userRelatedMap := x.links.foldl relate x.userRelatedMap }

theorem extractActionInfoList_bag {x z : TxExtractor} {infoOrder : List Nat}
    (visits : Map.Enumerates infoOrder x.actionInfoList) (extracted : x.extractActionInfoList infoOrder = .ok z) :
    z.userTokenTxMap.bag = x.bagAfter ∧ z = { x.linked with
      userTokenTxMap := z.userTokenTxMap, relatedToken := z.relatedToken, flowMergeMode := z.flowMergeMode } := by
  obtain ⟨flows, relations, gained, linked, whole⟩ := extractActionInfoList_ok visits extracted
  rw [bagAfter, TxExtractor.linked, ← gained, ← linked, Multiset.coe_foldl, Multiset.coe_foldl, ← bag_foldl_append]
  rw [whole]
  exact ⟨rfl, rfl⟩

end TxExtractor

structure Account where
  convert : TokenTx → Option ℚ
  transfers : Multiset TokenTx

def Ledger.account (ledger : Ledger) : Account := ⟨ledger.convert, ledger.group⟩

namespace TxExtractor

variable (x : TxExtractor)

def peggedKeys (key : Address) (tokens : Finset Address) : Finset Address :=
  tokens.filter fun token => (x.stableTokenMap.lookup token).any (fun stable => stable.xToken = key) = true

def accountOf (tokens : Map Address (Multiset TokenTx)) (key : Address) : Option Account :=
  if key = 4 then some ⟨x.mergedAmount, tokens.keys.val.bind fun token => tokens.getD token 0⟩
  else if x.peggedKeys key tokens.keys = ∅ then
    if key ∈ tokens.keys ∧ x.hasFlow key = true then some ⟨amountOf, tokens.getD key 0⟩ else none
  else some ⟨x.stableAmount, (x.peggedKeys key tokens.keys).val.bind fun token => tokens.getD token 0⟩

def account (bag : Map Address (Map Address (Multiset TokenTx))) (key user : Address) : Option Account :=
  (bag.lookup user).bind fun tokens => x.accountOf tokens key

variable {x}

section Enumerated

variable {tokenTxMap : TokenTxMap} {order : List Address}

theorem getD_bag (tokenTxMap : TokenTxMap) (token : Address) :
    (tokenTxMap.mapValues fun _ list => (list : Multiset TokenTx)).getD token 0 = tokenTxMap.getD token [] := by
  rw [Map.getD, Map.getD, Map.lookup_mapValues]
  cases tokenTxMap.lookup token with
  | none => rfl
  | some list => rfl

theorem transfersIn_bag {keys : Finset Address} {tokens : List Address}
    (same : (tokens : Multiset Address) = keys.val) :
    (transfersIn tokenTxMap tokens : Multiset TokenTx) = keys.val.bind fun token =>
      (tokenTxMap.mapValues fun _ list => (list : Multiset TokenTx)).getD token 0 := by
  rw [← same, transfersIn, ← Multiset.coe_bind]
  apply Multiset.bind_congr
  intro token _
  rw [getD_bag]

variable (enumerates : Map.Enumerates order tokenTxMap) (key : Address)
include enumerates key

theorem coe_pegged : (x.pegged key order : Multiset Address) = (x.peggedKeys key tokenTxMap.keys).val := by
  rw [peggedKeys, Finset.filter_val, ← enumerates.coe_eq, Multiset.filter_coe]
  simp [pegged]

theorem ledgerOf_account :
    (x.ledgerOf tokenTxMap order key).map Ledger.account =
      x.accountOf (tokenTxMap.mapValues fun _ list => (list : Multiset TokenTx)) key := by
  have nothing : x.pegged key order = [] ↔ x.peggedKeys key tokenTxMap.keys = ∅ := by
    rw [← Multiset.coe_eq_zero, coe_pegged enumerates, Finset.val_eq_zero]
  rw [ledgerOf, accountOf, Map.keys_mapValues]
  split
  · rw [← transfersIn_bag enumerates.coe_eq]
    rfl
  · simp only [nothing, enumerates.mem_iff, getD_bag]
    split
    · split
      · rfl
      · rfl
    · simp only [← getD_bag]
      rw [← transfersIn_bag (coe_pegged enumerates key)]
      rfl

end Enumerated

theorem ledger_account {transfers : UserTokenTxMap} {order : Address → List Address}
    (enumerates : ∀ user tokenTxMap, transfers.lookup user = some tokenTxMap →
      Map.Enumerates (order user) tokenTxMap) (key user : Address) :
    (x.ledger transfers order key user).map Ledger.account = x.account transfers.bag key user := by
  rw [ledger, account, UserTokenTxMap.bag, Map.lookup_mapValues]
  cases found : transfers.lookup user with
  | none => rfl
  | some tokenTxMap => exact ledgerOf_account (enumerates user tokenTxMap found) key

end TxExtractor

def TokenTx.pair (tokenTx : TokenTx) : Int × Int := (tokenTx.blockNumber, tokenTx.txIndex)

def NotAfter (first second : Int × Int) : Prop := first.1 < second.1 ∨ first.1 = second.1 ∧ first.2 ≤ second.2

def Alone (pairs : Multiset (Int × Int)) (this : Int × Int) : Prop :=
  ∀ last ∈ pairs, NotAfter last this → (∀ other ∈ pairs, NotAfter other this → other.1 ≤ last.1) →
    (pairs.countP fun other => other.1 = last.1) = 1

namespace Account

variable (account : Account)

def entered : Multiset TokenTx := account.transfers.filter fun tokenTx => counted account.convert tokenTx = true

def sum (keep : TokenTx → Bool) : Totals :=
  ((account.transfers.filter fun tokenTx => keep tokenTx = true).map (shareOf account.convert)).sum

def Positive : Prop := ∀ tokenTx ∈ account.entered, 0 < tokenTx.blockNumber

def Untied : Prop := ∀ tokenTx ∈ account.entered, tokenTx.action ≠ .deposit →
  ∀ other ∈ account.entered.erase tokenTx, other.less tokenTx = false → tokenTx.less other = false →
    other.action ≠ .deposit ∧ 0 ≤ share account.convert .withdraw other

end Account

theorem TokenFlow.after_eq_false {flow this : TokenFlow} : flow.after this = false ↔ NotAfter flow.pair this.pair := by
  rw [← Bool.not_eq_true, TokenFlow.after_iff, NotAfter, TokenFlow.pair, TokenFlow.pair]
  simp only
  omega

section Exact

variable {convert : TokenTx → Option ℚ} {list : List TokenTx} {this : TokenFlow}

theorem sharesOf_cons (tokenTx : TokenTx) (rest : List TokenTx) :
    sharesOf convert (tokenTx :: rest) = shareOf convert tokenTx + sharesOf convert rest := by
  rw [sharesOf_eq, sharesOf_eq, List.map_cons, List.sum_cons]

theorem partsOf_through_flowsFrom (before : List TokenTx) :
    partsOf (through this (flowsFrom convert before list)) = sharesOf convert (list.filter (upTo this)) := by
  induction list generalizing before with
  | nil => rfl
  | cons tokenTx rest ih =>
    have split : through this (flowsFrom convert before (tokenTx :: rest)) =
        through this (flowOf convert before tokenTx).toList ++
          through this (flowsFrom convert (before ++ [tokenTx]) rest) := by
      rw [flowsFrom, through, List.filter_append]
      rfl
    have head : partsOf (through this (flowOf convert before tokenTx).toList) =
        if upTo this tokenTx = true then shareOf convert tokenTx else 0 := by
      cases found : flowOf convert before tokenTx with
      | none =>
        rw [shareOf_uncounted (flowOf_eq_none.mp found), ite_self]
        rfl
      | some flow =>
        obtain ⟨positive, amount, converted, rfl⟩ := flowOf_eq_some.mp found
        rw [Option.toList_some, through, List.filter_cons, flowAfter_after, Bool.not_not]
        split
        · rw [partsOf, List.filter_nil, List.map_singleton, List.sum_singleton, part_flowAfter positive converted]
        · rfl
    rw [split, partsOf_append, ih, head, List.filter_cons]
    split
    · rw [sharesOf_cons]
    · rw [zero_add]

variable {flows : List TokenFlow}

theorem exists_last {early : TokenFlow} (member : early ∈ flows) (notAfter : early.after this = false) :
    ∃ last ∈ flows, last.after this = false ∧
      ∀ other ∈ flows, other.after this = false → other.blockNumber ≤ last.blockNumber := by
  obtain ⟨last, listed, greatest⟩ :=
    Finset.exists_max_image ((flows.filter fun flow => flow.after this = false).toFinset)
    TokenFlow.blockNumber ⟨early, by simp [member, notAfter]⟩
  rw [List.mem_toFinset, List.mem_filter, decide_eq_true_eq] at listed
  refine ⟨last, listed.1, listed.2, ?_⟩
  intro other otherListed otherEarly
  exact greatest other (by simp [otherListed, otherEarly])

theorem Alone.unique (alone : Alone (flows.map TokenFlow.pair) this.pair) {last : TokenFlow} (listed : last ∈ flows)
    (early : last.after this = false)
    (greatest : ∀ other ∈ flows, other.after this = false → other.blockNumber ≤ last.blockNumber)
    {before after : List TokenFlow} {flow : TokenFlow} (split : flows = before ++ flow :: after)
    (block : flow.blockNumber = last.blockNumber) {other : TokenFlow} (member : other ∈ before ++ after) :
    other.blockNumber ≠ last.blockNumber := by
  have once := alone last.pair (List.mem_map_of_mem listed) (TokenFlow.after_eq_false.mp early) (by
    intro pair inside notAfter
    obtain ⟨flow, flowListed, rfl⟩ := List.mem_map.mp inside
    exact greatest flow flowListed (TokenFlow.after_eq_false.mpr notAfter))
  rw [Multiset.coe_countP, List.countP_map, split, List.countP_append, List.countP_cons] at once
  have here : (if ((fun other => decide (other.1 = last.pair.1)) ∘ TokenFlow.pair) flow = true then 1 else 0) = 1 :=
    if_pos (decide_eq_true block)
  rw [here] at once
  have none : (before ++ after).countP ((fun other => decide (other.1 = last.pair.1)) ∘ TokenFlow.pair) = 0 := by
    rw [List.countP_append]
    omega
  intro same
  exact List.countP_eq_zero.mp none other member (decide_eq_true same)

/-- Entries of positive blocks, of which the last one up to a flow is the only one of its block. -/
structure Clear (flows : List TokenFlow) (this : TokenFlow) : Prop where
  positive : ∀ flow ∈ flows, 0 < flow.blockNumber
  alone : Alone (flows.map TokenFlow.pair) this.pair

theorem Clear.not_cutOff (clear : Clear flows this) {last : TokenFlow} (listed : last ∈ flows)
    (early : last.after this = false)
    (greatest : ∀ other ∈ flows, other.after this = false → other.blockNumber ≤ last.blockNumber) :
    ¬CutOff this (.zero :: flows) last := by
  have notAfter := TokenFlow.after_eq_false.mp early
  rw [NotAfter, TokenFlow.pair, TokenFlow.pair] at notAfter
  rintro (beyond | ⟨same, other, member, block, later⟩)
  · omega
  · have positive := clear.positive last listed
    rcases List.mem_cons.mp member with rfl | inside
    · have zero : TokenFlow.zero.blockNumber = 0 := rfl
      omega
    · obtain ⟨before, after, split⟩ := List.append_of_mem listed
      rw [split] at inside
      have apart : other ∈ before ++ after := by
        rcases List.mem_append.mp inside with left | right
        · exact List.mem_append_left _ left
        · rcases List.mem_cons.mp right with rfl | right
          · omega
          · exact List.mem_append_right _ right
      exact clear.alone.unique listed early greatest split rfl apart (block.trans same.symm)

theorem partsOf_through_flowList :
    partsOf (through this (flowList convert list)) = partsOf (through this (flowsFrom convert [] list)) := by
  rw [flowList_eq, through, List.filter_cons]
  split
  · rw [partsOf, List.map_cons, List.sum_cons]
    exact zero_add _
  · rfl

variable (ordered : list.Pairwise fun a b => b.less a = false) (clear : Clear (flowsFrom convert [] list) this)
include ordered clear

theorem Clear.through_after {before after : List TokenFlow} {flow : TokenFlow}
    (split : flowList convert list = before ++ flow :: after) (mayBe : MayBeLast this (flowList convert list) flow) :
    through this after = [] := by
  rw [through, List.filter_eq_nil_iff]
  intro later member notAfter
  rw [Bool.not_eq_true'] at notAfter
  have whole : flowList convert list = .zero :: flowsFrom convert [] list := flowList_eq _ _
  rw [whole] at split mayBe
  have laterListed : later ∈ flowsFrom convert [] list := by
    cases before with
    | nil => exact (List.cons.inj split).2 ▸ member
    | cons first before =>
      rw [(List.cons.inj split).2]
      exact List.mem_append_right _ (List.mem_cons_of_mem _ member)
  obtain ⟨last, listed, lastEarly, greatest⟩ := exists_last laterListed notAfter
  have notBelow : ¬flow.blockNumber < last.blockNumber := by
    intro below
    exact clear.not_cutOff listed lastEarly greatest (mayBe.2 last (List.mem_cons_of_mem _ listed) below)
  cases before with
  | nil =>
    obtain ⟨rfl, -⟩ := List.cons.inj split
    exact notBelow (clear.positive last listed)
  | cons first before =>
    have split' := (List.cons.inj split).2
    have flowListed : flow ∈ flowsFrom convert [] list := by
      rw [split']
      exact List.mem_append_right _ List.mem_cons_self
    have block : flow.blockNumber = last.blockNumber :=
      le_antisymm (greatest flow flowListed mayBe.1) (not_lt.mp notBelow)
    have other := clear.alone.unique listed lastEarly greatest split' block (List.mem_append_right before member)
    have inOrder := Enters.pairwise (flowsFrom_enters [] list) (ordered.filter (counted convert))
    rw [split'] at inOrder
    have order := List.rel_of_pairwise_cons (List.pairwise_append.mp inOrder).2.1 member
    have most := greatest later laterListed notAfter
    rw [TokenFlow.NotBefore] at order
    omega

theorem totalsUpTo_clear {result : List TokenFlow} (sorted : Sorted TokenFlow.less (flowList convert list) result) :
    totalsUpTo this result 0 = sharesOf convert (list.filter (upTo this)) := by
  rw [← partsOf_through_flowsFrom [], ← partsOf_through_flowList]
  refine (totalsUpTo_exact_iff ordered this).mpr ⟨?_, ?_⟩ result sorted
  · intro before flow after split mayBe
    rw [clear.through_after ordered split mayBe]
    rfl
  · intro mayBe
    have nothing : through this (flowsFrom convert [] list) = [] := by
      rw [through, List.filter_eq_nil_iff]
      intro early member notAfter
      obtain ⟨last, listed, lastEarly, greatest⟩ := exists_last member (Bool.not_eq_true' _ |>.mp notAfter)
      rw [flowList_eq] at mayBe
      exact clear.not_cutOff listed lastEarly greatest (mayBe last (List.mem_cons_of_mem _ listed))
    rw [partsOf_through_flowList, nothing]
    rfl

end Exact

section Ties

theorem TokenTx.tied_iff {a b : TokenTx} : a.less b = false ∧ b.less a = false ↔
    a.blockNumber = b.blockNumber ∧ a.txIndex = b.txIndex ∧ a.eventIndex = b.eventIndex := by
  rw [← Bool.not_eq_true, ← Bool.not_eq_true, TokenTx.less_iff, TokenTx.less_iff]
  omega

theorem TokenTx.less_congr {a b : TokenTx} (tied : a.less b = false ∧ b.less a = false) (other : TokenTx) :
    a.less other = b.less other := by
  obtain ⟨block, index, event⟩ := TokenTx.tied_iff.mp tied
  rw [TokenTx.less, TokenTx.less, block, index, event]

theorem abnormal_more {totals : Totals} {more : ℚ} (nonneg : 0 ≤ more) (found : abnormal totals = true) :
    abnormal (totals + (0, more)) = true := by
  obtain ⟨deposit, withdraw⟩ := totals
  simp only [abnormal, Prod.mk_add_mk, add_zero] at found ⊢
  split at found
  · rename_i positive
    rw [if_pos positive, decide_eq_true_eq]
    rw [decide_eq_true_eq] at found
    exact found.trans (div_le_div_of_nonneg_right (le_add_of_nonneg_right nonneg) positive.le)
  · rename_i notPositive
    rw [if_neg notPositive]
    simp only [Bool.and_eq_true, decide_eq_true_eq] at found ⊢
    exact ⟨found.1, lt_add_of_lt_of_nonneg found.2 nonneg⟩

variable {account : Account} {list : List TokenTx}

theorem Account.sum_eq (same : (list : Multiset TokenTx) = account.transfers) (keep : TokenTx → Bool) :
    account.sum keep = sharesOf account.convert (list.filter keep) := by
  rw [Account.sum, ← same, Multiset.filter_coe, Multiset.map_coe, Multiset.sum_coe, sharesOf_eq]
  simp only [Bool.decide_eq_true]

theorem Account.entered_eq (same : (list : Multiset TokenTx) = account.transfers) :
    account.entered = (list.filter (counted account.convert) : List TokenTx) := by
  rw [Account.entered, ← same, Multiset.filter_coe]
  simp only [Bool.decide_eq_true]

theorem filter_notLess {before after : List TokenTx} {tokenTx : TokenTx}
    (ordered : (before ++ tokenTx :: after).Pairwise fun a b => b.less a = false) :
    (before ++ tokenTx :: after).filter (fun other => !tokenTx.less other) =
      before ++ tokenTx :: after.filter fun other => !tokenTx.less other := by
  have across := (List.pairwise_append.mp ordered).2.2
  have all : before.filter (fun other => !tokenTx.less other) = before := by
    rw [List.filter_eq_self]
    intro other member
    rw [across other member tokenTx List.mem_cons_self]
    rfl
  rw [List.filter_append, all, List.filter_cons, TokenTx.less_weakOrder.irreflexive]
  rfl

theorem exists_last_of_mem {property : TokenTx → Bool} {tokenTx : TokenTx} (member : tokenTx ∈ list)
    (holds : property tokenTx = true) : ∃ before last after, list = before ++ last :: after ∧ property last = true ∧
      ∀ other ∈ after, property other = false := by
  obtain ⟨last, found⟩ := Option.isSome_iff_exists.mp
    (List.find?_isSome.mpr ⟨tokenTx, List.mem_reverse.mpr member, holds⟩)
  obtain ⟨last', after, before, split, none⟩ := List.find?_eq_some_iff_append.mp found
  refine ⟨before.reverse, last, after.reverse, ?_, last', ?_⟩
  · rw [← List.reverse_reverse list, split]
    simp
  · intro other inside
    simpa using none other (List.mem_reverse.mp inside)

theorem Account.Untied.ties (untied : account.Untied) {before after : List TokenTx} {tokenTx : TokenTx}
    (same : (before ++ tokenTx :: after : List TokenTx) = account.transfers)
    (ordered : (before ++ tokenTx :: after).Pairwise fun a b => b.less a = false)
    (counts : counted account.convert tokenTx = true) (withdrawal : tokenTx.action ≠ .deposit) :
    ∃ more, 0 ≤ more ∧
      sharesOf account.convert (after.filter fun other => !tokenTx.less other) = (0, more) := by
  have rest : account.entered.erase tokenTx =
      ((before ++ after).filter (counted account.convert) : List TokenTx) := by
    rw [Account.entered_eq same, List.filter_append, List.filter_cons, if_pos counts, List.filter_append]
    have middle := Multiset.coe_eq_coe.mpr (@List.perm_middle _ tokenTx (before.filter (counted account.convert))
      (after.filter (counted account.convert)))
    rw [middle, ← Multiset.cons_coe, Multiset.erase_cons_head]
  have behind := (List.pairwise_cons.mp (List.pairwise_append.mp ordered).2.1).1
  have each : ∀ other ∈ after.filter (fun other => !tokenTx.less other),
      share account.convert .deposit other = 0 ∧ 0 ≤ share account.convert .withdraw other := by
    intro other member
    obtain ⟨inside, notLess⟩ := List.mem_filter.mp member
    rw [Bool.not_eq_true'] at notLess
    cases counted' : counted account.convert other with
    | false =>
      have nothing := Prod.ext_iff.mp (shareOf_uncounted counted')
      exact ⟨nothing.1, nothing.2.ge⟩
    | true =>
      have listed : other ∈ account.entered.erase tokenTx := by
        rw [rest, Multiset.mem_coe, List.mem_filter]
        exact ⟨List.mem_append_right _ inside, counted'⟩
      have member' : tokenTx ∈ account.entered := by
        rw [Account.entered_eq same, Multiset.mem_coe, List.mem_filter]
        exact ⟨List.mem_append_right _ List.mem_cons_self, counts⟩
      obtain ⟨action, nonneg⟩ := untied tokenTx member' withdrawal other listed (behind other inside) notLess
      exact ⟨if_neg fun both => action both.2, nonneg⟩
  refine ⟨shares account.convert .withdraw (after.filter fun other => !tokenTx.less other), ?_, ?_⟩
  · apply List.sum_nonneg
    intro amount member
    obtain ⟨other, inside, rfl⟩ := List.mem_map.mp member
    exact (each other inside).2
  · have none : shares account.convert .deposit (after.filter fun other => !tokenTx.less other) = 0 := by
      apply List.sum_eq_zero
      intro amount member
      obtain ⟨other, inside, rfl⟩ := List.mem_map.mp member
      exact (each other inside).1
    rw [sharesOf, none]

theorem Account.Untied.alarm_iff (untied : account.Untied) (same : (list : Multiset TokenTx) = account.transfers)
    (ordered : list.Pairwise fun a b => b.less a = false) (related : Int × Int → Totals) :
    (∃ flow ∈ flowsFrom account.convert [] list, flow.action ≠ .deposit ∧
      abnormal (flow.totals + related flow.pair) = true) ↔
    ∃ tokenTx ∈ account.entered, tokenTx.action ≠ .deposit ∧
      abnormal (account.sum (fun other => !tokenTx.less other) + related tokenTx.pair) = true := by
  constructor
  · rintro ⟨flow, member, withdrawal, found⟩
    obtain ⟨before, tokenTx, after, amount, rfl, positive, converted, rfl⟩ := flowsFrom_mem_iff.mp member
    have counts : counted account.convert tokenTx = true := by
      rw [counted, converted, decide_eq_true positive]
      rfl
    refine ⟨tokenTx, ?_, withdrawal, ?_⟩
    · rw [Account.entered_eq same, Multiset.mem_coe, List.mem_filter]
      exact ⟨List.mem_append_right _ List.mem_cons_self, counts⟩
    · obtain ⟨more, nonneg, ties⟩ := untied.ties same ordered counts withdrawal
      have total : account.sum (fun other => !tokenTx.less other) =
          (flowAfter account.convert ([] ++ before) tokenTx amount).totals + (0, more) := by
        rw [Account.sum_eq same, filter_notLess ordered, ← List.singleton_append, ← List.append_assoc,
          sharesOf_append, ties]
        rfl
      rw [total, add_right_comm]
      exact abnormal_more nonneg found
  · rintro ⟨tokenTx, member, withdrawal, found⟩
    have listed := member
    rw [Account.entered_eq same, Multiset.mem_coe, List.mem_filter] at listed
    obtain ⟨before, last, after, rfl, holds, none⟩ := @exists_last_of_mem list (fun other =>
      counted account.convert other && (!tokenTx.less other && !other.less tokenTx)) tokenTx listed.1 (by
        simp [listed.2, TokenTx.less_weakOrder.irreflexive])
    simp only [Bool.and_eq_true, Bool.not_eq_true'] at holds
    obtain ⟨counts, tied⟩ := holds
    have lastListed : last ∈ account.entered := by
      rw [Account.entered_eq same, Multiset.mem_coe, List.mem_filter]
      exact ⟨List.mem_append_right _ List.mem_cons_self, counts⟩
    have lastWithdrawal : last.action ≠ .deposit := by
      by_cases itself : last = tokenTx
      · rw [itself]
        exact withdrawal
      · exact (untied tokenTx member withdrawal last ((Multiset.mem_erase_of_ne itself).mpr lastListed) tied.2 tied.1).1
    obtain ⟨positive, converts⟩ := Bool.and_eq_true_iff.mp counts
    obtain ⟨amount, converted⟩ := Option.isSome_iff_exists.mp converts
    obtain ⟨block, index, event⟩ := TokenTx.tied_iff.mp tied
    have behind := (List.pairwise_cons.mp (List.pairwise_append.mp ordered).2.1).1
    have rest : sharesOf account.convert (after.filter fun other => !last.less other) = 0 := by
      rw [sharesOf_eq]
      apply List.sum_eq_zero
      intro totals summed
      obtain ⟨other, filtered, rfl⟩ := List.mem_map.mp summed
      obtain ⟨inside, notLess⟩ := List.mem_filter.mp filtered
      have notCounted := none other inside
      have later : other.less tokenTx = false := by
        have later' := behind other inside
        rw [← Bool.not_eq_true, TokenTx.less_iff] at later' ⊢
        omega
      rw [TokenTx.less_congr tied, notLess, later] at notCounted
      exact shareOf_uncounted (by simpa using notCounted)
    have total : account.sum (fun other => !tokenTx.less other) = sharesOf account.convert (before ++ [last]) := by
      simp only [TokenTx.less_congr tied]
      rw [Account.sum_eq same, filter_notLess ordered, ← List.singleton_append, ← List.append_assoc,
        sharesOf_append, rest,
        add_zero]
    refine ⟨flowAfter account.convert ([] ++ before) last amount,
      flowsFrom_mem_iff.mpr ⟨before, last, after, amount, rfl,
      of_decide_eq_true positive, converted, rfl⟩, lastWithdrawal, ?_⟩
    have pairs : (flowAfter account.convert ([] ++ before) last amount).pair = tokenTx.pair :=
      Prod.ext block.symm index.symm
    rw [pairs]
    rw [total] at found
    exact found

end Ties

end IDWDetector.Hunter
