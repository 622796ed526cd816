import IDWDetector.Hunter.Verdict

namespace IDWDetector.Hunter

open Go

section Flows

variable {convert : TokenTx → Option ℚ}

theorem flowsFrom_mem_iff {before list : List TokenTx} {flow : TokenFlow} : flow ∈ flowsFrom convert before list ↔
    ∃ first tokenTx second amount, list = first ++ tokenTx :: second ∧ 0 < tokenTx.amount ∧
      convert tokenTx = some amount ∧ flow = flowAfter convert (before ++ first) tokenTx amount := by
  constructor
  · intro member
    induction list generalizing before with
    | nil => cases member
    | cons tokenTx rest ih =>
      rw [flowsFrom] at member
      rcases List.mem_append.mp member with here | later
      · obtain ⟨positive, amount, converted, same⟩ := flowOf_eq_some.mp (Option.mem_toList.mp here)
        exact ⟨[], tokenTx, rest, amount, rfl, positive, converted, by rw [List.append_nil, same]⟩
      · obtain ⟨first, other, second, amount, rfl, positive, converted, rfl⟩ := ih later
        exact ⟨tokenTx :: first, other, second, amount, rfl, positive, converted, by simp⟩
  · rintro ⟨first, tokenTx, second, amount, rfl, positive, converted, rfl⟩
    rw [flowsFrom_append, flowsFrom, flowOf_some convert positive converted]
    simp

theorem flowList_mem_iff {list : List TokenTx} {flow : TokenFlow} : flow ∈ flowList convert list ↔
    flow = .zero ∨ ∃ first tokenTx second amount, list = first ++ tokenTx :: second ∧ 0 < tokenTx.amount ∧
      convert tokenTx = some amount ∧ flow = flowAfter convert first tokenTx amount := by
  rw [flowList_eq, List.mem_cons, flowsFrom_mem_iff]
  rfl

theorem sharesOf_more (before after : List TokenTx) (tokenTx : TokenTx) :
    sharesOf convert (before ++ tokenTx :: after) = sharesOf convert (before ++ after) + shareOf convert tokenTx := by
  rw [← List.singleton_append, ← List.append_assoc, sharesOf_append, sharesOf_snoc, sharesOf_append]
  exact add_right_comm _ _ _

def upTo (this : TokenFlow) (tokenTx : TokenTx) : Bool :=
  !(decide (this.blockNumber < tokenTx.blockNumber) ||
    (decide (tokenTx.blockNumber = this.blockNumber) && decide (this.txIndex < tokenTx.txIndex)))

theorem upTo_iff {this : TokenFlow} {tokenTx : TokenTx} : upTo this tokenTx = true ↔
    tokenTx.blockNumber < this.blockNumber ∨
      tokenTx.blockNumber = this.blockNumber ∧ tokenTx.txIndex ≤ this.txIndex := by
  simp only [upTo, Bool.not_eq_true', Bool.or_eq_false_iff, Bool.and_eq_false_iff, decide_eq_false_iff_not]
  omega

theorem flowAfter_after (before : List TokenTx) (tokenTx : TokenTx) (amount : ℚ) (this : TokenFlow) :
    (flowAfter convert before tokenTx amount).after this = !upTo this tokenTx := by
  rw [upTo, Bool.not_not]
  rfl

end Flows

/-- A ledger before it is sorted: what its transfers are worth, and the transfers. -/
structure Ledger where
  convert : TokenTx → Option ℚ
  group : List TokenTx

namespace Ledger

def flows (ledger : Ledger) : List TokenFlow := flowList ledger.convert (stableSort TokenTx.less ledger.group)

def Positive (ledger : Ledger) : Prop := ∀ tokenTx ∈ ledger.group, 0 < tokenTx.blockNumber

def Nonneg (ledger : Ledger) : Prop := ∀ action tokenTx, 0 ≤ share ledger.convert action tokenTx

variable {ledger : Ledger} {this flow : TokenFlow}

theorem sorted (ledger : Ledger) : Sorted TokenTx.less ledger.group (stableSort TokenTx.less ledger.group) :=
  TokenTx.less_weakOrder.stableSort_sorted ledger.group

theorem Positive.cases (positive : ledger.Positive) (member : flow ∈ ledger.flows) :
    flow = .zero ∨ 0 < flow.blockNumber := by
  rcases flowList_mem_iff.mp member with rfl | ⟨first, tokenTx, second, amount, split, _, _, rfl⟩
  · exact .inl rfl
  · have listed : tokenTx ∈ stableSort TokenTx.less ledger.group := by
      rw [split]
      simp
    exact .inr (positive tokenTx (ledger.sorted.perm.mem_iff.mp listed))

theorem sharesOf_nonneg (nonneg : ledger.Nonneg) (list : List TokenTx) : 0 ≤ (sharesOf ledger.convert list).1 := by
  apply List.sum_nonneg
  intro amount member
  obtain ⟨tokenTx, -, rfl⟩ := List.mem_map.mp member
  exact nonneg .deposit tokenTx

theorem Nonneg.totals (nonneg : ledger.Nonneg) (member : flow ∈ ledger.flows) : 0 ≤ flow.totals.1 := by
  rcases flowList_mem_iff.mp member with rfl | ⟨first, tokenTx, second, amount, split, _, _, rfl⟩
  · exact le_refl _
  · exact sharesOf_nonneg nonneg (first ++ [tokenTx])

end Ledger

def Safer (first second : Totals) : Prop := first.1 ≤ second.1 ∧ second.2 ≤ first.2

theorem abnormal_iff {totals : Totals} (nonneg : 0 ≤ totals.1) :
    abnormal totals = true ↔ 0 < totals.2 ∧ 3 * totals.1 ≤ totals.2 := by
  unfold abnormal abnormalRate
  split
  · rename_i positive
    rw [decide_eq_true_eq, le_div_iff₀ positive]
    constructor
    · intro most
      exact ⟨by linarith, most⟩
    · exact And.right
  · rename_i notPositive
    have none : totals.1 = 0 := le_antisymm (not_lt.mp notPositive) nonneg
    rw [Bool.and_eq_true, decide_eq_true_eq, decide_eq_true_eq, none]
    constructor
    · rintro ⟨-, positive⟩
      exact ⟨positive, by linarith⟩
    · rintro ⟨positive, -⟩
      exact ⟨rfl, positive⟩

theorem Safer.abnormal {first second : Totals} (safer : Safer first second) (nonneg : 0 ≤ first.1)
    (found : Hunter.abnormal second = true) : Hunter.abnormal first = true := by
  obtain ⟨deposits, withdrawals⟩ := safer
  rw [abnormal_iff (nonneg.trans deposits)] at found
  rw [abnormal_iff nonneg]
  exact ⟨by linarith, by linarith⟩

/-- What a transfer does to totals: deposits make them safer, withdrawals less safe. -/
structure Moved (tokenTx : TokenTx) (old new : Totals) : Prop where
  deposit : tokenTx.action = .deposit → Safer old new
  withdraw : tokenTx.action = .withdraw → Safer new old

namespace Moved

variable {tokenTx : TokenTx}

theorem refl (totals : Totals) : Moved tokenTx totals totals :=
  ⟨fun _ => ⟨le_refl _, le_refl _⟩, fun _ => ⟨le_refl _, le_refl _⟩⟩

theorem add {old new old' new' : Totals} (first : Moved tokenTx old new) (second : Moved tokenTx old' new') :
    Moved tokenTx (old + old') (new + new') := by
  constructor
  · intro deposit
    exact ⟨add_le_add (first.deposit deposit).1 (second.deposit deposit).1,
      add_le_add (first.deposit deposit).2 (second.deposit deposit).2⟩
  · intro withdraw
    exact ⟨add_le_add (first.withdraw withdraw).1 (second.withdraw withdraw).1,
      add_le_add (first.withdraw withdraw).2 (second.withdraw withdraw).2⟩

theorem sum {old new : Address → Totals} (users : Finset Address)
    (each : ∀ user, Moved tokenTx (old user) (new user)) :
    Moved tokenTx (∑ user ∈ users, old user) (∑ user ∈ users, new user) := by
  induction users using Finset.induction_on with
  | empty => exact refl _
  | insert user users fresh ih =>
    rw [Finset.sum_insert fresh, Finset.sum_insert fresh]
    exact (each user).add ih

theorem share {convert : TokenTx → Option ℚ} (nonneg : ∀ action, 0 ≤ share convert action tokenTx) (totals : Totals) :
    Moved tokenTx totals (totals + shareOf convert tokenTx) := by
  have other {action : Action} (differs : tokenTx.action ≠ action) : Hunter.share convert action tokenTx = 0 :=
    if_neg fun counted => differs counted.2
  constructor
  · intro deposit
    refine ⟨le_add_of_nonneg_right (nonneg .deposit), ?_⟩
    exact (add_le_iff_nonpos_right _).mpr (other (by simp [deposit])).le
  · intro withdraw
    refine ⟨?_, le_add_of_nonneg_right (nonneg .withdraw)⟩
    exact (add_le_iff_nonpos_right _).mpr (other (by simp [withdraw])).le

end Moved

def ledgerFlows (ledger : Option Ledger) : List TokenFlow := (ledger.map Ledger.flows).getD []

def ledgerTotals (this : TokenFlow) (ledger : Option Ledger) : Totals :=
  (ledger.map fun ledger => sharesOf ledger.convert (ledger.group.filter (upTo this))).getD 0

/-- One more transfer is none of a ledger, or one more of it, or its first. -/
inductive Grown (tokenTx : TokenTx) : Option Ledger → Option Ledger → Prop
  | same (ledger : Option Ledger) : Grown tokenTx ledger ledger
  | inserted (convert : TokenTx → Option ℚ) (first second : List TokenTx) :
    Grown tokenTx (some ⟨convert, first ++ second⟩) (some ⟨convert, first ++ tokenTx :: second⟩)
  | started (convert : TokenTx → Option ℚ) : Grown tokenTx none (some ⟨convert, [tokenTx]⟩)

structure Matched (tokenTx : TokenTx) (old new : TokenFlow) : Prop where
  blockNumber : old.blockNumber = new.blockNumber
  txIndex : old.txIndex = new.txIndex
  action : old.action = new.action
  totals : Moved tokenTx old.totals new.totals

/-- The entries before and after a transfer more: all are kept, and a new one has its action. -/
structure Extended (tokenTx : TokenTx) (old new : List TokenFlow) : Prop where
  kept : ∀ flow ∈ old, ∃ flow' ∈ new, Matched tokenTx flow flow'
  origin : ∀ flow ∈ new, flow = .zero ∨ flow.action = tokenTx.action ∨ ∃ flow' ∈ old, Matched tokenTx flow' flow

section Insertion

variable {tokenTx : TokenTx} {convert : TokenTx → Option ℚ}

theorem Matched.refl (flow : TokenFlow) : Matched tokenTx flow flow := ⟨rfl, rfl, rfl, .refl _⟩

theorem matched_flowAfter (nonneg : ∀ action, 0 ≤ share convert action tokenTx) (before middle : List TokenTx)
    (other : TokenTx) (amount : ℚ) : Matched tokenTx (flowAfter convert (before ++ middle) other amount)
      (flowAfter convert (before ++ tokenTx :: middle) other amount) where
  blockNumber := rfl
  txIndex := rfl
  action := rfl
  totals := by
    change Moved tokenTx (sharesOf convert (before ++ middle ++ [other]))
      (sharesOf convert (before ++ tokenTx :: middle ++ [other]))
    rw [List.append_assoc, List.append_assoc, List.cons_append, sharesOf_more]
    exact .share nonneg _

theorem flowsFrom_matched (nonneg : ∀ action, 0 ≤ share convert action tokenTx) (before middle list : List TokenTx) :
    List.Forall₂ (Matched tokenTx) (flowsFrom convert (before ++ middle) list)
      (flowsFrom convert (before ++ tokenTx :: middle) list) := by
  induction list generalizing middle with
  | nil => exact .nil
  | cons other rest ih =>
    have later := ih (middle ++ [other])
    rw [← List.append_assoc, ← List.cons_append, ← List.append_assoc] at later
    refine List.rel_append ?_ later
    by_cases positive : 0 < other.amount
    · simp only [flowOf, positive, if_true]
      cases convert other with
      | none => exact .nil
      | some amount => exact .cons (matched_flowAfter nonneg before middle other amount) .nil
    · simp only [flowOf, positive, if_false]
      exact .nil

theorem flowList_extended (nonneg : ∀ action, 0 ≤ share convert action tokenTx) (before after : List TokenTx) :
    Extended tokenTx (flowList convert (before ++ after)) (flowList convert (before ++ tokenTx :: after)) := by
  have matched := flowsFrom_matched nonneg before [] after
  rw [List.append_nil] at matched
  have old : flowList convert (before ++ after) = flowList convert before ++ flowsFrom convert before after := by
    rw [flowList_eq, flowList_eq, flowsFrom_append]
    rfl
  have new : flowList convert (before ++ tokenTx :: after) = flowList convert before ++
      ((flowOf convert before tokenTx).toList ++ flowsFrom convert (before ++ [tokenTx]) after) := by
    rw [flowList_eq, flowList_eq, flowsFrom_append]
    rfl
  rw [old, new]
  constructor
  · intro flow member
    rcases List.mem_append.mp member with here | later
    · exact ⟨flow, List.mem_append_left _ here, .refl _⟩
    · obtain ⟨flow', listed, pair⟩ := exists_of_forall₂ matched.flip later
      exact ⟨flow', List.mem_append_right _ (List.mem_append_right _ listed), pair⟩
  · intro flow member
    rcases List.mem_append.mp member with here | later
    · exact .inr (.inr ⟨flow, List.mem_append_left _ here, .refl _⟩)
    · rcases List.mem_append.mp later with own | later
      · obtain ⟨-, amount, -, rfl⟩ := flowOf_eq_some.mp (Option.mem_toList.mp own)
        exact .inr (.inl rfl)
      · obtain ⟨flow', listed, pair⟩ := exists_of_forall₂ matched later
        exact .inr (.inr ⟨flow', List.mem_append_right _ listed, pair⟩)

variable {old new : Option Ledger} (grown : Grown tokenTx old new) (nonneg : ∀ ledger ∈ new, ledger.Nonneg)
include grown nonneg

theorem Grown.totals (this : TokenFlow) : Moved tokenTx (ledgerTotals this old) (ledgerTotals this new) := by
  cases grown with
  | same => exact .refl _
  | inserted convert first second =>
    change Moved tokenTx (sharesOf convert _) (sharesOf convert _)
    rw [List.filter_append, List.filter_append, List.filter_cons]
    split
    · rw [sharesOf_more]
      exact .share (fun action => nonneg _ rfl action tokenTx) _
    · exact .refl _
  | started convert =>
    change Moved tokenTx 0 (sharesOf convert _)
    rw [List.filter_cons, List.filter_nil]
    split
    · rw [← List.nil_append [tokenTx], sharesOf_snoc]
      exact .share (fun action => nonneg _ rfl action tokenTx) _
    · exact .refl _

theorem Grown.extended : Extended tokenTx (ledgerFlows old) (ledgerFlows new) := by
  cases grown with
  | same => exact ⟨fun flow member => ⟨flow, member, .refl _⟩, fun flow member => .inr (.inr ⟨flow, member, .refl _⟩)⟩
  | inserted convert first second =>
    obtain ⟨before, after, sorted, sorted'⟩ := TokenTx.less_weakOrder.stableSort_more first second tokenTx
    change Extended tokenTx (flowList convert (stableSort TokenTx.less (first ++ second)))
      (flowList convert (stableSort TokenTx.less (first ++ tokenTx :: second)))
    rw [sorted, sorted']
    exact flowList_extended (fun action => nonneg _ rfl action tokenTx) before after
  | started convert =>
    refine ⟨nofun, fun flow member => ?_⟩
    obtain zero | ⟨first, other, second, amount, split, _, _, rfl⟩ := flowList_mem_iff.mp member
    · exact .inl zero
    · have listed : other ∈ [tokenTx] := by
        change [tokenTx] = _ at split
        rw [split]
        simp
      exact .inr (.inl (congrArg TokenTx.action (List.mem_singleton.mp listed)))

end Insertion

end IDWDetector.Hunter
