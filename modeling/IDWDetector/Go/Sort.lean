import Mathlib.Data.List.Pairwise
import Mathlib.Data.List.Perm.Subperm
import Mathlib.Data.List.Sort

namespace Go

variable {α : Type}

/-- What `sort.Sort` makes of a list: a permutation in which nothing later is less than something earlier. -/
structure Sorted (less : α → α → Bool) (list result : List α) : Prop where
  perm : result.Perm list
  ordered : result.Pairwise fun a b => less b a = false

variable {less : α → α → Bool}

/-- The order that a `Less` stands for: not being less is total and transitive. -/
structure WeakOrder (less : α → α → Bool) : Prop where
  asymm : ∀ {a b}, less a b = true → less b a = false
  trans : ∀ {a b c}, less b a = false → less c b = false → less c a = false

theorem WeakOrder.irreflexive (weak : WeakOrder less) (a : α) : less a a = false := by
  cases found : less a a with
  | false => rfl
  | true =>
    have below := weak.asymm found
    rw [found] at below
    cases below

theorem Sorted.trans {first second third : List α} (sorted : Sorted less first second)
    (again : Sorted less second third) : Sorted less first third := ⟨again.perm.trans sorted.perm, again.ordered⟩

def tieLess (less : α → α → Bool) (tie : α → Nat) (a b : α) : Bool := less a b || (!less b a && decide (tie a < tie b))

theorem tieLess_eq_false {tie : α → Nat} {a b : α} :
    tieLess less tie a b = false ↔ less a b = false ∧ (less b a = true ∨ tie b ≤ tie a) := by
  simp only [tieLess, Bool.or_eq_false_iff, Bool.and_eq_false_iff, Bool.not_eq_false', decide_eq_false_iff_not, not_lt]

theorem WeakOrder.tieLess (weak : WeakOrder less) (tie : α → Nat) :
    WeakOrder (tieLess less tie) where
  asymm := by
    intro a b below
    rw [tieLess_eq_false]
    rw [Go.tieLess, Bool.or_eq_true, Bool.and_eq_true, Bool.not_eq_true', decide_eq_true_eq] at below
    rcases below with below | ⟨same, lower⟩
    · exact ⟨weak.asymm below, .inl below⟩
    · exact ⟨same, .inr lower.le⟩
  trans := by
    intro a b c
    rw [tieLess_eq_false, tieLess_eq_false, tieLess_eq_false]
    rintro ⟨notBelow, first⟩ ⟨notBelow', second⟩
    refine ⟨weak.trans notBelow notBelow', ?_⟩
    cases above : less a c with
    | true => exact .inl rfl
    | false =>
      -- The three are equal in the order, so that their numbers decide.
      rcases first with strictly | first
      · rw [weak.trans notBelow' above] at strictly
        cases strictly
      · rcases second with strictly | second
        · rw [weak.trans above notBelow] at strictly
          cases strictly
        · exact .inr (first.trans second)

theorem Sorted.of_tie {tie : α → Nat} {list result : List α} (sorted : Sorted (tieLess less tie) list result) :
    Sorted less list result :=
  ⟨sorted.perm, sorted.ordered.imp fun ordered => (tieLess_eq_false.mp ordered).1⟩

def stableSort (less : α → α → Bool) (list : List α) : List α := list.insertionSort fun a b => less b a = false

theorem WeakOrder.stableSort_sorted (weak : WeakOrder less) (list : List α) :
    Sorted less list (stableSort less list) := by
  have total : Std.Total fun a b => less b a = false := by
    constructor
    intro a b
    cases below : less b a with
    | false => exact .inl rfl
    | true => exact .inr (weak.asymm below)
  have trans : IsTrans α fun a b => less b a = false := ⟨fun _ _ _ => weak.trans⟩
  exact ⟨List.perm_insertionSort _ _, List.pairwise_insertionSort _ _⟩

variable (weak : WeakOrder less)
include weak

theorem WeakOrder.orderedInsert_more (other : α) {before after : List α} {a : α}
    (ordered : (before ++ a :: after).Pairwise fun a b => less b a = false) : ∃ before' after',
      (before ++ a :: after).orderedInsert (fun a b => less b a = false) other = before' ++ a :: after' ∧
      (before ++ after).orderedInsert (fun a b => less b a = false) other = before' ++ after' := by
  induction before with
  | nil =>
    by_cases first : less a other = false
    · refine ⟨[other], after, ?_, ?_⟩
      · rw [List.nil_append, List.orderedInsert_cons, if_pos first]
        rfl
      · cases after with
        | nil => rfl
        | cons b after =>
          have next : less b a = false := List.rel_of_pairwise_cons ordered List.mem_cons_self
          rw [List.nil_append, List.orderedInsert_cons, if_pos (weak.trans first next)]
          rfl
    · refine ⟨[], after.orderedInsert (fun a b => less b a = false) other, ?_, rfl⟩
      rw [List.nil_append, List.orderedInsert_cons, if_neg first]
      rfl
  | cons b before ih =>
    by_cases first : less b other = false
    · refine ⟨other :: b :: before, after, ?_, ?_⟩
      · rw [List.cons_append, List.orderedInsert_cons, if_pos first]
        rfl
      · rw [List.cons_append, List.orderedInsert_cons, if_pos first]
        rfl
    · obtain ⟨before', after', with_, without⟩ := ih (List.pairwise_cons.mp ordered).2
      refine ⟨b :: before', after', ?_, ?_⟩
      · rw [List.cons_append, List.orderedInsert_cons, if_neg first, with_]
        rfl
      · rw [List.cons_append, List.orderedInsert_cons, if_neg first, without]
        rfl

theorem WeakOrder.stableSort_more (first second : List α) (a : α) :
    ∃ before after, stableSort less (first ++ a :: second) = before ++ a :: after ∧
      stableSort less (first ++ second) = before ++ after := by
  induction first with
  | nil =>
    refine ⟨_, _, List.orderedInsert_eq_take_drop _ a (stableSort less second), ?_⟩
    exact (List.takeWhile_append_dropWhile).symm
  | cons b first ih =>
    obtain ⟨before, after, with_, without⟩ := ih
    have ordered := (weak.stableSort_sorted (first ++ a :: second)).ordered
    rw [with_] at ordered
    obtain ⟨before', after', with', without'⟩ := weak.orderedInsert_more b ordered
    refine ⟨before', after', ?_, ?_⟩
    · rw [← with', ← with_]
      rfl
    · rw [← without', ← without]
      rfl

theorem WeakOrder.filter_sorted_iff [DecidableEq α] {list expected : List α} {keep : α → Bool}
    (perm : expected.Perm (list.filter keep)) :
    (∀ sorted, Sorted less list sorted → sorted.filter keep = expected) ↔
      expected.Pairwise fun a b => less a b = true ∨ a = b := by
  constructor
  · intro always
    rw [List.pairwise_iff_forall_sublist]
    intro a b inside
    have sorted := (weak.tieLess fun c => if c = b then 0 else 1).stableSort_sorted list
    have ordered := sorted.ordered.filter keep
    rw [always _ sorted.of_tie] at ordered
    have pair := List.pairwise_iff_forall_sublist.mp ordered inside
    obtain ⟨-, below | lower⟩ := tieLess_eq_false.mp pair
    · exact .inl below
    · rw [if_pos rfl] at lower
      split at lower
      · rename_i same
        exact .inr same
      · omega
  · intro pairs sorted sorts
    have ties : expected.Pairwise fun a b => less a b = false → less b a = false → a = b := by
      refine pairs.imp fun {a b} pair notBelow _ => ?_
      rcases pair with below | same
      · rw [notBelow] at below
        cases below
      · exact same
    have symmetric : Std.Symm fun a b => less a b = false → less b a = false → a = b :=
      ⟨fun a b equal first second => (equal second first).symm⟩
    have equal := ties.forall_of_forall fun _ _ _ _ => rfl
    have whole : (sorted.filter keep).Perm expected := (sorts.perm.filter keep).trans perm.symm
    apply List.Perm.eq_of_pairwise _ (sorts.ordered.filter keep) _ whole
    · intro a b first second notAbove notBelow
      exact equal (whole.mem_iff.mp first) second notBelow notAbove
    · refine pairs.imp fun {a b} pair => ?_
      rcases pair with below | rfl
      · exact weak.asymm below
      · exact weak.irreflexive a

theorem WeakOrder.forall_sort_iff [DecidableEq α] {list : List α} {property : List α → Prop} :
    (∀ sort : List α → List α, (∀ other, Sorted less other (sort other)) → property (sort list)) ↔
      ∀ sorted, Sorted less list sorted → property sorted := by
  constructor
  · intro always sorted sorts
    have chosen := always (fun other => if other = list then sorted else stableSort less other) (by
      intro other
      split_ifs with same
      · rw [same]
        exact sorts
      · exact weak.stableSort_sorted other)
    simp only [if_true] at chosen
    exact chosen
  · intro each sort sorts
    exact each _ (sorts list)

end Go
