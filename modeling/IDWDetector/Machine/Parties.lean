import Mathlib.Algebra.BigOperators.Group.Finset.Basic
import Mathlib.Algebra.Order.BigOperators.Group.Finset
import Mathlib.Data.Fintype.BigOperators
import Mathlib.Logic.Relation

namespace Machine

variable {ι β M : Type} {party : ι → β} {share : β → M} {σ : Type} {s : σ}

def total [Fintype ι] [AddCommMonoid M] (share : β → M) (party : ι → β) : M :=
  ∑ i, share (party i)

theorem total_update [Fintype ι] [DecidableEq ι] [AddCommMonoid M] (share : β → M) (party : ι → β)
    (i : ι) : ∃ rest, total share party = share (party i) + rest ∧
      ∀ b, total share (Function.update party i b) = share b + rest := by
  refine ⟨∑ j ∈ Finset.univ \ {i}, share (party j), ?_, fun b => ?_⟩
  · exact Finset.sum_eq_add_sum_sdiff_singleton_of_mem (Finset.mem_univ i) _
  · have moved : (fun j => share (Function.update party i b j)) =
        Function.update (fun j => share (party j)) i (share b) := by
      funext j
      by_cases same : j = i
      · subst same
        simp
      · simp [same]
    rw [total, moved, Finset.sum_update_of_mem (Finset.mem_univ i)]

theorem total_update_same [Fintype ι] [DecidableEq ι] [AddCommMonoid M] {i : ι} {b : β}
    (same : share b = share (party i)) :
    total share (Function.update party i b) = total share party := by
  obtain ⟨rest, was, becomes⟩ := total_update share party i
  rw [becomes, was, same]

theorem total_eq_zero [Fintype ι] [AddCommMonoid M] (none : ∀ i, share (party i) = 0) : total share party = 0 :=
  Finset.sum_eq_zero fun i _ => none i

theorem mem_total [Fintype ι] {share : β → Multiset M} {m : M} :
    m ∈ total share party ↔ ∃ i, m ∈ share (party i) := by
  simp [total, Multiset.mem_sum]

theorem card_total [Fintype ι] (share : β → Multiset M) (party : ι → β) :
    (total share party).card = total (fun b => (share b).card) party := by
  simp [total, Multiset.card_sum]

theorem total_add [Fintype ι] [AddCommMonoid M] (first second : β → M) (party : ι → β) :
    total first party + total second party = total (fun b => first b + second b) party :=
  Finset.sum_add_distrib.symm

theorem total_le [Fintype ι] (share : β → Nat) (small : ∀ b, share b ≤ 1) (party : ι → β) :
    total share party ≤ Fintype.card ι := by
  refine (Finset.sum_le_card_nsmul _ _ 1 fun i _ => small (party i)).trans ?_
  simp

theorem le_total [Fintype ι] (share : β → Nat) (party : ι → β) (i : ι) : share (party i) ≤ total share party :=
  Finset.single_le_sum (f := fun j => share (party j)) (fun _ _ => Nat.zero_le _) (Finset.mem_univ i)

/-- One order in which two goroutines make their steps. -/
inductive Interleaves {α : Type} : List α → List α → List α → Prop
  | done : Interleaves [] [] []
  | left {a : α} {first second merged} : Interleaves first second merged → Interleaves (a :: first) second (a :: merged)
  | right {a : α} {first second merged} :
      Interleaves first second merged → Interleaves first (a :: second) (a :: merged)

theorem Interleaves.mem_iff {α : Type} {first second merged : List α} (interleaves : Interleaves first second merged)
    (a : α) : a ∈ merged ↔ a ∈ first ∨ a ∈ second := by
  induction interleaves with
  | done => simp
  | left _ ih => simp [ih, or_assoc]
  | right _ ih => simp [ih, or_left_comm]

theorem reaches_invariant {step : σ → σ → Prop} {first : σ} (inv : σ → Prop) (starts : inv first)
    (kept : ∀ s t, inv s → step s t → inv t) (reached : Relation.ReflTransGen step first s) : inv s := by
  induction reached with
  | refl => exact starts
  | tail _ moved ih => exact kept _ _ ih moved

end Machine
