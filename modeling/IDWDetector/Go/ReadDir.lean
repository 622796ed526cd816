import IDWDetector.Go.Strconv
import Mathlib.Data.Finset.Sort
import Mathlib.Data.Finset.Image
import Mathlib.Data.List.TakeWhile

namespace Go

/-- What `ioutil.ReadDir` returns for a directory: its names in the order of strings, which is that of their bytes. -/
structure ReadDir (names : Finset (List (BitVec 8))) (files : List (List (BitVec 8))) : Prop where
  mem_iff : ∀ name, name ∈ files ↔ name ∈ names
  sorted : files.Pairwise (· < ·)

theorem ReadDir.of_names {names : Finset (List (BitVec 8))} {files : List (List (BitVec 8))}
    (all : files.toFinset = names) (sorted : files.Pairwise (· < ·)) : ReadDir names files :=
  ⟨fun name => by rw [← all, List.mem_toFinset], sorted⟩

theorem ReadDir.nodup {names : Finset (List (BitVec 8))} {files : List (List (BitVec 8))}
    (listed : ReadDir names files) :
    files.Nodup := by
  refine listed.sorted.imp ?_
  intro name other less same
  rw [same] at less
  exact List.lt_irrefl other less

theorem append_lt {first second : List (BitVec 8)} (length : first.length = second.length) (less : first < second)
    (rest rest' : List (BitVec 8)) : first ++ rest < second ++ rest' := by
  induction first generalizing second with
  | nil =>
    rw [List.length_eq_zero_iff.mp length.symm] at less
    exact absurd less (List.lt_irrefl [])
  | cons byte tail ih =>
    obtain ⟨byte', tail', rfl⟩ := List.exists_cons_of_length_eq_add_one length.symm
    rw [List.cons_append, List.cons_append, List.cons_lt_cons_iff]
    rcases List.cons_lt_cons_iff.mp less with lower | ⟨same, later⟩
    · exact .inl lower
    · exact .inr ⟨same, ih (Nat.succ.inj length) later⟩

section Stopping

variable {α : Type} {less : α → α → Prop} {files : List α} {keep : α → Bool}

theorem rel_of_mem_takeWhile (sorted : files.Pairwise less) {a b : α} (taken : a ∈ files.takeWhile keep)
    (member : b ∈ files) (stops : keep b = false) : less a b := by
  rw [← @List.takeWhile_append_dropWhile _ keep files] at sorted member
  have apart := (List.pairwise_append.mp sorted).2.2
  rcases List.mem_append.mp member with kept | left
  · rw [List.mem_takeWhile_imp kept] at stops
    cases stops
  · exact apart a taken b left

/-- A loop that stops at the first refused element takes all others, exactly if those come first. -/
theorem takeWhile_eq_filter_iff [Std.Asymm less] (sorted : files.Pairwise less) :
    files.takeWhile keep = files.filter keep ↔
      ∀ a ∈ files, ∀ b ∈ files, keep a = true → keep b = false → less a b := by
  constructor
  · intro same a member b member' kept stops
    have taken : a ∈ files.takeWhile keep := by
      rw [same]
      exact List.mem_filter.mpr ⟨member, kept⟩
    exact rel_of_mem_takeWhile sorted taken member' stops
  · intro before
    induction files with
    | nil => rfl
    | cons first rest ih =>
      obtain ⟨head, tail⟩ := List.pairwise_cons.mp sorted
      cases kept : keep first with
      | true =>
        rw [List.takeWhile_cons_of_pos kept, List.filter_cons_of_pos kept, ih tail]
        intro a member b member'
        exact before a (List.mem_cons_of_mem _ member) b (List.mem_cons_of_mem _ member')
      | false =>
        have none : rest.filter keep = [] := by
          apply List.filter_eq_nil_iff.mpr
          intro a member accepted
          have later := before a (List.mem_cons_of_mem _ member) first List.mem_cons_self accepted kept
          exact Std.Asymm.asymm _ _ later (head a member)
        rw [List.takeWhile_cons_of_neg (by simp [kept]), List.filter_cons_of_neg (by simp [kept]), none]

theorem takeWhile_sublist_filter (files : List α) : (files.takeWhile keep).Sublist (files.filter keep) := by
  have kept : (files.takeWhile keep).filter keep = files.takeWhile keep :=
    List.filter_eq_self.mpr fun a member => List.mem_takeWhile_imp member
  rw [← kept]
  exact (List.takeWhile_sublist keep).filter keep

end Stopping

theorem eq_of_map_eq {α β : Type} [DecidableEq α] [Nontrivial β] {first second : List α}
    (same : ∀ read : α → β, first.map read = second.map read) : first = second := by
  obtain ⟨b, b', different⟩ := exists_pair_ne β
  induction first generalizing second with
  | nil => exact (List.map_eq_nil_iff.mp (same fun _ => b).symm).symm
  | cons a rest ih =>
    cases second with
    | nil => cases same fun _ => b
    | cons a' rest' =>
      have heads (read : α → β) := List.cons.inj (same read)
      have head : a' = a := by
        by_contra other
        have clash := (heads fun x => if x = a then b else b').1
        simp only [if_pos, if_neg other] at clash
        exact different clash
      rw [head, ih fun read => (heads read).2]

end Go
