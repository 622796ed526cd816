import Mathlib.Algebra.BigOperators.Group.Finset.Basic
import Mathlib.Logic.Relation

namespace Machine.Traversal

variable {κ α : Type} [DecidableEq κ] [AddCommMonoid α]

/-- The loop over the successors of a node: those that are followed and not yet used
    are marked, and then entered. -/
def loop (enter : κ → Finset κ → Option (α × Finset κ)) (follow : κ → Bool) :
    List κ → α → Finset κ → Option (α × Finset κ)
  | [], total, used => some (total, used)
  | next :: rest, total, used =>
    if follow next = true ∧ next ∉ used then do
      let (found, used) ← enter next (insert next used)
      loop enter follow rest (total + found) used
    else loop enter follow rest total used

/-- A node adds its own value to what is found below it; `order` may be another one each time. -/
def visit (follow : κ → κ → Bool) (order : κ → Finset κ → List κ) (own : κ → α) :
    Nat → κ → Finset κ → Option (α × Finset κ)
  | 0, _, _ => none
  | fuel + 1, node, used => loop (visit follow order own fuel) (follow node) (order node used) (own node) used

section Gains

def gain (own : κ → α) (used used' : Finset κ) : α := ∑ node ∈ used' \ used, own node

theorem gain_self (own : κ → α) (used : Finset κ) : gain own used used = 0 := by
  rw [gain, Finset.sdiff_self, Finset.sum_empty]

theorem gain_trans (own : κ → α) {first second third : Finset κ} (grows : first ⊆ second) (grows' : second ⊆ third) :
    gain own first second + gain own second third = gain own first third := by
  have apart : Disjoint (third \ second) (second \ first) :=
    Finset.sdiff_disjoint.mono_right Finset.sdiff_subset
  have whole : third \ second ∪ second \ first = third \ first := Finset.sdiff_union_sdiff_cancel grows' grows
  rw [gain, gain, gain, ← whole, Finset.sum_union apart, add_comm]

theorem gain_insert (own : κ → α) {used : Finset κ} {node : κ} (fresh : node ∉ used) :
    gain own used (insert node used) = own node := by
  have single : insert node used \ used = {node} := by
    rw [Finset.insert_sdiff_of_notMem used fresh, Finset.sdiff_self]
    rfl
  rw [gain, single, Finset.sum_singleton]

end Gains

section Specification

variable (edge : κ → κ → Prop)

/-- From `used` to `used'` exactly the nodes were entered that can be reached from `starts`. -/
structure Explores (starts : κ → Prop) (used used' : Finset κ) : Prop where
  grows : used ⊆ used'
  started : ∀ node, starts node → node ∈ used'
  reached : ∀ node ∈ used', node ∉ used → ∃ start, starts start ∧ Relation.ReflTransGen edge start node
  closed : ∀ node ∈ used', node ∉ used → ∀ next, edge node next → next ∈ used'

variable {edge} {used used' used'' : Finset κ}

omit [DecidableEq κ] in
theorem Explores.none : Explores edge (fun _ => False) used used :=
  ⟨subset_rfl, fun _ never => never.elim, fun _ inside fresh => absurd inside fresh,
    fun _ inside fresh => absurd inside fresh⟩

omit [DecidableEq κ] in
theorem Explores.of_starts {starts starts' : κ → Prop} (explores : Explores edge starts used used')
    (more : ∀ node, starts node → starts' node) (known : ∀ node, starts' node → starts node ∨ node ∈ used) :
    Explores edge starts' used used' := by
  refine ⟨explores.grows, ?_, ?_, explores.closed⟩
  · intro node start
    rcases known node start with start | inside
    · exact explores.started node start
    · exact explores.grows inside
  · intro node inside fresh
    obtain ⟨start, begins, path⟩ := explores.reached node inside fresh
    exact ⟨start, more start begins, path⟩

theorem Explores.trans {starts starts' : κ → Prop} (first : Explores edge starts used used')
    (second : Explores edge starts' used' used'') :
    Explores edge (fun node => starts node ∨ starts' node) used used'' := by
  refine ⟨first.grows.trans second.grows, ?_, ?_, ?_⟩
  · rintro node (start | start)
    · exact second.grows (first.started node start)
    · exact second.started node start
  · intro node inside fresh
    by_cases earlier : node ∈ used'
    · obtain ⟨start, begins, path⟩ := first.reached node earlier fresh
      exact ⟨start, .inl begins, path⟩
    · obtain ⟨start, begins, path⟩ := second.reached node inside earlier
      exact ⟨start, .inr begins, path⟩
  · intro node inside fresh next step
    by_cases earlier : node ∈ used'
    · exact second.grows (first.closed node earlier fresh next step)
    · exact second.closed node inside earlier next step

theorem Explores.enter {node : κ} (explores : Explores edge (edge node) (insert node used) used') :
    Explores edge (· = node) used used' := by
  have inside : node ∈ used' := explores.grows (Finset.mem_insert_self node used)
  refine ⟨(Finset.subset_insert node used).trans explores.grows, ?_, ?_, ?_⟩
  · rintro other rfl
    exact inside
  · intro other found fresh
    by_cases same : other = node
    · exact ⟨node, rfl, same ▸ .refl⟩
    · have fresh' : other ∉ insert node used := by
        rw [Finset.mem_insert]
        exact fun member => member.elim same fresh
      obtain ⟨start, first, path⟩ := explores.reached other found fresh'
      exact ⟨node, rfl, .head first path⟩
  · intro other found fresh next step
    by_cases same : other = node
    · subst same
      exact explores.started next step
    · have fresh' : other ∉ insert node used := by
        rw [Finset.mem_insert]
        exact fun member => member.elim same fresh
      exact explores.closed other found fresh' next step

omit [DecidableEq κ] in
theorem Explores.mem_iff {root : κ} (explores : Explores edge (edge root) ∅ used) (node : κ) :
    node ∈ used ↔ Relation.TransGen edge root node := by
  constructor
  · intro inside
    obtain ⟨start, first, path⟩ := explores.reached node inside (Finset.notMem_empty node)
    exact .head' first path
  · intro path
    induction path with
    | single step => exact explores.started _ step
    | tail _ step ih => exact explores.closed _ ih (Finset.notMem_empty _) _ step

end Specification

section Running

variable {follow : κ → κ → Bool} {order : κ → Finset κ → List κ} {own : κ → α} {edge : κ → κ → Prop} {bound : Finset κ}

theorem loop_spec {enter : κ → Finset κ → Option (α × Finset κ)} {accept : κ → Bool} {fuel : Nat}
    (entered : ∀ node used, node ∈ used → (bound \ used).card < fuel → ∃ found used',
      enter node used = some (found, used') ∧ Explores edge (edge node) used used' ∧
        found = own node + gain own used used')
    (nodes : List κ) (inside : ∀ node ∈ nodes, accept node = true → node ∈ bound) (total : α) (used : Finset κ)
    (enough : (bound \ used).card ≤ fuel) :
    ∃ total' used', loop enter accept nodes total used = some (total', used') ∧
      Explores edge (fun node => node ∈ nodes ∧ accept node = true) used used' ∧
        total' = total + gain own used used' := by
  induction nodes generalizing total used with
  | nil =>
    refine ⟨total, used, rfl, ?_, by rw [gain_self, add_zero]⟩
    exact Explores.none.of_starts (fun _ never => never.elim) fun _ start => nomatch start.1
  | cons next rest ih =>
    have inside' : ∀ node ∈ rest, accept node = true → node ∈ bound :=
      fun node member => inside node (List.mem_cons_of_mem next member)
    rw [loop]
    split
    · rename_i fresh
      obtain ⟨accepted, fresh⟩ := fresh
      have smaller : (bound \ insert next used).card < (bound \ used).card := by
        apply Finset.card_lt_card
        rw [Finset.ssubset_iff_of_subset (Finset.sdiff_subset_sdiff subset_rfl (Finset.subset_insert next used))]
        have available := inside next List.mem_cons_self accepted
        exact ⟨next, by simp [available, fresh], by simp⟩
      obtain ⟨found, used₁, first, explores, value⟩ :=
        entered next (insert next used) (Finset.mem_insert_self next used)
        (by omega)
      have grows := (Finset.subset_insert next used).trans explores.grows
      have enough' : (bound \ used₁).card ≤ fuel :=
        (Finset.card_le_card (Finset.sdiff_subset_sdiff subset_rfl grows)).trans enough
      obtain ⟨total', used₂, later, explores', value'⟩ := ih inside' (total + found) used₁ enough'
      refine ⟨total', used₂, ?_, ?_, ?_⟩
      · rw [first]
        exact later
      · refine (explores.enter.trans explores').of_starts ?_ ?_
        · rintro node (rfl | ⟨member, accepted'⟩)
          · exact ⟨List.mem_cons_self, accepted⟩
          · exact ⟨List.mem_cons_of_mem next member, accepted'⟩
        · rintro node ⟨member, accepted'⟩
          rcases List.mem_cons.mp member with same | member
          · exact .inl (.inl same)
          · exact .inl (.inr ⟨member, accepted'⟩)
      · rw [value', value, add_assoc, ← gain_trans own grows explores'.grows,
          ← gain_trans own (Finset.subset_insert next used) explores.grows, gain_insert own fresh]
    · rename_i skipped
      obtain ⟨total', used', later, explores, value⟩ := ih inside' total used enough
      refine ⟨total', used', later, explores.of_starts ?_ ?_, value⟩
      · rintro node ⟨member, accepted⟩
        exact ⟨List.mem_cons_of_mem next member, accepted⟩
      · rintro node ⟨member, accepted⟩
        rcases List.mem_cons.mp member with same | member
        · subst same
          exact .inr (by_contra fun fresh => skipped ⟨accepted, fresh⟩)
        · exact .inl ⟨member, accepted⟩

variable (listed : ∀ node used next, edge node next ↔ next ∈ order node used ∧ follow node next = true)
  (bounded : ∀ node next, edge node next → next ∈ bound)

include listed bounded

/-- With enough fuel a visit returns, explores what can be reached from its node, and
    adds every node that it enters once. -/
theorem visit_spec (fuel : Nat) (node : κ) (used : Finset κ) (enough : (bound \ used).card < fuel) :
    ∃ found used', visit follow order own fuel node used = some (found, used') ∧
      Explores edge (edge node) used used' ∧ found = own node + gain own used used' := by
  induction fuel generalizing node used with
  | zero => exact absurd enough (Nat.not_lt_zero _)
  | succ fuel ih =>
    have inside : ∀ next ∈ order node used, follow node next = true → next ∈ bound :=
      fun next member followed => bounded node next ((listed node used next).mpr ⟨member, followed⟩)
    obtain ⟨found, used', ran, explores, value⟩ := loop_spec (fun node used _ => ih node used) (order node used) inside
      (own node) used (Nat.le_of_lt_succ enough)
    refine ⟨found, used', ran, ?_, value⟩
    exact explores.of_starts (fun next start => (listed node used next).mpr start)
      fun next step => .inl ((listed node used next).mp step)

/-- The loop that starts a traversal adds the value of every node that can be reached in
    one step or more, once. -/
theorem start_spec (fuel : Nat) (root : κ) (total : α) (enough : bound.card ≤ fuel) :
    ∃ used, loop (visit follow order own fuel) (follow root) (order root ∅) total ∅ =
        some (total + ∑ node ∈ used, own node, used) ∧
      ∀ node, node ∈ used ↔ Relation.TransGen edge root node := by
  have inside : ∀ next ∈ order root ∅, follow root next = true → next ∈ bound :=
    fun next member followed => bounded root next ((listed root ∅ next).mpr ⟨member, followed⟩)
  have entered : ∀ node used, node ∈ used → (bound \ used).card < fuel → ∃ found used',
      visit follow order own fuel node used = some (found, used') ∧ Explores edge (edge node) used used' ∧
        found = own node + gain own used used' := fun node used _ => visit_spec listed bounded fuel node used
  obtain ⟨total', used, ran, explores, value⟩ := loop_spec entered (order root ∅) inside total ∅
    ((Finset.card_le_card Finset.sdiff_subset).trans enough)
  have explores' : Explores edge (edge root) ∅ used :=
    explores.of_starts (fun next start => (listed root ∅ next).mpr start)
      fun next step => .inl ((listed root ∅ next).mp step)
  refine ⟨used, ?_, explores'.mem_iff⟩
  rw [ran, value, gain, Finset.sdiff_empty]

end Running

end Machine.Traversal
