import Mathlib.Data.List.Perm.Basic
import IDWDetector.Machine.Run

namespace Machine

variable {σ ι ε β : Type}

def gather (emit : ι → Except ε (List β)) : List ι → Except ε (List β)
  | [] => .ok []
  | i :: rest => do
    let first ← emit i
    let later ← gather emit rest
    .ok (first ++ later)

variable {emit : ι → Except ε (List β)} {emitted : List β} {inputs : List ι} {first second : List ι}

theorem foldlM_eq_gather {step : σ → ι → Except ε σ} {apply : σ → β → σ} (inv : σ → Prop)
    (steps : ∀ s i, inv s → step s i = (emit i).map (List.foldl apply s)) (kept : ∀ s b, inv s → inv (apply s b))
    {s : σ} (holds : inv s) (inputs : List ι) :
    inputs.foldlM step s = (gather emit inputs).map (List.foldl apply s) := by
  have along (emitted : List β) (s : σ) (holds : inv s) : inv (emitted.foldl apply s) := by
    induction emitted generalizing s with
    | nil => exact holds
    | cons b rest ih => exact ih (apply s b) (kept s b holds)
  induction inputs generalizing s with
  | nil => rfl
  | cons i rest ih =>
    rw [List.foldlM_cons, steps s i holds, gather]
    cases emitted : emit i with
    | error e => rfl
    | ok first =>
      have later := ih (along first s holds)
      simp only [Except.map, Bind.bind, Except.bind] at later ⊢
      rw [later]
      cases gather emit rest with
      | error e => rfl
      | ok more => simp only [List.foldl_append]

theorem gather_cons_ok {i : ι} {rest : List ι} :
    gather emit (i :: rest) = .ok emitted ↔
      ∃ first later, emit i = .ok first ∧ gather emit rest = .ok later ∧ emitted = first ++ later := by
  simp only [gather, bind_ok, Except.ok.injEq]
  constructor
  · rintro ⟨first, here, later, there, rfl⟩
    exact ⟨first, later, here, there, rfl⟩
  · rintro ⟨first, later, here, there, rfl⟩
    exact ⟨first, here, later, there, rfl⟩

theorem gather_flatMap {γ : Type} {view : β → List γ} {seen : ι → List γ}
    (each : ∀ i emitted, emit i = .ok emitted → emitted.flatMap view = seen i)
    (found : gather emit inputs = .ok emitted) : emitted.flatMap view = inputs.flatMap seen := by
  induction inputs generalizing emitted with
  | nil =>
    cases found
    rfl
  | cons i rest ih =>
    obtain ⟨first, later, here, there, rfl⟩ := gather_cons_ok.mp found
    rw [List.flatMap_append, List.flatMap_cons, each i first here, ih there]

theorem gather_append_ok :
    gather emit (first ++ second) = .ok emitted ↔
      ∃ left right, gather emit first = .ok left ∧ gather emit second = .ok right ∧ emitted = left ++ right := by
  induction first generalizing emitted with
  | nil => simp [gather]
  | cons i rest ih =>
    rw [List.cons_append, gather_cons_ok]
    constructor
    · rintro ⟨here, later, head, tail, rfl⟩
      obtain ⟨left, right, middle, last, rfl⟩ := ih.mp tail
      exact ⟨here ++ left, right, gather_cons_ok.mpr ⟨here, left, head, middle, rfl⟩, last, by simp⟩
    · rintro ⟨left, right, whole, last, rfl⟩
      obtain ⟨here, later, head, middle, rfl⟩ := gather_cons_ok.mp whole
      exact ⟨here, later ++ right, head, ih.mpr ⟨later, right, middle, last, rfl⟩, by simp⟩

theorem mem_gather (found : gather emit inputs = .ok emitted) (b : β) :
    b ∈ emitted ↔ ∃ i ∈ inputs, ∃ out, emit i = .ok out ∧ b ∈ out := by
  induction inputs generalizing emitted with
  | nil =>
    cases found
    simp
  | cons i rest ih =>
    obtain ⟨first, later, here, there, rfl⟩ := gather_cons_ok.mp found
    rw [List.mem_append, ih there]
    simp only [List.mem_cons, exists_eq_or_imp, here, Except.ok.injEq, exists_eq_left']

theorem gather_total (total : ∀ i ∈ inputs, ∃ out, emit i = .ok out) :
    ∃ emitted, gather emit inputs = .ok emitted := by
  induction inputs with
  | nil => exact ⟨[], rfl⟩
  | cons i rest ih =>
    obtain ⟨first, here⟩ := total i List.mem_cons_self
    obtain ⟨later, there⟩ := ih fun j member => total j (List.mem_cons_of_mem i member)
    exact ⟨first ++ later, gather_cons_ok.mpr ⟨first, later, here, there, rfl⟩⟩

theorem gather_silent {fails : ι → Prop} {e : ε} (failing : ∀ i, fails i → emit i = .error e)
    (silent : ∀ i, ¬ fails i → emit i = .ok []) (inputs : List ι) :
    (∃ i ∈ inputs, fails i) ∧ gather emit inputs = .error e ∨
      (∀ i ∈ inputs, ¬ fails i) ∧ gather emit inputs = .ok [] := by
  induction inputs with
  | nil => exact .inr ⟨nofun, rfl⟩
  | cons i rest ih =>
    by_cases here : fails i
    · refine .inl ⟨⟨i, List.mem_cons_self, here⟩, ?_⟩
      rw [gather, failing i here]
      rfl
    · have quiet := silent i here
      rcases ih with ⟨⟨j, member, there⟩, result⟩ | ⟨none, result⟩
      · refine .inl ⟨⟨j, List.mem_cons_of_mem i member, there⟩, ?_⟩
        rw [gather, quiet, result]
        rfl
      · refine .inr ⟨List.forall_mem_cons.mpr ⟨here, none⟩, ?_⟩
        rw [gather, quiet, result]
        rfl

theorem gather_perm (perm : first.Perm second) :
    ∀ emitted, gather emit first = .ok emitted → ∃ emitted', gather emit second = .ok emitted' ∧
      emitted.Perm emitted' := by
  induction perm with
  | nil => exact fun emitted found => ⟨emitted, found, .refl _⟩
  | cons i _ ih =>
    intro emitted found
    obtain ⟨head, tail, here, there, rfl⟩ := gather_cons_ok.mp found
    obtain ⟨tail', there', perm⟩ := ih tail there
    exact ⟨head ++ tail', gather_cons_ok.mpr ⟨head, tail', here, there', rfl⟩, perm.append_left head⟩
  | swap i j rest =>
    intro emitted found
    obtain ⟨one, others, here, there, rfl⟩ := gather_cons_ok.mp found
    obtain ⟨two, tail, here', there', rfl⟩ := gather_cons_ok.mp there
    refine ⟨two ++ (one ++ tail), gather_cons_ok.mpr ⟨two, one ++ tail, here', ?_, rfl⟩, ?_⟩
    · exact gather_cons_ok.mpr ⟨one, tail, here, there', rfl⟩
    · rw [← List.append_assoc, ← List.append_assoc]
      exact List.perm_append_comm.append_right tail
  | trans _ _ ih ih' =>
    intro emitted found
    obtain ⟨middle, found', perm⟩ := ih emitted found
    obtain ⟨last, found'', perm'⟩ := ih' middle found'
    exact ⟨last, found'', perm.trans perm'⟩

theorem gather_both (perm : first.Perm second) : Both List.Perm (gather emit first) (gather emit second) := by
  cases found : gather emit first with
  | ok emitted =>
    obtain ⟨emitted', found', perm'⟩ := gather_perm perm emitted found
    rw [found']
    exact perm'
  | error e =>
    cases found' : gather emit second with
    | error e' => trivial
    | ok emitted' =>
      obtain ⟨emitted, impossible, -⟩ := gather_perm perm.symm emitted' found'
      rw [found] at impossible
      cases impossible

section Grouping

variable {κ ι α β : Type} [DecidableEq κ]

section Lookup

variable [BEq κ] [LawfulBEq κ]

theorem lookup_toList {key : Option κ} {give : ι → Option β} {groups : List (κ × ι)}
    (distinct : (groups.map Prod.fst).Nodup) :
    (groups.flatMap fun group => if key = some group.1 then (give group.2).toList else []) =
      (key.bind fun key => (groups.lookup key).bind give).toList := by
  induction groups with
  | nil => cases key <;> rfl
  | cons group groups ih =>
    obtain ⟨own, i⟩ := group
    obtain ⟨fresh, distinct⟩ := List.nodup_cons.mp distinct
    rw [List.flatMap_cons, ih distinct]
    cases key with
    | none => rfl
    | some key =>
      by_cases here : key = own
      · subst here
        have missing : groups.lookup key = none := by
          rw [List.lookup_eq_none_iff]
          intro other member
          have different : key ≠ other.1 := fun same => fresh (List.mem_map.mpr ⟨other, member, same.symm⟩)
          simpa using different
        simp [List.lookup_cons, missing]
      · have other : (key == own) = false := beq_false_of_ne here
        simp [List.lookup_cons, other, here]

theorem group_perm (keyOf : α → Option κ) (give : ι → α → Option β) {groups : List (κ × ι)}
    (distinct : (groups.map Prod.fst).Nodup) (items : List α) :
    (groups.flatMap fun group => (items.filter fun a => keyOf a = some group.1).filterMap (give group.2)).Perm
      (items.filterMap fun a => (keyOf a).bind fun key => (groups.lookup key).bind fun i => give i a) := by
  induction items with
  | nil => simp
  | cons a items ih =>
    have each (group : κ × ι) : ((a :: items).filter fun a => keyOf a = some group.1).filterMap (give group.2) =
        (if keyOf a = some group.1 then (give group.2 a).toList else []) ++
          (items.filter fun a => keyOf a = some group.1).filterMap (give group.2) := by
      rw [List.filter_cons]
      by_cases here : keyOf a = some group.1
      · simp only [here, decide_true, if_true, List.filterMap_eq_flatMap_toList, List.flatMap_cons]
      · simp only [here, decide_false, Bool.false_eq_true, if_false, List.nil_append]
    simp only [each]
    refine (List.flatMap_append_perm groups _ _).symm.trans ?_
    rw [@lookup_toList _ _ _ _ _ _ _ (fun i => give i a) _ distinct,
      List.filterMap_eq_flatMap_toList, List.flatMap_cons]
    rw [List.filterMap_eq_flatMap_toList] at ih
    exact ih.append_left _

end Lookup

theorem partition_perm (keyOf : α → κ) {keys : List κ} (distinct : keys.Nodup) (items : List α) :
    (keys.flatMap fun key => items.filter fun a => keyOf a = key).Perm (items.filter fun a => keyOf a ∈ keys) := by
  induction keys with
  | nil => simp
  | cons key keys ih =>
    obtain ⟨fresh, distinct⟩ := List.nodup_cons.mp distinct
    have here : (items.filter fun a => keyOf a ∈ key :: keys).filter (fun a => keyOf a = key) =
        items.filter fun a => keyOf a = key := by
      rw [List.filter_filter]
      apply List.filter_congr
      intro a _
      by_cases same : keyOf a = key <;> simp [same]
    have later : (items.filter fun a => keyOf a ∈ key :: keys).filter (fun a => !decide (keyOf a = key)) =
        items.filter fun a => keyOf a ∈ keys := by
      rw [List.filter_filter]
      apply List.filter_congr
      intro a _
      by_cases same : keyOf a = key
      · simp [same, fresh]
      · simp [same]
    have whole := List.filter_append_perm (fun a => decide (keyOf a = key))
      (items.filter fun a => keyOf a ∈ key :: keys)
    rw [here, later] at whole
    rw [List.flatMap_cons]
    exact ((ih distinct).append_left _).trans whole

end Grouping

end Machine
