import Mathlib.Data.List.Forall2

namespace Machine

variable {σ τ ι ν ε : Type}

/-- A machine that answers each input with a value, run on a list of inputs. -/
def run (step : σ → ι → Except ε (ν × σ)) : σ → List ι → Except ε (List ν × σ)
  | s, [] => .ok ([], s)
  | s, i :: rest => do
    let (value, s) ← step s i
    let (values, s) ← run step s rest
    .ok (value :: values, s)

/-- The guard holds of every input at the state in which the run reaches it. -/
def Along (step : σ → ι → Except ε (ν × σ)) (guard : σ → ι → Prop) : σ → List ι → Prop
  | _, [] => True
  | s, i :: rest => guard s i ∧ ∀ value s', step s i = .ok (value, s') → Along step guard s' rest

/-- Both computations fail, or both return and their results are related. -/
def Both {α β : Type} (rel : α → β → Prop) : Except ε α → Except ε β → Prop
  | .ok a, .ok b => rel a b
  | .error _, .error _ => True
  | _, _ => False

abbrev Agrees (rel : σ → τ → Prop) : Except ε (ν × σ) → Except ε (ν × τ) → Prop :=
  Both fun left right => left.1 = right.1 ∧ rel left.2 right.2

variable {α β : Type} {allowed : ε → Prop} {step : σ → ι → Except ε (ν × σ)} {values : List ν} {guard : σ → ι → Prop}
  {inputs : List ι} {step' : τ → ι → Except ε (ν × τ)} {rel : σ → τ → Prop} {s s' : σ} {t : τ} {i : ι}
  {computation : Except ε α} {next : α → Except ε β}

theorem bind_ok {result : β} :
    computation >>= next = .ok result ↔ ∃ a, computation = .ok a ∧ next a = .ok result := by
  cases computation with
  | error e => simp [Bind.bind, Except.bind]
  | ok a => simp [Bind.bind, Except.bind]

theorem exists_bind_ok {first later : Prop}
    (returns : (∃ a, computation = .ok a) ↔ first) (continues : ∀ a, (∃ b, next a = .ok b) ↔ later) :
    (∃ b, computation >>= next = .ok b) ↔ first ∧ later := by
  simp only [bind_ok]
  constructor
  · rintro ⟨b, a, here, there⟩
    exact ⟨returns.mp ⟨a, here⟩, (continues a).mp ⟨b, there⟩⟩
  · rintro ⟨holds, rest⟩
    obtain ⟨a, here⟩ := returns.mpr holds
    obtain ⟨b, there⟩ := (continues a).mpr rest
    exact ⟨b, a, here, there⟩

theorem exists_bind_pure {f : α → β} {holds : Prop}
    (returns : (∃ a, computation = .ok a) ↔ holds) : (∃ b, (computation >>= fun a => .ok (f a)) = .ok b) ↔ holds := by
  rw [exists_bind_ok returns fun a => iff_true_intro ⟨f a, rfl⟩, and_true]

theorem map_ok {f : α → β} {result : β} :
    computation.map f = .ok result ↔ ∃ a, computation = .ok a ∧ f a = result := by
  cases computation with
  | error e => exact ⟨nofun, nofun⟩
  | ok a => exact ⟨fun same => ⟨a, rfl, Except.ok.inj same⟩, fun ⟨_, found, same⟩ => by cases found; rw [← same]; rfl⟩

theorem mapM_ok {f : α → Except ε β} {inputs : List α} {outputs : List β} :
    inputs.mapM f = .ok outputs ↔ List.Forall₂ (fun a b => f a = .ok b) inputs outputs := by
  induction inputs generalizing outputs with
  | nil =>
    rw [List.mapM_nil, List.forall₂_nil_left_iff]
    exact ⟨fun same => (Except.ok.inj same).symm, fun same => same ▸ rfl⟩
  | cons a rest ih =>
    rw [List.mapM_cons, bind_ok, List.forall₂_cons_left_iff]
    constructor
    · rintro ⟨b, here, later⟩
      obtain ⟨tail, there, result⟩ := bind_ok.mp later
      exact ⟨b, tail, here, ih.mp there, (Except.ok.inj result).symm⟩
    · rintro ⟨b, tail, here, there, rfl⟩
      exact ⟨b, here, bind_ok.mpr ⟨tail, ih.mpr there, rfl⟩⟩

theorem mapM_total {f : α → Except ε β} {inputs : List α} (total : ∀ a ∈ inputs, ∃ b, f a = .ok b) :
    ∃ outputs, inputs.mapM f = .ok outputs := by
  induction inputs with
  | nil => exact ⟨[], rfl⟩
  | cons a rest ih =>
    obtain ⟨b, here⟩ := total a List.mem_cons_self
    obtain ⟨tail, there⟩ := ih fun other member => total other (List.mem_cons_of_mem a member)
    exact ⟨b :: tail, mapM_ok.mpr (.cons here (mapM_ok.mp there))⟩

section Loops

variable {step : σ → ι → Except ε σ} (inv : σ → Prop)

theorem foldlM_ok_iff {good : ι → Prop} (kept : ∀ s i s', inv s → step s i = .ok s' → inv s')
    (each : ∀ s i, inv s → ((∃ s', step s i = .ok s') ↔ good i)) (holds : inv s) (inputs : List ι) :
    (∃ s', inputs.foldlM step s = .ok s') ↔ ∀ i ∈ inputs, good i := by
  induction inputs generalizing s with
  | nil => exact ⟨fun _ => nofun, fun _ => ⟨s, rfl⟩⟩
  | cons i rest ih =>
    rw [List.forall_mem_cons, ← each s i holds]
    constructor
    · rintro ⟨s', ran⟩
      obtain ⟨middle, here, there⟩ := bind_ok.mp ran
      exact ⟨⟨middle, here⟩, (ih (kept s i middle holds here)).mp ⟨s', there⟩⟩
    · rintro ⟨⟨middle, here⟩, later⟩
      obtain ⟨s', there⟩ := (ih (kept s i middle holds here)).mpr later
      exact ⟨s', bind_ok.mpr ⟨middle, here, there⟩⟩

theorem foldlM_kept (kept : ∀ s i s', inv s → step s i = .ok s' → inv s') (holds : inv s)
    {inputs : List ι} (ran : inputs.foldlM step s = .ok s') : inv s' := by
  induction inputs generalizing s with
  | nil =>
    cases ran
    exact holds
  | cons i rest ih =>
    obtain ⟨middle, here, there⟩ := bind_ok.mp ran
    exact ih (kept s i middle holds here) there

theorem foldlM_view {β : Type} (view : σ → β → Prop) (notes : ι → β → Prop)
    (step_view : ∀ s i s', inv s → step s i = .ok s' → inv s' ∧ ∀ b, view s' b ↔ view s b ∨ notes i b)
    (holds : inv s) {inputs : List ι} (ran : inputs.foldlM step s = .ok s') :
    inv s' ∧ ∀ b, view s' b ↔ view s b ∨ ∃ i ∈ inputs, notes i b := by
  induction inputs generalizing s with
  | nil =>
    cases ran
    exact ⟨holds, fun b => by simp⟩
  | cons i rest ih =>
    obtain ⟨middle, here, there⟩ := bind_ok.mp ran
    obtain ⟨kept, added⟩ := step_view s i middle holds here
    obtain ⟨kept', added'⟩ := ih kept there
    refine ⟨kept', fun b => ?_⟩
    rw [added', added, or_assoc, List.exists_mem_cons_iff]

end Loops

/-- A computation that fails only with allowed errors and returns only good values. -/
def Ends {α : Type} (allowed : ε → Prop) (good : α → Prop) : Except ε α → Prop
  | .ok a => good a
  | .error e => allowed e

theorem Ends.bind {good : α → Prop} {good' : β → Prop} {next : α → Except ε β}
    (ends : Ends allowed good computation) (later : ∀ a, computation = .ok a → good a → Ends allowed good' (next a)) :
    Ends allowed good' (computation >>= next) := by
  cases computation with
  | error e => exact ends
  | ok a => exact later a rfl ends

theorem Ends.imp {α : Type} {allowed allowed' : ε → Prop} {good good' : α → Prop} {computation : Except ε α}
    (ends : Ends allowed good computation) (errors : ∀ e, allowed e → allowed' e) (values : ∀ a, good a → good' a) :
    Ends allowed' good' computation := by
  cases computation with
  | error e => exact errors e ends
  | ok a => exact values a ends

namespace Both

variable {α β γ δ : Type} {rel : α → β → Prop} {left : Except ε α} {right : Except ε β}

theorem cases {motive : Except ε α → Except ε β → Prop} (both : Both rel left right)
    (errors : ∀ e e', motive (.error e) (.error e'))
    (values : ∀ a b, left = .ok a → rel a b → motive (.ok a) (.ok b)) : motive left right := by
  cases left with
  | error e =>
    cases right with
    | error e' => exact errors e e'
    | ok b => exact both.elim
  | ok a =>
    cases right with
    | error e' => exact both.elim
    | ok b => exact values a b rfl both

theorem bind {rel' : γ → δ → Prop} {f : α → Except ε γ} {g : β → Except ε δ} (both : Both rel left right)
    (later : ∀ a b, left = .ok a → rel a b → Both rel' (f a) (g b)) : Both rel' (left >>= f) (right >>= g) :=
  both.cases (motive := fun left right => Both rel' (left >>= f) (right >>= g)) (fun _ _ => trivial) later

theorem map {rel' : γ → δ → Prop} {f : α → γ} {g : β → δ} (both : Both rel left right)
    (later : ∀ a b, rel a b → rel' (f a) (g b)) : Both rel' (left.map f) (right.map g) :=
  both.cases (motive := fun left right => Both rel' (left.map f) (right.map g)) (fun _ _ => trivial)
    fun a b _ => later a b

theorem imp {rel' : α → β → Prop} (both : Both rel left right) (weaker : ∀ a b, rel a b → rel' a b) :
    Both rel' left right :=
  both.cases (fun _ _ => trivial) fun a b _ => weaker a b

theorem foldlM {step : α → ι → Except ε α} {step' : β → ι → Except ε β}
    (each : ∀ a b i, rel a b → Both rel (step a i) (step' b i)) {a : α} {b : β} (start : rel a b) (inputs : List ι) :
    Both rel (inputs.foldlM step a) (inputs.foldlM step' b) := by
  induction inputs generalizing a b with
  | nil => exact start
  | cons i rest ih =>
    rw [List.foldlM_cons, List.foldlM_cons]
    exact (each a b i start).bind fun _ _ _ next => ih next

theorem ok {a : α} (both : Both rel left right) (found : left = .ok a) : ∃ b, right = .ok b ∧ rel a b := by
  subst found
  cases right with
  | error e => exact both.elim
  | ok b => exact ⟨b, rfl, both⟩

theorem ok_right {b : β} (both : Both rel left right) (found : right = .ok b) : ∃ a, left = .ok a ∧ rel a b := by
  subst found
  cases left with
  | error e => exact both.elim
  | ok a => exact ⟨a, rfl, both⟩

end Both

theorem toOption_eq_some {α : Type} {result : Except ε α} {a : α} (found : result.toOption = some a) :
    result = .ok a := by
  cases result with
  | error e => cases found
  | ok b => exact congrArg _ (Option.some.inj found)

theorem toOption_isSome {α : Type} {result : Except ε α} (some : result.toOption.isSome = true) :
    ∃ a, result = .ok a := by
  obtain ⟨a, found⟩ := Option.isSome_iff_exists.mp some
  exact ⟨a, toOption_eq_some found⟩

theorem toOption_any {α : Type} {result : Except ε α} {property : α → Bool}
    (holds : result.toOption.any property = true) : ∃ a, result = .ok a ∧ property a = true := by
  cases result with
  | error e => cases holds
  | ok a => exact ⟨a, rfl, holds⟩

theorem run_cons_ok {rest : List ι} (executed : run step s (i :: rest) = .ok (values, s')) :
    ∃ value middle tail, step s i = .ok (value, middle) ∧ run step middle rest = .ok (tail, s') ∧
      values = value :: tail := by
  obtain ⟨⟨value, middle⟩, first, later⟩ := bind_ok.mp executed
  obtain ⟨⟨tail, last⟩, second, result⟩ := bind_ok.mp later
  cases result
  exact ⟨value, middle, tail, first, second, rfl⟩

theorem run_along {inv : σ → Prop}
    (preserved : ∀ s i value s', guard s i → inv s → step s i = .ok (value, s') → inv s') {s s' : σ} (holds : inv s)
    (along : Along step guard s inputs) (executed : run step s inputs = .ok (values, s')) : inv s' := by
  induction inputs generalizing s values with
  | nil =>
    cases executed
    exact holds
  | cons i rest ih =>
    obtain ⟨value, middle, tail, first, later, -⟩ := run_cons_ok executed
    exact ih (preserved s i value middle along.1 holds first) (along.2 value middle first) later

theorem run_agrees (agrees : ∀ s t i, rel s t → guard s i → Agrees rel (step s i) (step' t i))
    (related : rel s t) (along : Along step guard s inputs) :
    Agrees rel (run step s inputs) (run step' t inputs) := by
  induction inputs generalizing s t with
  | nil => exact ⟨rfl, related⟩
  | cons i rest ih =>
    refine (agrees s t i related along.1).bind ?_
    rintro ⟨value, middle⟩ ⟨value', middle'⟩ first ⟨rfl, related'⟩
    refine (ih related' (along.2 value middle first)).bind ?_
    rintro ⟨values, last⟩ ⟨values', last'⟩ _ ⟨rfl, related''⟩
    exact ⟨rfl, related''⟩

theorem Along.of_forall (holds : ∀ i ∈ inputs, ∀ s, guard s i) (s : σ) : Along step guard s inputs := by
  induction inputs generalizing s with
  | nil => trivial
  | cons i rest ih =>
    refine ⟨holds i List.mem_cons_self s, ?_⟩
    intro value s' _
    exact ih (fun j member => holds j (List.mem_cons_of_mem i member)) s'

theorem run_invariant {inv : σ → Prop} (preserved : ∀ s i value s', inv s → step s i = .ok (value, s') → inv s')
    {s s' : σ} (holds : inv s) (executed : run step s inputs = .ok (values, s')) : inv s' := by
  have along : Along step (fun _ _ => True) s inputs := .of_forall (fun _ _ _ => trivial) s
  exact run_along (fun s i value s' _ => preserved s i value s') holds along executed

/-- A run ends well exactly if every step meets the guard under which it ends well. -/
theorem run_ends_iff {inv : σ → Prop} (exact : ∀ s i, inv s → (Ends allowed (fun _ => True) (step s i) ↔ guard s i))
    (preserved : ∀ s i value s', inv s → step s i = .ok (value, s') → inv s') (holds : inv s)
    (inputs : List ι) : Ends allowed (fun _ => True) (run step s inputs) ↔ Along step guard s inputs := by
  induction inputs generalizing s with
  | nil => exact Iff.rfl
  | cons i rest ih =>
    rw [run, Along, ← exact s i holds]
    cases first : step s i with
    | error e => exact ⟨fun ends => ⟨ends, nofun⟩, And.left⟩
    | ok result =>
      obtain ⟨value, middle⟩ := result
      have later := ih (preserved s i value middle holds first)
      show Ends allowed (fun _ => True) (Except.bind (run step middle rest) _) ↔ _
      cases tail : run step middle rest with
      | error e =>
        rw [tail] at later
        exact ⟨fun ends => ⟨trivial, by rintro _ _ ⟨⟩; exact later.mp ends⟩,
          fun along => later.mpr (along.2 value middle rfl)⟩
      | ok last =>
        rw [tail] at later
        exact ⟨fun _ => ⟨trivial, by rintro _ _ ⟨⟩; exact later.mp trivial⟩, fun _ => trivial⟩

/-- Every state that a run reaches is good exactly if every step meets the guard under which it leads to a good one. -/
theorem run_safe_iff {inv good : σ → Prop}
    (exact : ∀ s i, inv s → good s → (Ends allowed (fun answer => good answer.2) (step s i) ↔ guard s i))
    (preserved : ∀ s i value s', inv s → step s i = .ok (value, s') → inv s') (holds : inv s)
    (inputs : List ι) :
    (∀ k, Ends allowed (fun result => good result.2) (run step s (inputs.take k))) ↔
      good s ∧ Along step guard s inputs := by
  induction inputs generalizing s with
  | nil => simp [run, Ends, Along]
  | cons i rest ih =>
    have shift (k : Nat) : Ends allowed (fun result => good result.2) (run step s (i :: rest.take k)) ↔
        Ends allowed (fun answer => Ends allowed (fun result => good result.2) (run step answer.2 (rest.take k)))
          (step s i) := by
      rw [run]
      cases first : step s i with
      | error e => exact Iff.rfl
      | ok answer =>
        show Ends allowed _ (Except.bind (run step answer.2 (rest.take k)) _) ↔
          Ends allowed _ (run step answer.2 (rest.take k))
        cases run step answer.2 (rest.take k)
        all_goals exact Iff.rfl
    constructor
    · intro safe
      have start : good s := safe 0
      have first := (shift 0).mp (safe 1)
      refine ⟨start, (exact s i holds start).mp first, ?_⟩
      intro value s' here
      refine ((ih (preserved s i value s' holds here)).mp fun k => ?_).2
      have later := (shift k).mp (safe (k + 1))
      rwa [here] at later
    · rintro ⟨start, guarded, along⟩ k
      cases k with
      | zero => exact start
      | succ k =>
        rw [List.take_succ_cons, shift]
        have first := (exact s i holds start).mpr guarded
        cases here : step s i with
        | error e =>
          rw [here] at first
          exact first
        | ok answer =>
          rw [here] at first
          exact (ih (preserved s i answer.1 answer.2 holds here)).mpr ⟨first, along answer.1 answer.2 here⟩ k

theorem Along.transfer {guard' : τ → ι → Prop}
    (agrees : ∀ s t i, rel s t → guard s i → Agrees rel (step s i) (step' t i))
    (implied : ∀ s t i, rel s t → guard s i → guard' t i) (related : rel s t)
    (along : Along step guard s inputs) :
    Along step' guard' t inputs := by
  induction inputs generalizing s t with
  | nil => trivial
  | cons i rest ih =>
    refine ⟨implied s t i related along.1, ?_⟩
    intro value t' second
    obtain ⟨⟨value', s'⟩, first, rfl, related'⟩ := (agrees s t i related along.1).ok_right second
    exact ih related' (along.2 value' s' first)

/-- The machine that remembers its inputs, the last one first. -/
def remember (step : σ → ι → Except ε (ν × σ)) (memory : List ι × σ) (i : ι) : Except ε (ν × List ι × σ) :=
  (step memory.2 i).map fun result => (result.1, i :: memory.1, result.2)

theorem remember_ok {memory memory' : List ι × σ} {value : ν}
    (executed : remember step memory i = .ok (value, memory')) :
    step memory.2 i = .ok (value, memory'.2) ∧ memory'.1 = i :: memory.1 := by
  unfold remember at executed
  cases result : step memory.2 i with
  | error e =>
    rw [result] at executed
    cases executed
  | ok answer =>
    rw [result] at executed
    cases executed
    exact ⟨rfl, rfl⟩

theorem run_remember {inputs past : List ι} (executed : run step s inputs = .ok (values, s')) :
    run (remember step) (past, s) inputs = .ok (values, inputs.reverse ++ past, s') := by
  induction inputs generalizing s past values with
  | nil =>
    cases executed
    rfl
  | cons i rest ih =>
    obtain ⟨value, middle, tail, first, later, rfl⟩ := run_cons_ok executed
    have step : remember step (past, s) i = .ok (value, i :: past, middle) := by
      unfold remember
      rw [first]
      rfl
    refine bind_ok.mpr ⟨_, step, bind_ok.mpr ⟨_, ih later, ?_⟩⟩
    simp

theorem remember_agrees {past : List ι} (agrees : Agrees rel (step s i) (step' t i)) :
    Agrees (fun memory memory' => memory.1 = memory'.1 ∧ rel memory.2 memory'.2) (remember step (past, s) i)
      (remember step' (past, t) i) :=
  agrees.map fun _ _ related => ⟨related.1, rfl, related.2⟩

theorem Along.remember (along : Along step guard s inputs) (past : List ι) :
    Along (remember step) (fun memory i => guard memory.2 i) (past, s) inputs := by
  induction inputs generalizing s past with
  | nil => trivial
  | cons i rest ih =>
    refine ⟨along.1, ?_⟩
    rintro value ⟨past', s'⟩ executed
    obtain ⟨first, rfl⟩ := remember_ok executed
    exact ih (along.2 value s' first) _

theorem Along.imp {guard guard' : σ → ι → Prop} (along : Along step guard s inputs)
    (implied : ∀ s i, guard s i → guard' s i) : Along step guard' s inputs := by
  induction inputs generalizing s with
  | nil => trivial
  | cons i rest ih => exact ⟨implied s i along.1, fun value s' first => ih (along.2 value s' first)⟩

theorem Along.and {guard guard' : σ → ι → Prop} (along : Along step guard s inputs)
    (along' : Along step guard' s inputs) :
    Along step (fun s i => guard s i ∧ guard' s i) s inputs := by
  induction inputs generalizing s with
  | nil => trivial
  | cons i rest ih =>
    exact ⟨⟨along.1, along'.1⟩, fun value s' first => ih (along.2 value s' first) (along'.2 value s' first)⟩

end Machine
