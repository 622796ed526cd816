import IDWDetector.Machine.Run

namespace Go

variable {ε α β ι σ : Type}

abbrev Source := Nat → Nat

abbrev Random (ε α : Type) := StateT Source (Except ε) α

namespace Random

def lift (result : Except ε α) : Random ε α := fun source => result.map fun a => (a, source)

/-- `rand.Int` and `rand.Intn`: a number below the bound, which must be positive. -/
def int (empty : ε) (bound : Nat) : Random ε Nat := fun source =>
  if bound = 0 then .error empty else .ok (source 0 % bound, fun index => source (index + 1))

def pick (empty outside : ε) (list : List α) : Random ε α := do
  let n ← int empty list.length
  lift (match list[n]? with
    | some a => .ok a
    | none => .error outside)

/-- A step on a drawn value. -/
def drawThen (draw : Random ε α) (step : σ → α × ι → Except ε σ) (s : σ) (i : ι) : Random ε σ := do
  let a ← draw
  lift (step s (a, i))

/-- Whatever is drawn, the computation ends in an allowed panic or returns a good value. -/
def Ends (allowed : ε → Prop) (good : α → Prop) (m : Random ε α) : Prop :=
  ∀ source, Machine.Ends allowed (fun drawn => good drawn.1) (m source)

def CanReturn (m : Random ε α) (a : α) : Prop := ∀ rest, ∃ source, m source = .ok (a, rest)

theorem bind_apply (m : Random ε α) (f : α → Random ε β) (source : Source) :
    (m >>= f) source = m source >>= fun drawn => f drawn.1 drawn.2 := rfl

theorem bind_ok {m : Random ε α} {f : α → Random ε β} {source : Source} {result : β × Source} :
    (m >>= f) source = .ok result ↔ ∃ a middle, m source = .ok (a, middle) ∧ f a middle = .ok result := by
  rw [bind_apply, Machine.bind_ok]
  simp

theorem lift_ok {result : Except ε α} {source : Source} {drawn : α × Source} :
    lift result source = .ok drawn ↔ ∃ a, result = .ok a ∧ (a, source) = drawn :=
  Machine.map_ok

theorem int_pos {bound : Nat} (positive : 0 < bound) (empty : ε) (source : Source) :
    int empty bound source = .ok (source 0 % bound, fun index => source (index + 1)) :=
  if_neg (by omega)

section Endings

variable {allowed : ε → Prop} {good : α → Prop} {m : Random ε α} {inputs : List ι} {a : α} {source : Source}
  {f : ι → Random ε β}

theorem Ends.of_ok (ends : Ends allowed good m) {rest : Source} (returned : m source = .ok (a, rest)) :
    good a := by
  have here := ends source
  rwa [returned] at here

theorem Ends.of_error (ends : Ends allowed good m) {e : ε} (failed : m source = .error e) :
    allowed e := by
  have here := ends source
  rwa [failed] at here

theorem Ends.imp {allowed' : ε → Prop} {good' : α → Prop} (ends : Ends allowed good m)
    (errors : ∀ e, allowed e → allowed' e) (values : ∀ a, good a → good' a) : Ends allowed' good' m :=
  fun source => (ends source).imp errors fun drawn => values drawn.1

theorem Ends.pure (holds : good a) : Ends allowed good (Pure.pure a : Random ε α) := fun _ => holds

theorem Ends.bind {f : α → Random ε β} {good' : β → Prop} (ends : Ends allowed good m)
    (next : ∀ a, good a → Ends allowed good' (f a)) : Ends allowed good' (m >>= f) := by
  intro source
  rw [bind_apply]
  exact (ends source).bind fun drawn _ holds => next drawn.1 holds drawn.2

theorem Ends.lift {result : Except ε α} (ends : Machine.Ends allowed good result) :
    Ends allowed good (Random.lift result) := by
  intro source
  cases result with
  | error e => exact ends
  | ok a => exact ends

theorem Ends.int {bound : Nat} (positive : 0 < bound) (empty : ε) :
    Ends allowed (· < bound) (Random.int empty bound) := by
  intro source
  rw [int_pos positive]
  exact Nat.mod_lt _ positive

theorem Ends.pick {list : List α} (nonempty : list ≠ []) (empty outside : ε) :
    Ends allowed (· ∈ list) (Random.pick empty outside list) := by
  refine (Ends.int (List.length_pos_iff.mpr nonempty) empty).bind fun n inside => .lift ?_
  rw [List.getElem?_eq_getElem inside]
  exact List.getElem_mem inside

theorem Ends.mapM {related : ι → β → Prop} (each : ∀ i ∈ inputs, Ends allowed (related i) (f i)) :
    Ends allowed (List.Forall₂ related inputs) (inputs.mapM f) := by
  induction inputs with
  | nil => exact Ends.pure .nil
  | cons i rest ih =>
    rw [List.mapM_cons]
    refine (each i List.mem_cons_self).bind fun b here => ?_
    refine (ih fun j member => each j (List.mem_cons_of_mem i member)).bind fun bs later => ?_
    exact Ends.pure (.cons here later)

theorem Ends.length_mapM (each : ∀ i ∈ inputs, Ends allowed (fun _ => True) (f i)) :
    Ends allowed (fun outputs => outputs.length = inputs.length) (inputs.mapM f) := by
  have all : Ends allowed (List.Forall₂ (fun _ _ => True) inputs) (inputs.mapM f) := Ends.mapM each
  exact all.imp (fun _ => id) fun outputs related => related.length_eq.symm

theorem Ends.foldlM {step : σ → ι → Random ε σ} {inv : σ → Prop}
    (kept : ∀ s, ∀ i ∈ inputs, inv s → Ends allowed inv (step s i)) {s : σ} (starts : inv s) :
    Ends allowed inv (inputs.foldlM step s) := by
  induction inputs generalizing s with
  | nil => exact Ends.pure starts
  | cons i rest ih =>
    rw [List.foldlM_cons]
    refine (kept s i List.mem_cons_self starts).bind fun s' here => ?_
    exact ih (fun t j member => kept t j (List.mem_cons_of_mem i member)) here

end Endings

theorem foldlM_drawThen_ok {draw : Random ε α} {step : σ → α × ι → Except ε σ} {inputs : List ι} {s s' : σ}
    {source rest : Source} :
    inputs.foldlM (drawThen draw step) s source = .ok (s', rest) ↔
      ∃ values, inputs.mapM (fun _ => draw) source = .ok (values, rest) ∧
        (values.zip inputs).foldlM step s = .ok s' := by
  induction inputs generalizing s source with
  | nil =>
    constructor
    · rintro ⟨⟩
      exact ⟨[], rfl, rfl⟩
    · rintro ⟨_, ⟨⟩, ⟨⟩⟩
      rfl
  | cons i inputs ih =>
    rw [List.foldlM_cons, List.mapM_cons, bind_ok]
    simp only [drawThen, bind_ok, lift_ok, ih]
    constructor
    · rintro ⟨middle, _, ⟨a, later, drawn, _, stepped, ⟨⟩⟩, values, others, folded⟩
      exact ⟨a :: values, ⟨a, _, drawn, values, rest, others, rfl⟩, Machine.bind_ok.mpr ⟨middle, stepped, folded⟩⟩
    · rintro ⟨_, ⟨a, later, drawn, values, _, others, ⟨⟩⟩, folded⟩
      obtain ⟨middle, stepped, folded⟩ := Machine.bind_ok.mp folded
      exact ⟨middle, _, ⟨a, _, drawn, middle, stepped, rfl⟩, values, others, folded⟩

section Returns

theorem CanReturn.pure (a : α) : CanReturn (Pure.pure a : Random ε α) a := fun rest => ⟨rest, rfl⟩

theorem CanReturn.bind {m : Random ε α} {f : α → Random ε β} {a : α} {b : β} (first : CanReturn m a)
    (next : CanReturn (f a) b) : CanReturn (m >>= f) b := by
  intro rest
  obtain ⟨middle, later⟩ := next rest
  obtain ⟨source, here⟩ := first middle
  exact ⟨source, bind_ok.mpr ⟨a, middle, here, later⟩⟩

theorem CanReturn.lift (a : α) : CanReturn (Random.lift (.ok a : Except ε α)) a := fun rest => ⟨rest, rfl⟩

theorem CanReturn.int {bound n : Nat} (inside : n < bound) (empty : ε) : CanReturn (Random.int empty bound) n := by
  intro rest
  refine ⟨fun index => if index = 0 then n else rest (index - 1), ?_⟩
  rw [int_pos (by omega)]
  simp [Nat.mod_eq_of_lt inside]

theorem CanReturn.pick {list : List α} {a : α} (member : a ∈ list) (empty outside : ε) :
    CanReturn (Random.pick empty outside list) a := by
  obtain ⟨n, inside, rfl⟩ := List.getElem_of_mem member
  refine (CanReturn.int inside empty).bind ?_
  rw [List.getElem?_eq_getElem inside]
  exact .lift _

theorem CanReturn.mapM {f : ι → Random ε β} {inputs : List ι} {outputs : List β}
    (each : List.Forall₂ (fun i b => CanReturn (f i) b) inputs outputs) : CanReturn (inputs.mapM f) outputs := by
  induction each with
  | nil => exact .pure []
  | cons here later ih =>
    rw [List.mapM_cons]
    exact here.bind (ih.bind (.pure _))

end Returns

end Random

end Go
