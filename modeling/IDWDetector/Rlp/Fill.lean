import IDWDetector.Rlp.Codec

namespace Rlp

variable {item : Item} {items : List Item} {α σ τ : Type}

abbrev Filler (σ : Type) := Item → σ → σ × Option Error

namespace Filler

def pointer (c : Codec α) (put : α → σ → σ) : Filler σ := fun item s =>
  match c.decode item with
  | .ok a => (put a s, none)
  | .error e => (s, some e)

/-- `decodeSliceElems`: the slice has already grown by the element that fails. -/
def elements (c : Codec α) (embed : α → τ) (zero : τ) : List Item → List τ × Option Error
  | [] => ([], none)
  | item :: items =>
    match c.decode item with
    | .error e => ([zero], some e)
    | .ok a =>
      let (as, err) := elements c embed zero items
      (embed a :: as, err)

def sliceField (c : Codec α) (embed : α → τ) (zero : τ) (put : List τ → σ → σ) : Filler σ
  | .str _, s => (s, some .expectedList)
  | .list items, s =>
    let (as, err) := elements c embed zero items
    (put as s, err)

def field (get : σ → τ) (put : τ → σ → σ) (filler : Filler τ) : Filler σ := fun item s =>
  let (t, err) := filler item (get s)
  (put t s, err)

def fields : List (Filler σ) → List Item → σ → σ × Option Error
  | [], [], s => (s, none)
  | [], _ :: _, s => (s, some .tooManyElements)
  | _ :: _, [], s => (s, some .tooFewElements)
  | filler :: fillers, item :: items, s =>
    match filler item s with
    | (s, some e) => (s, some e)
    | (s, none) => fields fillers items s

/-- `makeStructDecoder`. -/
def struct (fillers : List (Filler σ)) : Filler σ
  | .str _, s => (s, some .expectedList)
  | .list items, s => fields fillers items s

variable {s s' : σ} {c : Codec α} {embed : α → τ} {zero : τ} {fillers : List (Filler σ)}

theorem pointer_ok {put : α → σ → σ} :
    pointer c put item s = (s', none) ↔ ∃ a, c.decode item = .ok a ∧ s' = put a s := by
  unfold pointer
  cases c.decode item with
  | error e => simp
  | ok a => simp [eq_comm]

theorem elements_ok {result : List τ} :
    elements c embed zero items = (result, none) ↔
      ∃ as, c.decodeAll items = .ok as ∧ result = as.map embed := by
  induction items generalizing result with
  | nil => simp [elements, Codec.decodeAll, eq_comm]
  | cons item items ih =>
    rw [elements, Codec.decodeAll]
    cases c.decode item with
    | error e => simp [Bind.bind, Except.bind]
    | ok a =>
      simp only [Prod.mk.injEq, Machine.bind_ok]
      constructor
      · rintro ⟨rfl, done⟩
        obtain ⟨as, decoded, same⟩ := ih.mp (Prod.ext rfl done)
        exact ⟨a :: as, ⟨a, rfl, as, decoded, rfl⟩, congrArg (embed a :: ·) same⟩
      · rintro ⟨as, ⟨_, ⟨⟩, others, decoded, ⟨⟩⟩, rfl⟩
        rw [ih.mpr ⟨others, decoded, rfl⟩]
        exact ⟨rfl, rfl⟩

theorem sliceField_ok {put : List τ → σ → σ} :
    sliceField c embed zero put item s = (s', none) ↔
      ∃ as, c.slice.decode item = .ok as ∧ s' = put (as.map embed) s := by
  cases item with
  | str bytes => simp [sliceField, Codec.slice]
  | list items =>
    simp only [sliceField, Codec.slice, Prod.mk.injEq]
    constructor
    · rintro ⟨rfl, done⟩
      obtain ⟨as, decoded, same⟩ := elements_ok.mp (Prod.ext rfl done)
      exact ⟨as, decoded, congrArg (put · s) same⟩
    · rintro ⟨as, decoded, rfl⟩
      rw [elements_ok.mpr ⟨as, decoded, rfl⟩]
      exact ⟨rfl, rfl⟩

theorem field_ok {get : σ → τ} {put : τ → σ → σ} {filler : Filler τ} :
    field get put filler item s = (s', none) ↔ ∃ t, filler item (get s) = (t, none) ∧ s' = put t s := by
  unfold field
  cases filler item (get s) with
  | mk t err => cases err <;> simp [eq_comm]

theorem fields_cons_ok {filler : Filler σ} :
    fields (filler :: fillers) items s = (s', none) ↔
      ∃ item others middle, items = item :: others ∧ filler item s = (middle, none) ∧
        fields fillers others middle = (s', none) := by
  cases items with
  | nil => simp [fields]
  | cons item others =>
    rw [fields]
    cases step : filler item s with
    | mk middle err => cases err <;> simp [step]

theorem fields_nil_ok : fields [] items s = (s', none) ↔ items = [] ∧ s' = s := by
  cases items with
  | nil => simp [fields, eq_comm]
  | cons item others => simp [fields]

theorem struct_ok :
    struct fillers item s = (s', none) ↔ ∃ items, item = .list items ∧ fields fillers items s = (s', none) := by
  cases item with
  | str bytes => simp [struct]
  | list items => simp [struct]

end Filler

end Rlp
