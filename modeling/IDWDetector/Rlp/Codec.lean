import IDWDetector.Machine.Run
import IDWDetector.Rlp.Item

namespace Rlp

open Machine

variable {bytes : Bytes} {item : Item} {items : List Item} {α β σ τ : Type}

structure Codec (α : Type) where
  encode : α → Except Error Item
  decode : Item → Except Error α
  decode_encode : ∀ {a item}, encode a = .ok item → decode item = .ok a

namespace Codec

def encodeToBytes (c : Codec α) (a : α) : Except Error Bytes := do
  let item ← c.encode a
  item.encodeToBytes

def decodeBytes (c : Codec α) (bytes : Bytes) : Except Error α := do
  let item ← Rlp.decodeBytes bytes
  c.decode item

def Accepts (c : Codec α) (item : Item) : Prop := ∃ a, c.decode item = .ok a

def Writes (c : Codec α) (a : α) : Prop := ∃ item, c.encode a = .ok item

variable {c : Codec α}

theorem encodeToBytes_ok {a : α} (encoded : c.encodeToBytes a = .ok bytes) :
    ∃ item, c.encode a = .ok item ∧ Rlp.decodeBytes bytes = .ok item := by
  obtain ⟨item, written, sized⟩ := bind_ok.mp encoded
  exact ⟨item, written, decodeBytes_encodeToBytes sized⟩

theorem decodeBytes_encodeToBytes {a : α} (encoded : c.encodeToBytes a = .ok bytes) :
    c.decodeBytes bytes = .ok a := by
  obtain ⟨item, written, parsed⟩ := encodeToBytes_ok encoded
  exact bind_ok.mpr ⟨item, parsed, c.decode_encode written⟩

theorem decodeBytes_ok {a : α} (parsed : Rlp.decodeBytes bytes = .ok item) :
    c.decodeBytes bytes = .ok a ↔ c.decode item = .ok a := by
  rw [decodeBytes, parsed]
  exact Iff.rfl

def byteSlice : Codec Bytes where
  encode bytes := .ok (.str bytes)
  decode
    | .str bytes => .ok bytes
    | .list _ => .error .expectedString
  decode_encode := by
    rintro bytes item ⟨⟩
    rfl

def byteArray (bits width : ℕ) (whole : bits = 8 * width) : Codec (BitVec bits) where
  encode word := .ok (.str (wordBytes width word.toNat))
  decode
    | .str bytes =>
      if width < bytes.length then .error .stringTooLong
      else if bytes.length < width then .error .stringTooShort
      else .ok (BitVec.ofNat bits (bytesNat bytes))
    | .list _ => .error .expectedString
  decode_encode := by
    rintro word item ⟨⟩
    have bound : word.toNat < 256 ^ width := by
      have base : 256 ^ width = 2 ^ bits := by rw [whole, pow_mul]; norm_num
      rw [base]
      exact word.isLt
    simp [bytesNat_wordBytes, Nat.mod_eq_of_lt bound]

@[simp] theorem byteSlice_writes (bytes : Bytes) : byteSlice.Writes bytes := ⟨_, rfl⟩

@[simp] theorem byteArray_writes (bits width : ℕ) (whole : bits = 8 * width) (word : BitVec bits) :
    (byteArray bits width whole).Writes word := ⟨_, rfl⟩

def decodeUint (width : ℕ) : Item → Except Error ℕ
  | .str bytes =>
    if width < bytes.length then .error .uintOverflow
    else if bytes.head? = some 0 then .error .canonInt
    else .ok (bytesNat bytes)
  | .list _ => .error .expectedString

theorem natBytes_head (n : ℕ) : (natBytes n).head? ≠ some 0 := by
  cases split : natBytes n with
  | nil => simp
  | cons byte rest => simpa using natBytes_head_ne_zero split

theorem decodeUint_natBytes {width n : ℕ} (small : n < 256 ^ width) :
    decodeUint width (.str (natBytes n)) = .ok n := by
  have fits : ¬ width < (natBytes n).length := by
    have := (byteLen_le_iff n width).mpr small
    rw [length_natBytes]
    omega
  rw [decodeUint, if_neg fits, if_neg (natBytes_head n), bytesNat_natBytes]

def uint64 : Codec (BitVec 64) where
  encode word := .ok (.str (natBytes word.toNat))
  decode item := do
    let n ← decodeUint 8 item
    .ok (BitVec.ofNat 64 n)
  decode_encode := by
    rintro word item ⟨⟩
    rw [decodeUint_natBytes word.isLt]
    simp [Bind.bind, Except.bind]

def bool : Codec Bool where
  encode
    | true => .ok (.str [1])
    | false => .ok (.str [])
  decode item := do
    match ← decodeUint 1 item with
    | 0 => .ok false
    | 1 => .ok true
    | _ => .error .invalidBool
  decode_encode := by
    rintro (_ | _) item ⟨⟩
    · rfl
    · rfl

@[simp] theorem uint64_writes (word : BitVec 64) : uint64.Writes word := ⟨_, rfl⟩

@[simp] theorem bool_writes (b : Bool) : bool.Writes b := by
  cases b with
  | false => exact ⟨_, rfl⟩
  | true => exact ⟨_, rfl⟩

def bigInt : Codec ℤ where
  encode i := if i < 0 then .error .negativeInt else .ok (.str (natBytes i.toNat))
  decode
    | .str bytes => if bytes.head? = some 0 then .error .canonInt else .ok (bytesNat bytes)
    | .list _ => .error .expectedString
  decode_encode := by
    intro i item encoded
    split at encoded
    case isTrue => cases encoded
    case isFalse natural =>
      cases encoded
      simp only [if_neg (natBytes_head i.toNat), bytesNat_natBytes]
      rw [Int.toNat_of_nonneg (by omega)]

theorem bigInt_writes {i : ℤ} (natural : 0 ≤ i) : bigInt.Writes i := ⟨_, if_neg (by omega)⟩

def encodeAll (c : Codec α) : List α → Except Error (List Item)
  | [] => .ok []
  | a :: rest => do
    let item ← c.encode a
    let items ← encodeAll c rest
    .ok (item :: items)

def decodeAll (c : Codec α) : List Item → Except Error (List α)
  | [] => .ok []
  | item :: rest => do
    let a ← c.decode item
    let as ← decodeAll c rest
    .ok (a :: as)

theorem decodeAll_encodeAll {as : List α} (encoded : c.encodeAll as = .ok items) : c.decodeAll items = .ok as := by
  induction as generalizing items with
  | nil =>
    cases encoded
    rfl
  | cons a rest ih =>
    obtain ⟨item, first, later⟩ := bind_ok.mp encoded
    obtain ⟨others, second, result⟩ := bind_ok.mp later
    cases result
    apply bind_ok.mpr
    refine ⟨a, c.decode_encode first, ?_⟩
    exact bind_ok.mpr ⟨rest, ih second, rfl⟩

def slice (c : Codec α) : Codec (List α) where
  encode as := do
    let items ← c.encodeAll as
    .ok (.list items)
  decode
    | .list items => c.decodeAll items
    | .str _ => .error .expectedList
  decode_encode := by
    intro as item encoded
    obtain ⟨items, written, result⟩ := Machine.bind_ok.mp encoded
    cases result
    exact decodeAll_encodeAll written

theorem slice_writes {as : List α} (each : ∀ a ∈ as, c.Writes a) : c.slice.Writes as := by
  have all : ∃ items, c.encodeAll as = .ok items := by
    induction as with
    | nil => exact ⟨[], rfl⟩
    | cons a rest ih =>
      obtain ⟨item, first⟩ := each a List.mem_cons_self
      obtain ⟨items, others⟩ := ih fun b member => each b (List.mem_cons_of_mem _ member)
      exact ⟨item :: items, bind_ok.mpr ⟨item, first, bind_ok.mpr ⟨items, others, rfl⟩⟩⟩
  obtain ⟨items, written⟩ := all
  exact ⟨.list items, bind_ok.mpr ⟨items, written, rfl⟩⟩

/-- A pointer to a byte array in a field tagged as nil: an empty string stands for the nil pointer. -/
def nilString (bits width : ℕ) (whole : bits = 8 * width) (positive : 0 < width) :
    Codec (Option (BitVec bits)) where
  encode
    | none => .ok (.str [])
    | some word => (byteArray bits width whole).encode word
  decode
    | .str [] => .ok none
    | .list [] => .error .wrongKindOfEmptyValue
    | item => do
      let word ← (byteArray bits width whole).decode item
      .ok (some word)
  decode_encode := by
    rintro (_ | word) item encoded
    · cases encoded
      rfl
    · have decoded := (byteArray bits width whole).decode_encode encoded
      cases encoded
      have nonempty : wordBytes width word.toNat ≠ [] := by
        intro empty
        have := congrArg List.length empty
        rw [length_wordBytes, List.length_nil] at this
        omega
      split
      case h_1 _ same =>
        injection same with empty
        exact absurd empty nonempty
      case h_2 _ same => cases same
      case h_3 => exact Machine.bind_ok.mpr ⟨word, decoded, rfl⟩

@[simp] theorem nilString_writes (bits width : ℕ) (whole : bits = 8 * width) (positive : 0 < width)
    (word : Option (BitVec bits)) : (nilString bits width whole positive).Writes word := by
  cases word with
  | none => exact ⟨_, rfl⟩
  | some word => exact ⟨_, rfl⟩

end Codec

/-- The fields of a struct, read in order from the front of a list. -/
structure Fields (α : Type) where
  count : ℕ
  encode : α → Except Error (List Item)
  decode : List Item → Except Error (α × List Item)
  length_encode : ∀ {a items}, encode a = .ok items → items.length = count
  length_decode : ∀ {items a rest}, decode items = .ok (a, rest) → items.length = count + rest.length
  decode_encode : ∀ {a items} (rest), encode a = .ok items → decode (items ++ rest) = .ok (a, rest)

namespace Fields

def nil : Fields Unit where
  count := 0
  encode _ := .ok []
  decode items := .ok ((), items)
  length_encode := by
    rintro a items ⟨⟩
    rfl
  length_decode := by
    rintro items a rest ⟨⟩
    rw [Nat.zero_add]
  decode_encode := by
    rintro a items rest ⟨⟩
    rfl

def cons (c : Codec α) (fields : Fields β) : Fields (α × β) where
  count := fields.count + 1
  encode a := do
    let item ← c.encode a.1
    let items ← fields.encode a.2
    .ok (item :: items)
  decode
    | [] => .error .tooFewElements
    | item :: items => do
      let a ← c.decode item
      let (b, rest) ← fields.decode items
      .ok ((a, b), rest)
  length_encode := by
    intro a items encoded
    obtain ⟨item, first, later⟩ := Machine.bind_ok.mp encoded
    obtain ⟨others, second, result⟩ := Machine.bind_ok.mp later
    cases result
    rw [List.length_cons, fields.length_encode second]
  length_decode := by
    intro items a rest decoded
    cases items with
    | nil => cases decoded
    | cons item items =>
      obtain ⟨head, first, later⟩ := Machine.bind_ok.mp decoded
      obtain ⟨⟨tail, rest'⟩, second, result⟩ := Machine.bind_ok.mp later
      cases result
      rw [List.length_cons, fields.length_decode second]
      omega
  decode_encode := by
    intro a items rest encoded
    obtain ⟨item, first, later⟩ := Machine.bind_ok.mp encoded
    obtain ⟨others, second, result⟩ := Machine.bind_ok.mp later
    cases result
    apply Machine.bind_ok.mpr
    refine ⟨a.1, c.decode_encode first, ?_⟩
    exact Machine.bind_ok.mpr ⟨(a.2, rest), fields.decode_encode rest second, rfl⟩

def struct (fields : Fields α) (split : σ → α) (join : α → σ) (join_split : ∀ s, join (split s) = s) :
    Codec σ where
  encode s := do
    let items ← fields.encode (split s)
    .ok (.list items)
  decode
    | .str _ => .error .expectedList
    | .list items => do
      let (a, rest) ← fields.decode items
      match rest with
      | [] => .ok (join a)
      | _ :: _ => .error .tooManyElements
  decode_encode := by
    intro s item encoded
    obtain ⟨items, written, result⟩ := Machine.bind_ok.mp encoded
    cases result
    have decoded := fields.decode_encode [] written
    rw [List.append_nil] at decoded
    apply Machine.bind_ok.mpr
    refine ⟨(split s, []), decoded, ?_⟩
    exact congrArg Except.ok (join_split s)

variable {fields : Fields α} {split : σ → α} {join : α → σ} {join_split : ∀ s, join (split s) = s}

theorem struct_encode_ok {s : σ} :
    (fields.struct split join join_split).encode s = .ok item ↔
      ∃ items, item = .list items ∧ fields.encode (split s) = .ok items := by
  constructor
  · intro encoded
    obtain ⟨items, written, result⟩ := bind_ok.mp encoded
    cases result
    exact ⟨items, rfl, written⟩
  · rintro ⟨items, rfl, written⟩
    exact bind_ok.mpr ⟨items, written, rfl⟩

theorem struct_decode_ok {s : σ} :
    (fields.struct split join join_split).decode item = .ok s ↔
      ∃ items a, item = .list items ∧ fields.decode items = .ok (a, []) ∧ s = join a := by
  constructor
  · intro decoded
    cases item with
    | str bytes => cases decoded
    | list items =>
      obtain ⟨⟨a, rest⟩, read, result⟩ := bind_ok.mp decoded
      cases rest with
      | nil =>
        cases result
        exact ⟨items, a, rfl, read, rfl⟩
      | cons item others => cases result
  · rintro ⟨items, a, rfl, read, rfl⟩
    exact bind_ok.mpr ⟨(a, []), read, rfl⟩

theorem cons_encode_ok {c : Codec α} {fields : Fields β} {a : α × β} :
    (cons c fields).encode a = .ok items ↔
      ∃ item others, items = item :: others ∧ c.encode a.1 = .ok item ∧ fields.encode a.2 = .ok others := by
  constructor
  · intro encoded
    obtain ⟨item, first, later⟩ := bind_ok.mp encoded
    obtain ⟨others, second, result⟩ := bind_ok.mp later
    cases result
    exact ⟨item, others, rfl, first, second⟩
  · rintro ⟨item, others, rfl, first, second⟩
    exact bind_ok.mpr ⟨item, first, bind_ok.mpr ⟨others, second, rfl⟩⟩

theorem cons_decode_ok {c : Codec α} {fields : Fields β} {a : α} {b : β} {rest : List Item} :
    (cons c fields).decode items = .ok ((a, b), rest) ↔
      ∃ item others, items = item :: others ∧ c.decode item = .ok a ∧ fields.decode others = .ok (b, rest) := by
  constructor
  · intro decoded
    cases items with
    | nil => cases decoded
    | cons item others =>
      obtain ⟨head, first, later⟩ := bind_ok.mp decoded
      obtain ⟨⟨tail, rest'⟩, second, result⟩ := bind_ok.mp later
      cases result
      exact ⟨item, others, rfl, first, second⟩
  · rintro ⟨item, others, rfl, first, second⟩
    exact bind_ok.mpr ⟨a, first, bind_ok.mpr ⟨(b, rest), second, rfl⟩⟩

theorem nil_decode_ok {u : Unit} {rest : List Item} : nil.decode items = .ok (u, rest) ↔ items = rest := by
  simp [nil]

def Writes (fields : Fields α) (a : α) : Prop := ∃ items, fields.encode a = .ok items

@[simp] theorem nil_writes (u : Unit) : nil.Writes u := ⟨[], rfl⟩

@[simp] theorem cons_writes (c : Codec α) (fields : Fields β) (a : α) (b : β) :
    (cons c fields).Writes (a, b) ↔ c.Writes a ∧ fields.Writes b := by
  constructor
  · rintro ⟨items, encoded⟩
    obtain ⟨item, others, -, first, second⟩ := cons_encode_ok.mp encoded
    exact ⟨⟨item, first⟩, ⟨others, second⟩⟩
  · rintro ⟨⟨item, first⟩, ⟨others, second⟩⟩
    exact ⟨item :: others, cons_encode_ok.mpr ⟨item, others, rfl, first, second⟩⟩

@[simp] theorem struct_writes (s : σ) :
    (fields.struct split join join_split).Writes s ↔ fields.Writes (split s) := by
  constructor
  · rintro ⟨item, encoded⟩
    obtain ⟨items, -, written⟩ := struct_encode_ok.mp encoded
    exact ⟨items, written⟩
  · rintro ⟨items, written⟩
    exact ⟨.list items, struct_encode_ok.mpr ⟨items, rfl, written⟩⟩

theorem struct_rejects {fields' : Fields β} {split' : τ → β} {join' : β → τ} {join_split' : ∀ t, join' (split' t) = t}
    {s : σ} (differ : fields.count ≠ fields'.count)
    (encoded : (fields.struct split join join_split).encode s = .ok item) :
    ¬ (fields'.struct split' join' join_split').Accepts item := by
  rintro ⟨t, decoded⟩
  obtain ⟨items, rfl, written⟩ := struct_encode_ok.mp encoded
  obtain ⟨items', a, same, read, -⟩ := struct_decode_ok.mp decoded
  cases same
  have left := fields.length_encode written
  have right := fields'.length_decode read
  rw [List.length_nil] at right
  omega

end Fields

end Rlp
