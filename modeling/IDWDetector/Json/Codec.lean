import IDWDetector.Go.Map
import IDWDetector.Json.Value
import Mathlib.Data.List.Lex

namespace Json

open Go Machine

variable {α β σ κ ν : Type}

/-- The encoder and the decoder of a type. Exactly the valid values can be read again, and
    nothing else is read in their place. -/
structure Codec (α : Type) where
  valid : α → Prop
  encode : α → Value
  decode : Value → Except Error α
  plain : ∀ a, (encode a).Plain
  decode_encode : ∀ {a b}, decode (encode a) = .ok b ↔ valid a ∧ b = a

namespace Codec

variable {a b : α} {read : Bytes → Except Error α} {write : α → Bytes}

def marshal (c : Codec α) (a : α) : Bytes := (c.encode a).print

def unmarshal (c : Codec α) (bytes : Bytes) : Except Error α := do
  let value ← parseAll bytes
  c.decode value

theorem unmarshal_marshal {c : Codec α} : c.unmarshal (c.marshal a) = .ok b ↔ c.valid a ∧ b = a := by
  rw [unmarshal, marshal, parseAll_print (c.plain a)]
  exact c.decode_encode

theorem decode_valid {c : Codec α} (valid : c.valid a) : c.decode (c.encode a) = .ok a :=
  c.decode_encode.mpr ⟨valid, rfl⟩

def Proper (c : Codec α) : Prop := ∀ a, c.encode a ≠ .null

def text (write : α → Bytes) (read : Bytes → Except Error α) (valid : α → Prop)
    (plain : ∀ a, PlainText (write a)) (read_write : ∀ {a b}, read (write a) = .ok b ↔ valid a ∧ b = a) : Codec α where
  valid := valid
  encode a := .str (write a)
  decode
    | .str text => read text
    | _ => .error .wrongType
  plain := plain
  decode_encode := read_write

theorem text_proper {valid : α → Prop} {plain : ∀ a, PlainText (write a)}
    {read_write : ∀ {a b}, read (write a) = .ok b ↔ valid a ∧ b = a} :
    (text write read valid plain read_write).Proper :=
  fun _ => nofun

theorem read_total (total : ∀ a, read (write a) = .ok a) :
    read (write a) = .ok b ↔ True ∧ b = a := by
  rw [total, Except.ok.injEq, true_and, eq_comm]

def bool : Codec Bool where
  valid _ := True
  encode := .bool
  decode
    | .bool b => .ok b
    | _ => .error .wrongType
  plain _ := trivial
  decode_encode := by
    intro a b
    rw [Except.ok.injEq, true_and, eq_comm]

theorem bool_proper : bool.Proper := fun _ => nofun

def decodeAll (c : Codec α) : List Value → Except Error (List α)
  | [] => .ok []
  | value :: rest => do
    let a ← c.decode value
    let as ← decodeAll c rest
    .ok (a :: as)

theorem decodeAll_map {c : Codec α} {as bs : List α} :
    c.decodeAll (as.map c.encode) = .ok bs ↔ (∀ a ∈ as, c.valid a) ∧ bs = as := by
  induction as generalizing bs with
  | nil =>
    rw [List.map_nil, decodeAll, Except.ok.injEq, eq_comm]
    exact ⟨fun same => ⟨nofun, same⟩, And.right⟩
  | cons a rest ih =>
    rw [List.map_cons, decodeAll, List.forall_mem_cons]
    constructor
    · intro decoded
      obtain ⟨b, first, decoded⟩ := bind_ok.mp decoded
      obtain ⟨others, later, result⟩ := bind_ok.mp decoded
      obtain ⟨valid, rfl⟩ := c.decode_encode.mp first
      obtain ⟨allValid, rfl⟩ := ih.mp later
      cases result
      exact ⟨⟨valid, allValid⟩, rfl⟩
    · rintro ⟨⟨valid, allValid⟩, rfl⟩
      rw [decode_valid valid, ih.mpr ⟨allValid, rfl⟩]
      rfl

def slice (c : Codec α) : Codec (List α) where
  valid as := ∀ a ∈ as, c.valid a
  encode as := .arr (as.map c.encode)
  decode
    | .arr items => c.decodeAll items
    | .null => .ok []
    | _ => .error .wrongType
  plain as := by
    rw [Value.Plain, plainItems_iff]
    intro item member
    obtain ⟨a, _, rfl⟩ := List.mem_map.mp member
    exact c.plain a
  decode_encode := decodeAll_map

theorem slice_proper (c : Codec α) : c.slice.Proper := fun _ => nofun

def pointer (c : Codec α) (proper : c.Proper) : Codec (Option α) where
  valid a := ∀ b, a = some b → c.valid b
  encode
    | none => .null
    | some a => c.encode a
  decode
    | .null => .ok none
    | value => do
      let a ← c.decode value
      .ok (some a)
  plain
    | none => trivial
    | some a => c.plain a
  decode_encode := by
    intro a b
    cases a with
    | none =>
      rw [Except.ok.injEq, eq_comm]
      exact ⟨fun same => ⟨nofun, same⟩, And.right⟩
    | some a =>
      simp only
      split
      · rename_i null
        exact absurd null (proper a)
      constructor
      · intro decoded
        obtain ⟨b, first, result⟩ := Machine.bind_ok.mp decoded
        obtain ⟨valid, rfl⟩ := c.decode_encode.mp first
        cases result
        exact ⟨fun _ same => Option.some.inj same ▸ valid, rfl⟩
      · rintro ⟨valid, rfl⟩
        rw [decode_valid (valid a rfl)]
        rfl

def textLe (first second : Bytes) : Prop := first.map BitVec.toNat ≤ second.map BitVec.toNat

instance : DecidableRel textLe := fun _ _ => inferInstanceAs (Decidable (_ ≤ _))

section Map

variable {width : Nat} (name : BitVec width → Bytes)

def mapOrder (m : Map (BitVec width) ν) : List (BitVec width) :=
  m.sortedKeys.insertionSort fun first second => textLe (name first) (name second)

theorem mapOrder_enumerates (m : Map (BitVec width) ν) : Map.Enumerates (mapOrder name m) m :=
  m.sortedKeys_enumerates.of_perm (List.perm_insertionSort _ _).symm

def mapEntries (m : Map (BitVec width) ν) : List (BitVec width × ν) :=
  (mapOrder name m).filterMap fun key => (m.lookup key).map (key, ·)

theorem mem_mapEntries (m : Map (BitVec width) ν) (key : BitVec width) (v : ν) :
    (key, v) ∈ mapEntries name m ↔ m.lookup key = some v := by
  rw [mapEntries, List.mem_filterMap]
  constructor
  · rintro ⟨other, _, found⟩
    obtain ⟨w, found, same⟩ := Option.map_eq_some_iff.mp found
    cases same
    exact found
  · intro found
    refine ⟨key, ?_, by rw [found]; rfl⟩
    exact ((mapOrder_enumerates name m).mem_iff key).mpr ((Map.mem_keys_iff _ _).mpr ⟨v, found⟩)

theorem keys_mapEntries (m : Map (BitVec width) ν) : (mapEntries name m).map Prod.fst = mapOrder name m := by
  rw [mapEntries, List.map_filterMap, List.filterMap_congr (g := some), List.filterMap_some]
  intro key member
  have listed := ((mapOrder_enumerates name m).mem_iff key).mp member
  obtain ⟨v, found⟩ := (Map.mem_keys_iff _ _).mp listed
  simp [found]

theorem ofPairs_mapEntries (m : Map (BitVec width) ν) : Map.ofPairs (mapEntries name m) = m := by
  apply Map.ofPairs_eq
  · rw [keys_mapEntries]
    exact (mapOrder_enumerates name m).nodup
  · exact mem_mapEntries name m

def decodeMembers (readName : Bytes → Except Error κ) (c : Codec ν) :
    List (Bytes × Value) → Except Error (List (κ × ν))
  | [] => .ok []
  | (name, value) :: rest => do
    let key ← readName name
    let v ← c.decode value
    let pairs ← decodeMembers readName c rest
    .ok ((key, v) :: pairs)

theorem decodeMembers_map {name : κ → Bytes} {readName : Bytes → Except Error κ} {c : Codec ν}
    {pairs decoded : List (κ × ν)} (named : ∀ key, readName (name key) = .ok key) :
    decodeMembers readName c (pairs.map fun pair => (name pair.1, c.encode pair.2)) = .ok decoded ↔
      (∀ pair ∈ pairs, c.valid pair.2) ∧ decoded = pairs := by
  induction pairs generalizing decoded with
  | nil =>
    rw [List.map_nil, decodeMembers, Except.ok.injEq, eq_comm]
    exact ⟨fun same => ⟨nofun, same⟩, And.right⟩
  | cons pair rest ih =>
    obtain ⟨key, value⟩ := pair
    rw [List.map_cons, decodeMembers, List.forall_mem_cons, named]
    constructor
    · intro result
      obtain ⟨_, ⟨⟩, afterKey⟩ := bind_ok.mp result
      obtain ⟨v, first, afterValue⟩ := bind_ok.mp afterKey
      obtain ⟨others, later, done⟩ := bind_ok.mp afterValue
      obtain ⟨valid, rfl⟩ := c.decode_encode.mp first
      obtain ⟨allValid, rfl⟩ := ih.mp later
      exact ⟨⟨valid, allValid⟩, (Except.ok.inj done).symm⟩
    · rintro ⟨⟨valid, allValid⟩, rfl⟩
      rw [decode_valid valid, ih.mpr ⟨allValid, rfl⟩]
      rfl

/-- A map whose keys have texts of their own; null stands for the nil map. -/
def map (readName : Bytes → Except Error (BitVec width)) (c : Codec ν) (plainName : ∀ key, PlainText (name key))
    (named : ∀ key, readName (name key) = .ok key) : Codec (Map (BitVec width) ν) where
  valid m := ∀ key v, m.lookup key = some v → c.valid v
  encode m := .obj ((mapEntries name m).map fun pair => (name pair.1, c.encode pair.2))
  decode
    | .obj members => do
      let pairs ← decodeMembers readName c members
      .ok (Map.ofPairs pairs)
    | .null => .ok .empty
    | _ => .error .wrongType
  plain m := by
    rw [Value.Plain, plainMembers_iff]
    intro member listed
    obtain ⟨pair, _, rfl⟩ := List.mem_map.mp listed
    exact ⟨plainName pair.1, c.plain pair.2⟩
  decode_encode := by
    intro m m'
    constructor
    · intro result
      obtain ⟨pairs, decoded, result⟩ := Machine.bind_ok.mp result
      obtain ⟨valid, rfl⟩ := (decodeMembers_map named).mp decoded
      rw [ofPairs_mapEntries] at result
      cases result
      exact ⟨fun key v found => valid (key, v) ((mem_mapEntries name m key v).mpr found), rfl⟩
    · rintro ⟨valid, rfl⟩
      have entries : ∀ pair ∈ mapEntries name m', c.valid pair.2 := fun pair member =>
        valid pair.1 pair.2 ((mem_mapEntries name m' pair.1 pair.2).mp member)
      exact Machine.bind_ok.mpr ⟨_, (decodeMembers_map named).mpr ⟨entries, rfl⟩, by rw [ofPairs_mapEntries]⟩

theorem map_proper (readName : Bytes → Except Error (BitVec width)) (c : Codec ν)
    (plainName : ∀ key, PlainText (name key)) (named : ∀ key, readName (name key) = .ok key) :
    (map name readName c plainName named).Proper :=
  fun _ => nofun

end Map

end Codec

structure Field (α : Type) where
  valid : α → Prop
  write : α → Option Value
  read : Option Value → Except Error α
  plain : ∀ {a value}, write a = some value → value.Plain
  read_write : ∀ {a b}, read (write a) = .ok b ↔ valid a ∧ b = a

namespace Field

variable (c : Codec α) (proper : c.Proper)

def always (missing : Except Error α) : Field α where
  valid := c.valid
  write a := some (c.encode a)
  read
    | none | some .null => missing
    | some value => c.decode value
  plain := by
    rintro a value ⟨⟩
    exact c.plain a
  read_write := by
    intro a b
    split
    · rename_i absent
      cases absent
    · rename_i null
      exact absurd (Option.some.inj null) (proper a)
    · rename_i found
      cases found
      exact c.decode_encode

/-- A member without which the zero value stays. -/
def value (zero : α) : Field α := always c proper (.ok zero)

def required (name type : Bytes) : Field α :=
  always c proper (.error (.missingField name type))

def omitEmpty [DecidableEq α] (c : Codec α) (proper : c.Proper) (zero : α) (zeroValid : c.valid zero) : Field α where
  valid := c.valid
  write a := if a = zero then none else some (c.encode a)
  read := (value c proper zero).read
  plain := by
    intro a value written
    split at written
    · cases written
    · cases written
      exact c.plain a
  read_write := by
    intro a b
    split
    · rename_i empty
      subst empty
      show Except.ok a = Except.ok b ↔ _
      rw [Except.ok.injEq, eq_comm]
      exact ⟨fun same => ⟨zeroValid, same⟩, And.right⟩
    · exact (value c proper zero).read_write

def pointer : Field (Option α) where
  valid := (c.pointer proper).valid
  write a := some ((c.pointer proper).encode a)
  read
    | none => .ok none
    | some value => (c.pointer proper).decode value
  plain := by
    rintro a value ⟨⟩
    exact (c.pointer proper).plain a
  read_write := (c.pointer proper).decode_encode

def omitNil : Field (Option α) where
  valid := (c.pointer proper).valid
  write a := a.map c.encode
  read := (pointer c proper).read
  plain := by
    intro a value written
    obtain ⟨b, _, rfl⟩ := Option.map_eq_some_iff.mp written
    exact c.plain b
  read_write := by
    intro a b
    cases a with
    | none =>
      show Except.ok none = Except.ok b ↔ _
      rw [Except.ok.injEq, eq_comm]
      exact ⟨fun same => ⟨nofun, same⟩, And.right⟩
    | some a => exact (c.pointer proper).decode_encode (a := some a)

end Field

def find (name : Bytes) (members : List (Bytes × Value)) : Option Value :=
  members.foldl (fun found member => if member.1 = name then some member.2 else found) none

theorem foldl_find {name : Bytes} {members : List (Bytes × Value)} (absent : ∀ member ∈ members, member.1 ≠ name)
    (found : Option Value) :
    members.foldl (fun found member => if member.1 = name then some member.2 else found) found = found := by
  induction members generalizing found with
  | nil => rfl
  | cons member rest ih =>
    rw [List.foldl_cons, if_neg (absent member List.mem_cons_self)]
    exact ih (fun other listed => absent other (List.mem_cons_of_mem _ listed)) found

theorem find_between {name : Bytes} {before after : List (Bytes × Value)} (value : Option Value)
    (first : ∀ member ∈ before, member.1 ≠ name) (last : ∀ member ∈ after, member.1 ≠ name) :
    find name (before ++ (value.toList.map (name, ·) ++ after)) = value := by
  rw [find, List.foldl_append, foldl_find first, List.foldl_append, foldl_find last]
  cases value with
  | none => rfl
  | some value => exact if_pos rfl

/-- The members of a struct, in the order in which they are written. -/
structure Fields (α : Type) where
  names : List Bytes
  valid : α → Prop
  encode : α → List (Bytes × Value)
  decode : List (Bytes × Value) → Except Error α
  named : ∀ {a member}, member ∈ encode a → member.1 ∈ names
  plain : ∀ a, PlainMembers (encode a)
  decode_encode : ∀ {a b} before, (∀ member ∈ before, member.1 ∉ names) →
    (decode (before ++ encode a) = .ok b ↔ valid a ∧ b = a)

namespace Fields

def nil : Fields Unit where
  names := []
  valid _ := True
  encode _ := []
  decode _ := .ok ()
  named := nofun
  plain _ := trivial
  decode_encode _ _ := ⟨fun _ => ⟨trivial, rfl⟩, fun _ => rfl⟩

def freshName (name : Bytes) (names : List Bytes) : Bool := name.all plainByte && !names.contains name

theorem freshName_iff {name : Bytes} {names : List Bytes} :
    freshName name names = true ↔ PlainText name ∧ name ∉ names := by
  simp [freshName, PlainText]

def cons (name : Bytes) (field : Field α) (fields : Fields β) (fresh : freshName name fields.names = true) :
    Fields (α × β) where
  names := name :: fields.names
  valid a := field.valid a.1 ∧ fields.valid a.2
  encode a := (field.write a.1).toList.map (name, ·) ++ fields.encode a.2
  decode members := do
    let a ← field.read (find name members)
    let b ← fields.decode members
    .ok (a, b)
  named := by
    intro a member listed
    rcases List.mem_append.mp listed with first | later
    · obtain ⟨value, _, rfl⟩ := List.mem_map.mp first
      exact List.mem_cons_self
    · exact List.mem_cons_of_mem _ (fields.named later)
  plain a := by
    rw [plainMembers_iff]
    intro member listed
    rcases List.mem_append.mp listed with first | later
    · obtain ⟨value, written, rfl⟩ := List.mem_map.mp first
      exact ⟨(freshName_iff.mp fresh).1, field.plain (Option.mem_toList.mp written)⟩
    · exact (plainMembers_iff _).mp (fields.plain a.2) member later
  decode_encode := by
    intro a b before others
    have absent := (freshName_iff.mp fresh).2
    have first : ∀ member ∈ before, member.1 ≠ name := by
      intro member listed same
      exact others member listed (same ▸ List.mem_cons_self)
    have last : ∀ member ∈ fields.encode a.2, member.1 ≠ name := by
      intro member listed same
      exact absent (same ▸ fields.named listed)
    have rest {c : β} := fields.decode_encode (a := a.2) (b := c) (before ++ (field.write a.1).toList.map (name, ·)) (by
      intro member listed
      rcases List.mem_append.mp listed with earlier | own
      · exact fun later => others member earlier (List.mem_cons_of_mem _ later)
      · obtain ⟨value, _, rfl⟩ := List.mem_map.mp own
        exact absent)
    rw [List.append_assoc] at rest
    rw [find_between (field.write a.1) first last]
    constructor
    · intro decoded
      obtain ⟨x, head, decoded⟩ := Machine.bind_ok.mp decoded
      obtain ⟨y, tail, result⟩ := Machine.bind_ok.mp decoded
      obtain ⟨valid, rfl⟩ := field.read_write.mp head
      obtain ⟨allValid, rfl⟩ := rest.mp tail
      cases result
      exact ⟨⟨valid, allValid⟩, rfl⟩
    · rintro ⟨⟨valid, allValid⟩, rfl⟩
      rw [field.read_write.mpr ⟨valid, rfl⟩, rest.mpr ⟨allValid, rfl⟩]
      rfl

def struct (fields : Fields α) (split : σ → α) (join : α → σ) (join_split : ∀ s, join (split s) = s) : Codec σ where
  valid s := fields.valid (split s)
  encode s := .obj (fields.encode (split s))
  decode
    | .obj members => do
      let a ← fields.decode members
      .ok (join a)
    | _ => .error .wrongType
  plain s := fields.plain (split s)
  decode_encode := by
    intro s t
    have whole {a : α} := fields.decode_encode (a := split s) (b := a) [] nofun
    rw [List.nil_append] at whole
    constructor
    · intro decoded
      obtain ⟨a, read, result⟩ := Machine.bind_ok.mp decoded
      obtain ⟨valid, rfl⟩ := whole.mp read
      rw [join_split] at result
      cases result
      exact ⟨valid, rfl⟩
    · rintro ⟨valid, rfl⟩
      exact Machine.bind_ok.mpr ⟨_, whole.mpr ⟨valid, rfl⟩, by rw [join_split]⟩

theorem struct_proper {fields : Fields α} {split : σ → α} {join : α → σ} {join_split : ∀ s, join (split s) = s} :
    (fields.struct split join join_split).Proper :=
  fun _ => nofun

end Fields

end Json
