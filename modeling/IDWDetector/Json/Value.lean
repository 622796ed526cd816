import IDWDetector.Machine.Run
import Mathlib.Data.List.Basic

namespace Json

abbrev Bytes := List (BitVec 8)

inductive Error
  | invalidCharacter
  | unexpectedEnd
  | wrongType
  | invalidInteger (input : Bytes)
  | missingPrefix
  | oddLength
  | emptyNumber
  | leadingZero
  | invalidHex
  | hexLength (got want : Nat)
  | outOfRange
  | missingField (name type : Bytes)
deriving DecidableEq, Repr

/-- A JSON value; numbers are left out. -/
inductive Value
  | null
  | bool (b : Bool)
  | str (text : Bytes)
  | arr (items : List Value)
  | obj (members : List (Bytes × Value))

def quote : BitVec 8 := 0x22
def comma : BitVec 8 := 0x2c
def colon : BitVec 8 := 0x3a

/-- A character that is written as it is: neither a quote, a backslash, a control character,
    a character of HTML nor a part of a longer one. -/
def plainByte (byte : BitVec 8) : Bool :=
  decide (0x20 ≤ byte.toNat ∧ byte.toNat < 0x7f ∧ byte ≠ quote ∧ byte ≠ 0x5c ∧ byte ≠ 0x3c ∧ byte ≠ 0x3e ∧ byte ≠ 0x26)

def PlainText (text : Bytes) : Prop := ∀ byte ∈ text, plainByte byte = true

def printString (text : Bytes) : Bytes := quote :: text ++ [quote]

mutual

/-- The bytes of `json.Marshal`, for texts that need no escapes. -/
def Value.print : Value → Bytes
  | .null => [0x6e, 0x75, 0x6c, 0x6c]
  | .bool true => [0x74, 0x72, 0x75, 0x65]
  | .bool false => [0x66, 0x61, 0x6c, 0x73, 0x65]
  | .str text => printString text
  | .arr [] => [0x5b, 0x5d]
  | .arr (item :: rest) => 0x5b :: (item.print ++ printItems rest)
  | .obj [] => [0x7b, 0x7d]
  | .obj ((name, value) :: rest) => 0x7b :: (printString name ++ colon :: (value.print ++ printMembers rest))

def printItems : List Value → Bytes
  | [] => [0x5d]
  | item :: rest => comma :: (item.print ++ printItems rest)

def printMembers : List (Bytes × Value) → Bytes
  | [] => [0x7d]
  | (name, value) :: rest => comma :: (printString name ++ colon :: (value.print ++ printMembers rest))

end

def parseString : Bytes → Except Error (Bytes × Bytes)
  | [] => .error .unexpectedEnd
  | byte :: rest =>
    if byte = quote then .ok ([], rest)
    else if plainByte byte then do
      let (text, rest) ← parseString rest
      .ok (byte :: text, rest)
    else .error .invalidCharacter

def parseName : Bytes → Except Error (Bytes × Bytes)
  | byte :: rest =>
    if byte = quote then do
      let (name, rest) ← parseString rest
      match rest with
      | byte :: rest => if byte = colon then .ok (name, rest) else .error .invalidCharacter
      | [] => .error .unexpectedEnd
    else .error .invalidCharacter
  | [] => .error .unexpectedEnd

mutual

def parse : ℕ → Bytes → Except Error (Value × Bytes)
  | 0, _ => .error .unexpectedEnd
  | fuel + 1, bytes =>
    match bytes with
    | 0x6e :: 0x75 :: 0x6c :: 0x6c :: rest => .ok (.null, rest)
    | 0x74 :: 0x72 :: 0x75 :: 0x65 :: rest => .ok (.bool true, rest)
    | 0x66 :: 0x61 :: 0x6c :: 0x73 :: 0x65 :: rest => .ok (.bool false, rest)
    | 0x22 :: rest => do
      let (text, rest) ← parseString rest
      .ok (.str text, rest)
    | 0x5b :: rest =>
      if rest.head? = some 0x5d then .ok (.arr [], rest.tail)
      else do
        let (item, rest) ← parse fuel rest
        let (items, rest) ← parseItems fuel rest
        .ok (.arr (item :: items), rest)
    | 0x7b :: rest =>
      if rest.head? = some 0x7d then .ok (.obj [], rest.tail)
      else do
        let (name, rest) ← parseName rest
        let (value, rest) ← parse fuel rest
        let (members, rest) ← parseMembers fuel rest
        .ok (.obj ((name, value) :: members), rest)
    | _ => .error .invalidCharacter

def parseItems : ℕ → Bytes → Except Error (List Value × Bytes)
  | 0, _ => .error .unexpectedEnd
  | fuel + 1, bytes =>
    match bytes with
    | 0x5d :: rest => .ok ([], rest)
    | 0x2c :: rest => do
      let (item, rest) ← parse fuel rest
      let (items, rest) ← parseItems fuel rest
      .ok (item :: items, rest)
    | _ => .error .invalidCharacter

def parseMembers : ℕ → Bytes → Except Error (List (Bytes × Value) × Bytes)
  | 0, _ => .error .unexpectedEnd
  | fuel + 1, bytes =>
    match bytes with
    | 0x7d :: rest => .ok ([], rest)
    | 0x2c :: rest => do
      let (name, rest) ← parseName rest
      let (value, rest) ← parse fuel rest
      let (members, rest) ← parseMembers fuel rest
      .ok ((name, value) :: members, rest)
    | _ => .error .invalidCharacter

end

def parseAll (bytes : Bytes) : Except Error Value := do
  let (value, rest) ← parse bytes.length bytes
  if rest = [] then .ok value else .error .invalidCharacter

mutual

def Value.Plain : Value → Prop
  | .str text => PlainText text
  | .arr items => PlainItems items
  | .obj members => PlainMembers members
  | _ => True

def PlainItems : List Value → Prop
  | [] => True
  | item :: rest => item.Plain ∧ PlainItems rest

def PlainMembers : List (Bytes × Value) → Prop
  | [] => True
  | (name, value) :: rest => PlainText name ∧ value.Plain ∧ PlainMembers rest

end

theorem plainItems_iff (items : List Value) : PlainItems items ↔ ∀ item ∈ items, item.Plain := by
  induction items with
  | nil => simp [PlainItems]
  | cons item rest ih => simp [PlainItems, ih]

theorem plainMembers_iff (members : List (Bytes × Value)) :
    PlainMembers members ↔ ∀ member ∈ members, PlainText member.1 ∧ member.2.Plain := by
  induction members with
  | nil => simp [PlainMembers]
  | cons member rest ih =>
    obtain ⟨name, value⟩ := member
    simp [PlainMembers, ih, and_assoc]

theorem quote_not_plain : plainByte quote = false := by decide

theorem parseString_append {text : Bytes} (plain : PlainText text) (rest : Bytes) :
    parseString (text ++ quote :: rest) = .ok (text, rest) := by
  induction text with
  | nil => rfl
  | cons byte text ih =>
    have printed : plainByte byte = true := plain byte List.mem_cons_self
    have other : byte ≠ quote := by
      rintro rfl
      rw [quote_not_plain] at printed
      cases printed
    rw [List.cons_append, parseString, if_neg other, if_pos printed,
      ih fun byte member => plain byte (List.mem_cons_of_mem _ member)]
    rfl

theorem parseName_append {name : Bytes} (plain : PlainText name) (rest : Bytes) :
    parseName (printString name ++ colon :: rest) = .ok (name, rest) := by
  have text := parseString_append plain (colon :: rest)
  rw [printString, List.cons_append, List.cons_append, parseName, if_pos rfl, List.append_assoc, List.singleton_append,
    text]
  rfl

theorem print_ne_nil (value : Value) : ∃ byte rest, value.print = byte :: rest ∧ byte ≠ 0x5d := by
  match value with
  | .null => exact ⟨_, _, rfl, by decide⟩
  | .bool true => exact ⟨_, _, rfl, by decide⟩
  | .bool false => exact ⟨_, _, rfl, by decide⟩
  | .str text => exact ⟨_, _, rfl, by decide⟩
  | .arr [] => exact ⟨_, _, rfl, by decide⟩
  | .arr (item :: rest) => exact ⟨_, _, by rw [Value.print], by decide⟩
  | .obj [] => exact ⟨_, _, rfl, by decide⟩
  | .obj ((name, value) :: rest) => exact ⟨_, _, by rw [Value.print], by decide⟩

theorem parse_arr (fuel : ℕ) {bytes : Bytes} (nonempty : bytes.head? ≠ some 0x5d) :
    parse (fuel + 1) (0x5b :: bytes) = (do
      let (item, rest) ← parse fuel bytes
      let (items, rest) ← parseItems fuel rest
      .ok (.arr (item :: items), rest)) :=
  if_neg nonempty

theorem parse_obj (fuel : ℕ) {bytes : Bytes} (nonempty : bytes.head? ≠ some 0x7d) :
    parse (fuel + 1) (0x7b :: bytes) = (do
      let (name, rest) ← parseName bytes
      let (value, rest) ← parse fuel rest
      let (members, rest) ← parseMembers fuel rest
      .ok (.obj ((name, value) :: members), rest)) :=
  if_neg nonempty

mutual

theorem parse_print : ∀ (value : Value) (fuel : ℕ) (rest : Bytes), value.Plain → value.print.length ≤ fuel →
    parse fuel (value.print ++ rest) = .ok (value, rest)
  | value, 0, rest, _, enough => by
    obtain ⟨byte, tail, shape, -⟩ := print_ne_nil value
    rw [shape] at enough
    cases enough
  | .null, fuel + 1, rest, _, _ => rfl
  | .bool true, fuel + 1, rest, _, _ => rfl
  | .bool false, fuel + 1, rest, _, _ => rfl
  | .str text, fuel + 1, rest, plain, _ => by
    rw [Value.Plain] at plain
    have text := parseString_append plain rest
    rw [Value.print, printString, List.cons_append, List.cons_append, List.append_assoc, List.singleton_append]
    show (parseString _ >>= _) = _
    rw [text]
    rfl
  | .arr [], fuel + 1, rest, _, _ => rfl
  | .arr (item :: items), fuel + 1, rest, plain, enough => by
    rw [Value.Plain, PlainItems] at plain
    rw [Value.print, List.length_cons, List.length_append] at enough
    have first := parse_print item fuel (printItems items ++ rest) plain.1 (by omega)
    have others := parseItems_print items fuel rest plain.2 (by omega)
    obtain ⟨byte, tail, shape, opened⟩ := print_ne_nil item
    have nonempty : (item.print ++ (printItems items ++ rest)).head? ≠ some 0x5d := by
      rw [shape]
      simpa using opened
    rw [Value.print, List.cons_append, List.append_assoc]
    rw [parse_arr fuel nonempty]
    simp only [Bind.bind, Except.bind, first, others]
  | .obj [], fuel + 1, rest, _, _ => rfl
  | .obj ((name, value) :: members), fuel + 1, rest, plain, enough => by
    rw [Value.Plain, PlainMembers] at plain
    rw [Value.print, List.length_cons, List.length_append, List.length_cons, List.length_append] at enough
    have named := parseName_append plain.1 (value.print ++ (printMembers members ++ rest))
    have first := parse_print value fuel (printMembers members ++ rest) plain.2.1 (by omega)
    have others := parseMembers_print members fuel rest plain.2.2 (by omega)
    have nonempty : (printString name ++
      colon :: (value.print ++ (printMembers members ++ rest))).head? ≠ some 0x7d := by
      show some quote ≠ some 0x7d
      decide
    rw [Value.print, List.cons_append, List.append_assoc, List.cons_append, List.append_assoc]
    rw [parse_obj fuel nonempty]
    simp only [Bind.bind, Except.bind, named, first, others]

theorem parseItems_print : ∀ (items : List Value) (fuel : ℕ) (rest : Bytes), PlainItems items →
    (printItems items).length ≤ fuel → parseItems fuel (printItems items ++ rest) = .ok (items, rest)
  | [], fuel + 1, rest, _, _ => rfl
  | item :: items, fuel + 1, rest, plain, enough => by
    rw [PlainItems] at plain
    rw [printItems, List.length_cons, List.length_append] at enough
    have first := parse_print item fuel (printItems items ++ rest) plain.1 (by omega)
    have others := parseItems_print items fuel rest plain.2 (by omega)
    rw [printItems, List.cons_append, List.append_assoc]
    show (parse fuel _ >>= _) = _
    simp only [Bind.bind, Except.bind, first, others]

theorem parseMembers_print : ∀ (members : List (Bytes × Value)) (fuel : ℕ) (rest : Bytes), PlainMembers members →
    (printMembers members).length ≤ fuel → parseMembers fuel (printMembers members ++ rest) = .ok (members, rest)
  | [], fuel + 1, rest, _, _ => rfl
  | (name, value) :: members, fuel + 1, rest, plain, enough => by
    rw [PlainMembers] at plain
    rw [printMembers, List.length_cons, List.length_append, List.length_cons, List.length_append] at enough
    have named := parseName_append plain.1 (value.print ++ (printMembers members ++ rest))
    have first := parse_print value fuel (printMembers members ++ rest) plain.2.1 (by omega)
    have others := parseMembers_print members fuel rest plain.2.2 (by omega)
    rw [printMembers, List.cons_append, List.append_assoc, List.cons_append, List.append_assoc]
    show (parseName _ >>= _) = _
    simp only [Bind.bind, Except.bind, named, first, others]

end

theorem parseAll_print {value : Value} (plain : value.Plain) : parseAll value.print = .ok value := by
  have parsed := parse_print value value.print.length [] plain (Nat.le_refl _)
  rw [List.append_nil] at parsed
  rw [parseAll, parsed]
  rfl

end Json
