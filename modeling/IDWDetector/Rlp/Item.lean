import Mathlib.Data.Nat.Size
import Mathlib.Data.List.Induction
import Mathlib.Tactic.NormNum
import Mathlib.Tactic.Ring

namespace Rlp

abbrev Bytes := List (BitVec 8)

inductive Error
  | eof
  | valueTooLarge
  | canonSize
  | canonInt
  | uintOverflow
  | expectedString
  | expectedList
  | stringTooShort
  | stringTooLong
  | tooFewElements
  | tooManyElements
  | moreThanOneValue
  | invalidBool
  | wrongKindOfEmptyValue
  | negativeInt
  | outOfMemory
deriving DecidableEq, Repr

def bytesNat (bytes : Bytes) : ℕ := bytes.foldl (fun n byte => 256 * n + byte.toNat) 0

/-- The last `width` bytes of a number, the most significant one first. -/
def wordBytes : ℕ → ℕ → Bytes
  | 0, _ => []
  | width + 1, n => wordBytes width (n / 256) ++ [BitVec.ofNat 8 n]

def byteLen (n : ℕ) : ℕ := (n.size + 7) / 8

def natBytes (n : ℕ) : Bytes := wordBytes (byteLen n) n

@[simp] theorem length_wordBytes (width n : ℕ) : (wordBytes width n).length = width := by
  induction width generalizing n with
  | zero => rfl
  | succ width ih => simp [wordBytes, ih]

theorem bytesNat_concat (bytes : Bytes) (byte : BitVec 8) :
    bytesNat (bytes ++ [byte]) = 256 * bytesNat bytes + byte.toNat := by
  simp [bytesNat]

theorem bytesNat_wordBytes (width n : ℕ) : bytesNat (wordBytes width n) = n % 256 ^ width := by
  induction width generalizing n with
  | zero => simp [wordBytes, bytesNat, Nat.mod_one]
  | succ width ih =>
    rw [wordBytes, bytesNat_concat, ih, pow_succ', Nat.mod_mul, BitVec.toNat_ofNat]
    omega

theorem wordBytes_bytesNat (bytes : Bytes) : wordBytes bytes.length (bytesNat bytes) = bytes := by
  induction bytes using List.reverseRecOn with
  | nil => rfl
  | append_singleton bytes byte ih =>
    have quotient : (256 * bytesNat bytes + byte.toNat) / 256 = bytesNat bytes := by omega
    rw [List.length_append, List.length_singleton, wordBytes, bytesNat_concat, quotient, ih]
    congr 2
    apply BitVec.eq_of_toNat_eq
    rw [BitVec.toNat_ofNat]
    omega

theorem byteLen_le_iff (n width : ℕ) : byteLen n ≤ width ↔ n < 256 ^ width := by
  have base : 256 ^ width = 2 ^ (8 * width) := by rw [pow_mul]; norm_num
  rw [base, ← Nat.size_le, byteLen]
  omega

theorem lt_pow_byteLen (n : ℕ) : n < 256 ^ byteLen n := (byteLen_le_iff n (byteLen n)).mp (Nat.le_refl _)

theorem bytesNat_lt (bytes : Bytes) : bytesNat bytes < 256 ^ bytes.length := by
  rw [← wordBytes_bytesNat bytes, bytesNat_wordBytes, wordBytes_bytesNat]
  exact Nat.mod_lt _ (by positivity)

@[simp] theorem bytesNat_natBytes (n : ℕ) : bytesNat (natBytes n) = n := by
  rw [natBytes, bytesNat_wordBytes, Nat.mod_eq_of_lt (lt_pow_byteLen n)]

@[simp] theorem length_natBytes (n : ℕ) : (natBytes n).length = byteLen n := length_wordBytes _ _

theorem bytesNat_cons (byte : BitVec 8) (bytes : Bytes) :
    bytesNat (byte :: bytes) = byte.toNat * 256 ^ bytes.length + bytesNat bytes := by
  induction bytes using List.reverseRecOn with
  | nil => simp [bytesNat]
  | append_singleton bytes last ih =>
    rw [← List.cons_append, bytesNat_concat, bytesNat_concat, ih, List.length_append, List.length_singleton]
    ring

theorem bytesNat_append (first second : Bytes) :
    bytesNat (first ++ second) = bytesNat first * 256 ^ second.length + bytesNat second := by
  induction first with
  | nil => simp [bytesNat]
  | cons byte rest ih =>
    rw [List.cons_append, bytesNat_cons, bytesNat_cons, ih, List.length_append]
    ring

theorem drop_wordBytes (first second n : ℕ) : (wordBytes (first + second) n).drop first = wordBytes second n := by
  induction second generalizing n with
  | zero =>
    rw [Nat.add_zero, wordBytes]
    exact List.drop_of_length_le (Nat.le_of_eq (length_wordBytes first n))
  | succ second ih =>
    rw [← Nat.add_assoc, wordBytes, wordBytes, List.drop_append_of_le_length (by simp), ih]

theorem digit_lt_iff {first second base low low' : ℕ} (small : low < base) (small' : low' < base) :
    first * base + low < second * base + low' ↔ first < second ∨ first = second ∧ low < low' := by
  constructor
  · intro below
    rcases Nat.lt_trichotomy first second with less | rfl | more
    · exact .inl less
    · exact .inr ⟨rfl, by omega⟩
    · have carried : (second + 1) * base ≤ first * base := Nat.mul_le_mul_right base more
      rw [Nat.add_mul] at carried
      omega
  · rintro (less | ⟨rfl, less⟩)
    · have carried : (first + 1) * base ≤ second * base := Nat.mul_le_mul_right base less
      rw [Nat.add_mul] at carried
      omega
    · omega

theorem lt_iff_bytesNat_lt {first second : Bytes} (length : first.length = second.length) :
    first < second ↔ bytesNat first < bytesNat second := by
  induction first generalizing second with
  | nil =>
    cases List.length_eq_zero_iff.mp length.symm
    simp
  | cons byte rest ih =>
    cases second with
    | nil => cases length
    | cons byte' rest' =>
      have length' : rest.length = rest'.length := Nat.succ.inj length
      have small := bytesNat_lt rest
      rw [length'] at small
      rw [List.cons_lt_cons_iff, ih length', bytesNat_cons, bytesNat_cons, length',
        digit_lt_iff small (bytesNat_lt rest'), BitVec.lt_def, BitVec.toNat_inj]

theorem natBytes_head_ne_zero {n : ℕ} {byte : BitVec 8} {rest : Bytes} (split : natBytes n = byte :: rest) :
    byte ≠ 0 := by
  rintro rfl
  have length : byteLen n = rest.length + 1 := by rw [← length_natBytes, split, List.length_cons]
  have small : n < 256 ^ rest.length := by
    have value := bytesNat_natBytes n
    rw [split, bytesNat_cons] at value
    have bound := bytesNat_lt rest
    simp at value
    omega
  have short := (byteLen_le_iff n rest.length).mpr small
  omega

inductive Item
  | str (bytes : Bytes)
  | list (items : List Item)

/-- `puthead`: a size below 56 is added to the small tag, a larger one is written
    out after the large tag. -/
def puthead (smalltag largetag size : ℕ) : Bytes :=
  if size < 56 then [BitVec.ofNat 8 (smalltag + size)]
  else BitVec.ofNat 8 (largetag + byteLen size) :: natBytes size

/-- `encodeString`: a single byte below 128 is its own encoding. -/
def encodeString (bytes : Bytes) : Bytes :=
  match bytes with
  | [byte] => if byte.toNat < 128 then [byte] else puthead 0x80 0xB7 1 ++ [byte]
  | _ => puthead 0x80 0xB7 bytes.length ++ bytes

mutual

def Item.encode : Item → Bytes
  | .str bytes => encodeString bytes
  | .list items => puthead 0xC0 0xF7 (encodeItems items).length ++ encodeItems items

def encodeItems : List Item → Bytes
  | [] => []
  | item :: rest => item.encode ++ encodeItems rest

end

/-- `EncodeToBytes` of a value; a Go slice has fewer than `2 ^ 63` bytes. -/
def Item.encodeToBytes (item : Item) : Except Error Bytes :=
  if item.encode.length < 2 ^ 63 then .ok item.encode else .error .outOfMemory

inductive Kind
  | string
  | list
deriving DecidableEq, Repr

def takePayload (kind : Kind) (size : ℕ) (bytes : Bytes) : Except Error (Kind × Bytes × Bytes) :=
  if bytes.length < size then .error .valueTooLarge
  else .ok (kind, bytes.take size, bytes.drop size)

/-- `readUint` of a size: no leading zero byte, and no size that fits the small tag. -/
def readSize (width : ℕ) (bytes : Bytes) : Except Error (ℕ × Bytes) :=
  if bytes.length < width then .error .eof
  else if bytes.head? = some 0 ∨ bytesNat (bytes.take width) < 56 then .error .canonSize
  else .ok (bytesNat (bytes.take width), bytes.drop width)

/-- `readKind` together with the check that the value fits into the input. -/
def readKind : Bytes → Except Error (Kind × Bytes × Bytes)
  | [] => .error .eof
  | tag :: rest =>
    if tag.toNat < 0x80 then .ok (.string, [tag], rest)
    else if tag.toNat < 0xB8 then do
      let (kind, payload, rest) ← takePayload .string (tag.toNat - 0x80) rest
      -- a single byte below 128 has to be its own encoding
      match payload with
      | [byte] => if byte.toNat < 128 then .error .canonSize else .ok (kind, payload, rest)
      | _ => .ok (kind, payload, rest)
    else if tag.toNat < 0xC0 then do
      let (size, rest) ← readSize (tag.toNat - 0xB7) rest
      takePayload .string size rest
    else if tag.toNat < 0xF8 then takePayload .list (tag.toNat - 0xC0) rest
    else do
      let (size, rest) ← readSize (tag.toNat - 0xF7) rest
      takePayload .list size rest

mutual

/-- The first value of the input; each level of nesting and each list element
    takes one unit of fuel. -/
def parse : ℕ → Bytes → Except Error (Item × Bytes)
  | 0, _ => .error .outOfMemory
  | fuel + 1, bytes => do
    let (kind, payload, rest) ← readKind bytes
    match kind with
    | .string => .ok (.str payload, rest)
    | .list =>
      let items ← parseItems fuel payload
      .ok (.list items, rest)

def parseItems : ℕ → Bytes → Except Error (List Item)
  | 0, _ => .error .outOfMemory
  | _ + 1, [] => .ok []
  | fuel + 1, bytes => do
    let (item, rest) ← parse fuel bytes
    let items ← parseItems fuel rest
    .ok (item :: items)

end

/-- `DecodeBytes` up to the type of the target: the input holds exactly one value. -/
def decodeBytes (bytes : Bytes) : Except Error Item := do
  let (item, rest) ← parse (2 * bytes.length + 1) bytes
  if rest = [] then .ok item else .error .moreThanOneValue

theorem takePayload_append (kind : Kind) (payload rest : Bytes) :
    takePayload kind payload.length (payload ++ rest) = .ok (kind, payload, rest) := by
  simp [takePayload]

theorem readSize_natBytes {size : ℕ} (large : 56 ≤ size) (rest : Bytes) :
    readSize (byteLen size) (natBytes size ++ rest) = .ok (size, rest) := by
  have taken : (natBytes size ++ rest).take (byteLen size) = natBytes size := by
    rw [← length_natBytes, List.take_left]
  have dropped : (natBytes size ++ rest).drop (byteLen size) = rest := by
    rw [← length_natBytes, List.drop_left]
  have head : (natBytes size ++ rest).head? ≠ some 0 := by
    cases split : natBytes size with
    | nil =>
      have value := bytesNat_natBytes size
      rw [split] at value
      change 0 = size at value
      omega
    | cons byte tail => simpa using natBytes_head_ne_zero split
  have fits : ¬ (natBytes size ++ rest).length < byteLen size := by simp
  have canonical : ¬ ((natBytes size ++ rest).head? = some 0 ∨ bytesNat (natBytes size) < 56) := by
    rw [bytesNat_natBytes]
    rintro (zero | small)
    · exact head zero
    · omega
  rw [readSize, if_neg fits, taken, dropped, if_neg canonical, bytesNat_natBytes]

theorem byteLen_bounds {size : ℕ} (large : 56 ≤ size) (small : size < 2 ^ 64) :
    1 ≤ byteLen size ∧ byteLen size ≤ 8 := by
  constructor
  · by_contra short
    have := (byteLen_le_iff size 0).mp (by omega)
    omega
  · apply (byteLen_le_iff size 8).mpr
    exact small

theorem toNat_tag {n : ℕ} (small : n < 256) : (BitVec.ofNat 8 n).toNat = n := by
  rw [BitVec.toNat_ofNat]
  omega

theorem readKind_list {payload : Bytes} (small : payload.length < 2 ^ 64) (rest : Bytes) :
    readKind (puthead 0xC0 0xF7 payload.length ++ payload ++ rest) = .ok (.list, payload, rest) := by
  by_cases short : payload.length < 56
  · have tag := toNat_tag (n := 0xC0 + payload.length) (by omega)
    rw [puthead, if_pos short, List.singleton_append, List.cons_append, readKind, tag,
      if_neg (by omega), if_neg (by omega), if_neg (by omega), if_pos (by omega), Nat.add_sub_cancel_left]
    exact takePayload_append .list payload rest
  · obtain ⟨positive, bound⟩ := byteLen_bounds (Nat.le_of_not_lt short) small
    have tag := toNat_tag (n := 0xF7 + byteLen payload.length) (by omega)
    rw [puthead, if_neg short, List.cons_append, List.cons_append, readKind, tag, if_neg (by omega),
      if_neg (by omega), if_neg (by omega), if_neg (by omega), Nat.add_sub_cancel_left, List.append_assoc,
      readSize_natBytes (Nat.le_of_not_lt short)]
    exact takePayload_append .list payload rest

theorem readKind_string {bytes : Bytes} (small : bytes.length < 2 ^ 64) (rest : Bytes) :
    readKind (encodeString bytes ++ rest) = .ok (.string, bytes, rest) := by
  by_cases short : bytes.length < 56
  · have tag := toNat_tag (n := 0x80 + bytes.length) (by omega)
    have read := takePayload_append .string bytes rest
    match bytes with
    | [] => simp [encodeString, puthead, readKind, takePayload, Bind.bind, Except.bind]
    | [byte] =>
      by_cases ascii : byte.toNat < 128
      · simp [encodeString, ascii, readKind]
      · simp only [encodeString, if_neg ascii, puthead, List.length_singleton, Nat.reduceAdd] at tag read ⊢
        simp [readKind, takePayload, Bind.bind, Except.bind, ascii]
    | first :: second :: others =>
      simp only [encodeString]
      rw [puthead, if_pos short, List.singleton_append, List.cons_append, readKind, tag, if_neg (by omega),
        if_pos (by omega), Nat.add_sub_cancel_left, read]
      rfl
  · obtain ⟨positive, bound⟩ := byteLen_bounds (Nat.le_of_not_lt short) small
    have tag := toNat_tag (n := 0xB7 + byteLen bytes.length) (by omega)
    have long : encodeString bytes = puthead 0x80 0xB7 bytes.length ++ bytes := by
      match bytes with
      | [] => rfl
      | [byte] => exact absurd (Nat.succ_lt_succ (Nat.succ_pos 54)) short
      | first :: second :: others => rfl
    rw [long, puthead, if_neg short, List.cons_append, List.cons_append, readKind, tag, if_neg (by omega),
      if_neg (by omega), if_pos (by omega), Nat.add_sub_cancel_left, List.append_assoc,
      readSize_natBytes (Nat.le_of_not_lt short)]
    exact takePayload_append .string bytes rest

theorem puthead_length_pos (smalltag largetag size : ℕ) : 1 ≤ (puthead smalltag largetag size).length := by
  unfold puthead
  split <;> simp

theorem length_encodeString (bytes : Bytes) : max 1 bytes.length ≤ (encodeString bytes).length := by
  match bytes with
  | [] => simp [encodeString, puthead]
  | [byte] =>
    simp only [encodeString]
    split <;> simp
  | first :: second :: others =>
    have head := puthead_length_pos 0x80 0xB7 (first :: second :: others).length
    simp only [encodeString, List.length_append]
    omega

theorem encode_length_pos (item : Item) : 1 ≤ item.encode.length := by
  cases item with
  | str bytes =>
    have := length_encodeString bytes
    rw [Item.encode]
    omega
  | list items =>
    have := puthead_length_pos 0xC0 0xF7 (encodeItems items).length
    rw [Item.encode, List.length_append]
    omega

mutual

theorem parse_encode : ∀ (item : Item) (fuel : ℕ) (rest : Bytes), item.encode.length < 2 ^ 64 →
    2 * item.encode.length ≤ fuel → parse fuel (item.encode ++ rest) = .ok (item, rest)
  | item, 0, rest, _, enough => by
    have := encode_length_pos item
    omega
  | .str bytes, fuel + 1, rest, small, enough => by
    have length := length_encodeString bytes
    rw [Item.encode] at small ⊢
    rw [parse, readKind_string (by omega)]
    rfl
  | .list items, fuel + 1, rest, small, enough => by
    have head := puthead_length_pos 0xC0 0xF7 (encodeItems items).length
    rw [Item.encode, List.length_append] at small enough
    have inner := parseItems_encode items fuel (by omega) (by omega)
    rw [Item.encode, parse, readKind_list (by omega)]
    simp only [Bind.bind, Except.bind, inner]

theorem parseItems_encode : ∀ (items : List Item) (fuel : ℕ), (encodeItems items).length < 2 ^ 64 →
    2 * (encodeItems items).length + 1 ≤ fuel → parseItems fuel (encodeItems items) = .ok items
  | [], fuel + 1, _, _ => rfl
  | item :: items, fuel + 1, small, enough => by
    have positive := encode_length_pos item
    rw [encodeItems, List.length_append] at small enough
    have first := parse_encode item fuel (encodeItems items) (by omega) (by omega)
    have others := parseItems_encode items fuel (by omega) (by omega)
    cases shape : item.encode ++ encodeItems items with
    | nil =>
      have := congrArg List.length shape
      simp only [List.length_append, List.length_nil] at this
      omega
    | cons byte rest =>
      rw [encodeItems, shape, parseItems, ← shape, first]
      · simp only [Bind.bind, Except.bind, others]
      · rintro ⟨⟩

end

theorem decodeBytes_encodeToBytes {item : Item} {bytes : Bytes} (encoded : item.encodeToBytes = .ok bytes) :
    decodeBytes bytes = .ok item := by
  unfold Item.encodeToBytes at encoded
  split at encoded
  case isFalse => cases encoded
  case isTrue small =>
    cases encoded
    have parsed := parse_encode item (2 * item.encode.length + 1) [] (by omega) (by omega)
    rw [List.append_nil] at parsed
    rw [decodeBytes, parsed]
    rfl

end Rlp
