import IDWDetector.Abi.Pack

namespace IDWDetector.Abi

open Rlp (wordBytes bytesNat)

variable {t : AbiType} {signed : Bool} {content : Bytes} {value : Value}

def AbiType.flat : AbiType → Bool
  | .slice _ => false
  | .array _ _ => false
  | .tuple _ => false
  | .function => false
  | _ => true

@[simp] theorem length_packNum (number : Int) : (packNum number).length = 32 := Rlp.length_wordBytes 32 _

theorem bytesNat_packNum (number : Int) : (bytesNat (packNum number) : Int) = number % 2 ^ 256 := by
  rw [packNum, Rlp.bytesNat_wordBytes]
  omega

theorem toBytes_of_elements (elements : value.elements = content.map fun byte => .machine false 8 byte.toNat) :
    value.toBytes = some content := by
  rw [Value.toBytes, elements]
  clear elements
  induction content with
  | nil => rfl
  | cons byte rest ih =>
    rw [List.map_cons, List.mapM_cons, ih]
    simp

section Words

variable {output : Bytes} {index : Nat}

theorem wordAt_of_prefix {word : Bytes} (length : word.length = 32) (starts : word <+: output.drop index) :
    wordAt output index = word ∧ index + 32 ≤ output.length := by
  have bound := starts.length_le
  rw [List.length_drop, length] at bound
  refine ⟨?_, by omega⟩
  rw [wordAt, ← length]
  exact List.prefix_iff_eq_take.mp starts |>.symm

theorem prefix_drop {first second : Bytes} (starts : first ++ second <+: output.drop index) :
    first <+: output.drop index ∧ second <+: output.drop (index + first.length) := by
  refine ⟨(List.prefix_append first second).trans starts, ?_⟩
  obtain ⟨rest, same⟩ := starts
  refine ⟨rest, ?_⟩
  rw [← List.drop_drop, ← same, List.append_assoc, List.drop_left]

end Words

structure PacksAs (t : AbiType) (value : Value) (word : Bytes) : Prop where
  packed : pack t (some value) = .ok word
  length : word.length = 32
  decoded : ∀ output index, wordAt output index = word → index + 32 ≤ output.length →
    toGoType t index output = .ok value

section Integers

variable {size : Nat} {number : Int}

theorem low_packNum (machine : machineSize size = true) :
    (bytesNat ((packNum number).drop ((packNum number).length - size / 8)) : Int) = number % 2 ^ size := by
  have cut (width : Nat) (inside : width ≤ 32) :
      (packNum number).drop ((packNum number).length - width) = wordBytes width (number % 2 ^ 256).toNat := by
    have split := Rlp.drop_wordBytes (32 - width) width (number % 2 ^ 256).toNat
    rw [Nat.sub_add_cancel inside] at split
    rw [length_packNum, packNum, split]
  rcases machineSize_cases machine with rfl | rfl | rfl | rfl
  all_goals
    rw [cut _ (by decide), Rlp.bytesNat_wordBytes]
    omega

theorem readInteger_machine (machine : machineSize size = true) (range : InBits signed size number) :
    readInteger signed size (packNum number) = .machine signed size number := by
  rw [readInteger, if_pos machine]
  simp only [low_packNum machine, Value.machine.injEq, true_and]
  cases signed with
  | true =>
    simp only [InBits, if_true] at range ⊢
    rcases machineSize_cases machine with rfl | rfl | rfl | rfl
    all_goals
      simp only [Int.bmod]
      omega
  | false =>
    exact Int.emod_eq_of_lt range.1 range.2

theorem readInteger_big (wide : machineSize size = false) (range : InBits signed 256 number) :
    readInteger signed size (packNum number) = .big number := by
  have value := bytesNat_packNum number
  rw [readInteger, if_neg (by simp [wide])]
  simp only [testBit_top (length_packNum number), Value.big.injEq]
  cases signed
  all_goals
    simp only [InBits, Bool.true_and, Bool.false_and, Bool.false_eq_true, decide_eq_true_eq, if_true, if_false]
      at range ⊢
    omega

end Integers

section Scalars

variable {size : Nat}

theorem pack_scalar (flat : t.flat = true) (checked : typeCheck t (some value) = .ok ()) :
    pack t (some value) = packElement t value := by
  rw [pack.eq_def, checked]
  cases t
  all_goals first | rfl | simp [AbiType.flat] at flat

theorem PacksAs.integer {number : Int} (flat : t.flat = true) (checked : typeCheck t (some value) = .ok ())
    (packs : packElement t value = .ok (packNum number)) (decodes : ∀ output index, ¬ output.length < index + 32 →
      toGoType t index output = .ok (readInteger signed size (wordAt output index)))
    (read : readInteger signed size (packNum number) = value) : PacksAs t value (packNum number) where
  packed := (pack_scalar flat checked).trans packs
  length := length_packNum number
  decoded output index here inside := by rw [decodes output index (by omega), here, read]

theorem packsAs_integer (signed : Bool) (typed : HasType (integerType signed size) value) :
    ∃ word, PacksAs (integerType signed size) value word := by
  have decodes (output : Bytes) (index : Nat) (inside : ¬ output.length < index + 32) :
      toGoType (integerType signed size) index output = .ok (readInteger signed size (wordAt output index)) := by
    rw [toGoType.eq_def, if_neg inside]
    cases signed
    all_goals rfl
  rcases hasType_integer_cases typed with ⟨number, rfl⟩ | ⟨number, rfl⟩
  · obtain ⟨machine, range⟩ := hasType_machine.mp typed
    have read := readInteger_machine machine range
    refine ⟨packNum number, ?_⟩
    cases signed
    all_goals
      exact .integer rfl (by simp [integerType, typeCheck, kindOf, Value.kind, AbiType.kind, machine]) rfl decodes read
  · obtain ⟨wide, range⟩ := hasType_big.mp typed
    have read := readInteger_big wide range
    refine ⟨packNum number, ?_⟩
    cases signed
    all_goals
      exact .integer rfl (by simp [integerType, typeCheck, kindOf, Value.kind, AbiType.kind, wide]) rfl decodes read

theorem packsAs_bool (value : Bool) : ∃ word, PacksAs .bool (.bool value) word := by
  refine ⟨packNum (if value then 1 else 0), ?_, length_packNum _, ?_⟩
  · rw [pack_scalar rfl rfl]
    cases value
    all_goals rfl
  · intro output index here inside
    rw [toGoType.eq_def, if_neg (by omega)]
    simp only [here]
    cases value
    all_goals rfl

theorem bytesNat_leftPad (addr : Address) : bytesNat (leftPadBytes (wordBytes 20 addr.toNat) 32) = addr.toNat := by
  have zeros : bytesNat (List.replicate (32 - 20) 0) = 0 := by decide
  have small : addr.toNat < 256 ^ 20 := addr.isLt
  rw [leftPadBytes, Rlp.length_wordBytes, Rlp.bytesNat_append, zeros, Rlp.bytesNat_wordBytes, Nat.zero_mul,
    Nat.zero_add, Nat.mod_eq_of_lt small]

theorem packsAs_address (addr : Address) : ∃ word, PacksAs .address (.address addr) word := by
  have content : (Value.address addr).toBytes = some (wordBytes 20 addr.toNat) := toBytes_of_elements rfl
  refine ⟨leftPadBytes (wordBytes 20 addr.toNat) 32, ?_, ?_, ?_⟩
  · rw [pack_scalar rfl (by simp [typeCheck, kindOf, Value.kind, AbiType.kind]), packElement, content]
  · rw [leftPadBytes, List.length_append, List.length_replicate, Rlp.length_wordBytes]
  · intro output index here inside
    rw [toGoType.eq_def, if_neg (by omega)]
    simp only [here, bytesNat_leftPad, BitVec.ofNat_toNat, BitVec.setWidth_eq]

theorem packsAs_fixedBytes {width : { width : Nat // 0 < width ∧ width ≤ 32 }} (length : content.length = width) :
    ∃ word, PacksAs (.fixedBytes width) (.fixedBytes content) word := by
  refine ⟨rightPadBytes content 32, ?_, ?_, ?_⟩
  · rw [pack_scalar rfl (by simp [typeCheck, kindOf, Value.kind, Value.elements, length]), packElement,
      toBytes_of_elements rfl]
  · simp only [rightPadBytes, List.length_append, List.length_replicate]
    omega
  · intro output index here inside
    rw [toGoType.eq_def, if_neg (by omega)]
    simp only [here, rightPadBytes, ← length, List.take_left]

end Scalars

section Rows

variable {output : Bytes} {index offset : Nat}

theorem lengthPrefixPointsTo_packed (here : wordAt output index = packNum offset)
    (starts : packBytesSlice content <+: output.drop offset) (short : output.length < 2 ^ 63) :
    lengthPrefixPointsTo index output = .ok (offset + 32, content.length) ∧
      (output.drop (offset + 32)).take content.length = content := by
  obtain ⟨first, second⟩ := prefix_drop starts
  obtain ⟨second, -⟩ := prefix_drop second
  obtain ⟨length, inside⟩ := wordAt_of_prefix (length_packNum _) first
  rw [length_packNum] at second
  have room := second.length_le
  rw [List.length_drop] at room
  have start : bytesNat (wordAt output index) = offset := by
    have value := bytesNat_packNum offset
    rw [here]
    omega
  have count : bytesNat (wordAt output (offset + 32 - 32)) = content.length := by
    have value := bytesNat_packNum content.length
    rw [Nat.add_sub_cancel, length]
    omega
  refine ⟨?_, (List.prefix_iff_eq_take.mp second).symm⟩
  rw [lengthPrefixPointsTo, start, if_neg (by omega), if_neg (by omega), count, if_neg (by omega), if_neg (by omega)]

end Rows

/-- The bytes that a value of a flat type is packed as, and decoded from: in place, or at an offset. -/
structure Coded (t : AbiType) (value : Value) (code : Bytes) : Prop where
  flat : t.flat = true
  packed : pack t (some value) = .ok code
  static : isDynamicType t = false → PacksAs t value code
  dynamic : isDynamicType t = true → ∀ output index (offset : Nat), wordAt output index = packNum offset →
    index + 32 ≤ output.length → code <+: output.drop offset → output.length < 2 ^ 63 →
      toGoType t index output = .ok value

theorem PacksAs.coded {word : Bytes} (packsAs : PacksAs t value word) (flat : t.flat = true)
    (static : isDynamicType t = false) : Coded t value word where
  flat := flat
  packed := packsAs.packed
  static := fun _ => packsAs
  dynamic dynamic := by simp [static] at dynamic

theorem coded_row {wrap : Bytes → Value} (flat : t.flat = true) (dynamic : isDynamicType t = true)
    (packed : pack t (some (wrap content)) = .ok (packBytesSlice content))
    (decodes : ∀ output index, ¬ output.length < index + 32 → toGoType t index output = do
      let (start, length) ← lengthPrefixPointsTo index output
      .ok (wrap ((output.drop start).take length))) : Coded t (wrap content) (packBytesSlice content) where
  flat := flat
  packed := packed
  static static := by simp [dynamic] at static
  dynamic := by
    intro _ output index offset here inside starts short
    obtain ⟨points, same⟩ := lengthPrefixPointsTo_packed here starts short
    rw [decodes output index (by omega), points]
    exact congrArg (fun content => Except.ok (wrap content)) same

theorem coded_string (content : Bytes) : Coded .string (.string content) (packBytesSlice content) := by
  refine coded_row rfl (by simp [isDynamicType]) ?_ fun output index inside => ?_
  · rw [pack_scalar rfl (by simp [typeCheck, kindOf, Value.kind, AbiType.kind]), packElement]
  · rw [toGoType.eq_def, if_neg inside]

theorem coded_bytes (content : Bytes) : Coded .bytes (.bytes content) (packBytesSlice content) := by
  refine coded_row rfl (by simp [isDynamicType]) ?_ fun output index inside => ?_
  · rw [pack_scalar rfl (by simp [typeCheck, kindOf, Value.kind, AbiType.kind]), packElement, toBytes_of_elements rfl]
  · rw [toGoType.eq_def, if_neg inside]

theorem exists_coded (flat : t.flat = true) (typed : HasType t value) : ∃ packed, Coded t value packed := by
  cases t
  case int size =>
    obtain ⟨word, packsAs⟩ := packsAs_integer true typed
    exact ⟨word, packsAs.coded rfl rfl⟩
  case uint size =>
    obtain ⟨word, packsAs⟩ := packsAs_integer false typed
    exact ⟨word, packsAs.coded rfl rfl⟩
  all_goals cases value
  all_goals first | simp only [HasType] at typed; done | skip
  case bool.bool value =>
    obtain ⟨word, packsAs⟩ := packsAs_bool value
    exact ⟨word, packsAs.coded rfl rfl⟩
  case string.string content => exact ⟨_, coded_string content⟩
  case address.address addr =>
    obtain ⟨word, packsAs⟩ := packsAs_address addr
    exact ⟨word, packsAs.coded rfl rfl⟩
  case fixedBytes.fixedBytes width content =>
    simp only [HasType] at typed
    obtain ⟨word, packsAs⟩ := packsAs_fixedBytes typed
    exact ⟨word, packsAs.coded rfl rfl⟩
  case bytes.bytes content => exact ⟨_, coded_bytes content⟩
  all_goals simp [AbiType.flat] at flat

section Layout

variable {types : List AbiType} {coded : List (Value × Bytes)}

def layout (types : List AbiType) (coded : List (Value × Bytes)) : List (Bool × Bytes) :=
  (types.map isDynamicType).zip (coded.map Prod.snd)

theorem packAll_coded (each : List.Forall₂ (fun t c => Coded t c.1 c.2) types coded) :
    packAll types ((coded.map Prod.fst).map some) = .ok (coded.map Prod.snd) := by
  induction each with
  | nil => rfl
  | cons here later ih => rw [List.map_cons, List.map_cons, packAll, here.packed, ih]; rfl

theorem headWords_flat (flat : t.flat = true) : headWords t = 1 ∧ getTypeSize t = 32 := by
  cases t
  all_goals first | exact ⟨rfl, by simp [getTypeSize]⟩ | simp [AbiType.flat] at flat

theorem totalSize_coded (each : List.Forall₂ (fun t c => Coded t c.1 c.2) types coded) :
    totalSize types = 32 * types.length := by
  induction each with
  | nil => rfl
  | cons here later ih =>
    rw [totalSize, ih, (headWords_flat here.flat).2, List.length_cons]
    omega

theorem layout_cons (t : AbiType) (types : List AbiType) (c : Value × Bytes) (coded : List (Value × Bytes)) :
    layout (t :: types) (c :: coded) = (isDynamicType t, c.2) :: layout types coded := rfl

variable (each : List.Forall₂ (fun t c => Coded t c.1 c.2) types coded)
include each

theorem length_headTail (offset : Nat) :
    (headTail offset (layout types coded)).1.length = 32 * types.length ∧
      (headTail offset (layout types coded)).2.length ≤ (coded.map fun c => c.2.length).sum := by
  induction each generalizing offset with
  | nil => exact ⟨rfl, Nat.le_refl _⟩
  | @cons t c types coded here later ih =>
    have before := ih offset
    have behind := ih (offset + c.2.length)
    rw [layout_cons, List.map_cons, List.sum_cons, List.length_cons]
    cases dynamic : isDynamicType t with
    | false =>
      simp only [headTail, List.length_append, (here.static dynamic).length]
      omega
    | true =>
      simp only [headTail, List.length_append, length_packNum]
      omega

theorem unpackFrom_headTail {output : Bytes} (short : output.length < 2 ^ 63) {position offset : Nat}
    (heads : (headTail offset (layout types coded)).1 <+: output.drop (32 * position))
    (tails : (headTail offset (layout types coded)).2 <+: output.drop offset) :
    unpackFrom types position output = .ok (coded.map Prod.fst) := by
  induction each generalizing position offset with
  | nil => rfl
  | @cons t c types coded here later ih =>
    rw [layout_cons] at heads tails
    have decoded : ∃ offset, toGoType t (32 * position) output = .ok c.1 ∧
        (headTail offset (layout types coded)).1 <+: output.drop (32 * (position + 1)) ∧
        (headTail offset (layout types coded)).2 <+: output.drop offset := by
      cases dynamic : isDynamicType t with
      | false =>
        have packsAs := here.static dynamic
        rw [dynamic, headTail] at heads tails
        obtain ⟨first, rest⟩ := prefix_drop heads
        obtain ⟨word, inside⟩ := wordAt_of_prefix packsAs.length first
        rw [packsAs.length] at rest
        exact ⟨offset, packsAs.decoded output _ word inside, rest, tails⟩
      | true =>
        rw [dynamic, headTail] at heads tails
        obtain ⟨first, rest⟩ := prefix_drop heads
        obtain ⟨word, inside⟩ := wordAt_of_prefix (length_packNum _) first
        obtain ⟨own, others⟩ := prefix_drop tails
        rw [length_packNum] at rest
        exact ⟨offset + c.2.length, here.dynamic dynamic output _ offset word inside own short, rest, others⟩
    obtain ⟨next, value, heads', tails'⟩ := decoded
    rw [unpackFrom, value, (headWords_flat here.flat).1]
    simp only [Bind.bind, Except.bind, ih heads' tails', List.map_cons]

theorem unpack_packArguments (short : 32 * types.length + (coded.map fun c => c.2.length).sum < 2 ^ 63) :
    ∃ data, packArguments types ((coded.map Prod.fst).map some) = .ok data ∧
      unpack types data = .ok (coded.map Prod.fst) := by
  obtain ⟨heads, tails⟩ := length_headTail each (totalSize types)
  refine ⟨assemble (totalSize types) (layout types coded), ?_, ?_⟩
  · rw [packArguments, if_neg (by simp [each.length_eq]), packAll_coded each]
    rfl
  · have size := totalSize_coded each
    rw [unpack, assemble]
    cases types with
    | nil =>
      cases each
      rfl
    | cons t types =>
      rw [List.length_cons] at heads
      rw [if_neg (List.ne_nil_of_length_pos (by rw [List.length_append]; omega))]
      refine unpackFrom_headTail each (by rw [List.length_append, heads]; rw [List.length_cons] at short; omega)
        (List.prefix_append _ _) ?_
      have cut : List.drop (totalSize (t :: types))
          ((headTail (totalSize (t :: types)) (layout (t :: types) coded)).1 ++
          (headTail (totalSize (t :: types)) (layout (t :: types) coded)).2) =
          (headTail (totalSize (t :: types)) (layout (t :: types) coded)).2 :=
        List.drop_left' (by rw [heads, size, List.length_cons])
      exact ⟨[], (List.append_nil _).trans cut.symm⟩

end Layout

end IDWDetector.Abi
