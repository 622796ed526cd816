import IDWDetector.Abi.Type
import IDWDetector.Machine.Run

namespace IDWDetector.Abi

open Machine

variable {word : Bytes} {value : Value}

inductive AbiError
  | emptyData
  | lengthInsufficient (length required : Nat)
  | offsetOverBoundary (offset length : Nat)
  | offsetTooLarge (offset : Nat)
  | lengthTooLarge (total : Nat)
  | arrayOverBoundary (length required : Nat)
  | badBool
  | badFunction (word : Bytes)
deriving DecidableEq

def readInteger (signed : Bool) (size : Nat) (word : Bytes) : Value :=
  if machineSize size then
    let low := Rlp.bytesNat (word.drop (word.length - size / 8))
    .machine signed size (if signed then Int.bmod low (2 ^ size) else low)
  else
    let number := Rlp.bytesNat word
    .big (if signed && number.testBit 255 then number - 2 ^ 256 else number)

def readBool (word : Bytes) : Except AbiError Value :=
  if (word.take 31).all (· = 0) then
    match word.drop 31 with
    | [0] => .ok (.bool false)
    | [1] => .ok (.bool true)
    | _ => .error .badBool
  else .error .badBool

def readFunctionType (word : Bytes) : Except AbiError Value :=
  if Rlp.bytesNat (word.drop 24) ≠ 0 then .error (.badFunction word) else .ok (.function (word.take 24))

def wordAt (output : Bytes) (index : Nat) : Bytes := (output.drop index).take 32

def lengthPrefixPointsTo (index : Nat) (output : Bytes) : Except AbiError (Nat × Nat) :=
  let offsetEnd := Rlp.bytesNat (wordAt output index) + 32
  if output.length < offsetEnd then .error (.offsetOverBoundary offsetEnd output.length)
  else if 2 ^ 63 ≤ offsetEnd then .error (.offsetTooLarge offsetEnd)
  else
    let length := Rlp.bytesNat (wordAt output (offsetEnd - 32))
    if 2 ^ 63 ≤ offsetEnd + length then .error (.lengthTooLarge (offsetEnd + length))
    else if output.length < offsetEnd + length then .error (.lengthInsufficient output.length (offsetEnd + length))
    else .ok (offsetEnd, length)

def tuplePointsTo (index : Nat) (output : Bytes) : Except AbiError Nat :=
  let offset := Rlp.bytesNat (wordAt output index)
  if output.length < offset then .error (.offsetOverBoundary offset output.length)
  else if 2 ^ 63 ≤ offset then .error (.offsetTooLarge offset)
  else .ok offset

def forEachUnpack (decode : Nat → Bytes → Except AbiError Value) (elemSize : Nat) (output : Bytes) (size : Nat) :
    Except AbiError (List Value) :=
  if output.length < 32 * size then .error (.arrayOverBoundary output.length (32 * size))
  else (List.range size).mapM fun j => decode (j * elemSize) output

mutual

def toGoType (t : AbiType) (index : Nat) (output : Bytes) : Except AbiError Value :=
  if output.length < index + 32 then .error (.lengthInsufficient output.length (index + 32))
  else
    match t with
    | .tuple elems =>
      if anyDynamic elems then do
        let start ← tuplePointsTo index output
        (unpackFrom elems 0 (output.drop start)).map .tuple
      else (unpackFrom elems 0 (output.drop index)).map .tuple
    | .slice elem => do
      let (start, length) ← lengthPrefixPointsTo index output
      (forEachUnpack (toGoType elem) (getTypeSize elem) (output.drop start) length).map .slice
    | .array size elem =>
      if isDynamicType elem then
        let offset := Rlp.bytesNat ((wordAt output index).drop 24)
        if output.length < offset then .error (.offsetOverBoundary offset output.length)
        else (forEachUnpack (toGoType elem) (getTypeSize elem) (output.drop offset) size).map .array
      else (forEachUnpack (toGoType elem) (getTypeSize elem) (output.drop index) size).map .array
    | .string => do
      let (start, length) ← lengthPrefixPointsTo index output
      .ok (.string ((output.drop start).take length))
    | .bytes => do
      let (start, length) ← lengthPrefixPointsTo index output
      .ok (.bytes ((output.drop start).take length))
    | .int size => .ok (readInteger true size (wordAt output index))
    | .uint size => .ok (readInteger false size (wordAt output index))
    | .bool => readBool (wordAt output index)
    | .address => .ok (.address (BitVec.ofNat 160 (Rlp.bytesNat (wordAt output index))))
    | .fixedBytes size => .ok (.fixedBytes ((wordAt output index).take size))
    | .function => readFunctionType (wordAt output index)

/-- The loops of `forTupleUnpack` and of `UnpackValues`, from the word at a position on. -/
def unpackFrom (types : List AbiType) (position : Nat) (output : Bytes) : Except AbiError (List Value) :=
  match types with
  | [] => .ok []
  | t :: rest => do
    let value ← toGoType t (32 * position) output
    let values ← unpackFrom rest (position + headWords t) output
    .ok (value :: values)

end

def unpack (types : List AbiType) (data : Bytes) : Except AbiError (List Value) :=
  if data = [] then if types = [] then .ok [] else .error .emptyData else unpackFrom types 0 data

mutual

def HasType : AbiType → Value → Prop
  | .int size, .machine signed width value =>
    machineSize size = true ∧ signed = true ∧ width = size ∧ -2 ^ (size - 1) ≤ value ∧ value < 2 ^ (size - 1)
  | .int size, .big value => machineSize size = false ∧ -2 ^ 255 ≤ value ∧ value < 2 ^ 255
  | .uint size, .machine signed width value =>
    machineSize size = true ∧ signed = false ∧ width = size ∧ 0 ≤ value ∧ value < 2 ^ size
  | .uint size, .big value => machineSize size = false ∧ 0 ≤ value ∧ value < 2 ^ 256
  | .bool, .bool _ => True
  | .string, .string _ => True
  | .slice elem, .slice values => ∀ value ∈ values, HasType elem value
  | .array size elem, .array values => values.length = size ∧ ∀ value ∈ values, HasType elem value
  | .tuple elems, .tuple values => HaveTypes elems values
  | .address, .address _ => True
  | .fixedBytes size, .fixedBytes bytes => bytes.length = size
  | .bytes, .bytes _ => True
  | .function, .function bytes => bytes.length = 24
  | _, _ => False

def HaveTypes : List AbiType → List Value → Prop
  | [], [] => True
  | t :: types, value :: values => HasType t value ∧ HaveTypes types values
  | _, _ => False

end

def integerType : Bool → Nat → AbiType
  | true, size => .int size
  | false, size => .uint size

def InBits (signed : Bool) (size : Nat) (number : Int) : Prop :=
  if signed then -2 ^ (size - 1) ≤ number ∧ number < 2 ^ (size - 1) else 0 ≤ number ∧ number < 2 ^ size

section InBits

variable {signed : Bool} {size : Nat} {number : Int}

theorem hasType_machine :
    HasType (integerType signed size) (.machine signed size number) ↔
      machineSize size = true ∧ InBits signed size number := by
  cases signed
  all_goals simp [integerType, HasType, InBits]

theorem hasType_big :
    HasType (integerType signed size) (.big number) ↔ machineSize size = false ∧ InBits signed 256 number := by
  cases signed
  all_goals simp [integerType, HasType, InBits]

theorem hasType_integer_cases (typed : HasType (integerType signed size) value) :
    (∃ number, value = .machine signed size number) ∨ ∃ number, value = .big number := by
  cases signed
  all_goals
    cases value
    all_goals simp_all [integerType, HasType]

theorem InBits.mono {larger : Nat} (inBits : InBits signed size number) (below : size ≤ larger) :
    InBits signed larger number := by
  have room (n m : Nat) (le : n ≤ m) : (2 : Int) ^ n ≤ 2 ^ m := pow_le_pow_right₀ (by decide) le
  cases signed with
  | true =>
    obtain ⟨lower, upper⟩ := inBits
    have wider := room (size - 1) (larger - 1) (by omega)
    exact ⟨by omega, by omega⟩
  | false => exact ⟨inBits.1, inBits.2.trans_le (room size larger below)⟩

end InBits

theorem length_wordAt {output : Bytes} {index : Nat} (inside : index + 32 ≤ output.length) :
    (wordAt output index).length = 32 := by
  rw [wordAt, List.length_take, List.length_drop]
  omega

theorem bytesNat_drop_lt {count : Nat} (inside : count ≤ word.length) :
    Rlp.bytesNat (word.drop (word.length - count)) < 2 ^ (8 * count) := by
  have small := Rlp.bytesNat_lt (word.drop (word.length - count))
  have length : (word.drop (word.length - count)).length = count := by
    rw [List.length_drop]
    omega
  rw [length] at small
  rwa [Nat.pow_mul]

theorem machineSize_cases {size : Nat} (machine : machineSize size = true) :
    size = 8 ∨ size = 16 ∨ size = 32 ∨ size = 64 := by
  simpa [machineSize, or_assoc] using machine

section Integers

variable {size : Nat} {word : Bytes} (length : word.length = 32)
include length

theorem low_lt (machine : machineSize size = true) :
    Rlp.bytesNat (word.drop (word.length - size / 8)) < 2 ^ size := by
  have bound := @bytesNat_drop_lt word (size / 8)
  rcases machineSize_cases machine with rfl | rfl | rfl | rfl
  all_goals exact bound (by omega)

theorem number_lt : Rlp.bytesNat word < 2 ^ 256 := by
  have bound := Rlp.bytesNat_lt word
  rwa [length] at bound

theorem testBit_top : (Rlp.bytesNat word).testBit 255 = decide (2 ^ 255 ≤ Rlp.bytesNat word) := by
  have small := number_lt length
  rw [Nat.testBit_eq_decide_div_mod_eq, decide_eq_decide]
  omega

theorem readInteger_hasType (signed : Bool) : HasType (integerType signed size) (readInteger signed size word) := by
  cases machine : machineSize size with
  | true =>
    have small := low_lt length machine
    rw [readInteger, if_pos machine, hasType_machine]
    generalize Rlp.bytesNat (word.drop (word.length - size / 8)) = low at small ⊢
    refine ⟨machine, ?_⟩
    cases signed with
    | true =>
      have lower := @Int.le_bmod low (2 ^ size) (Nat.two_pow_pos size)
      have upper := @Int.bmod_lt low (2 ^ size) (Nat.two_pow_pos size)
      rcases machineSize_cases machine with rfl | rfl | rfl | rfl
      all_goals
        simp only [InBits, if_true]
        omega
    | false =>
      simp only [InBits, Bool.false_eq_true, if_false]
      exact ⟨Int.natCast_nonneg _, by exact_mod_cast small⟩
  | false =>
    have small := number_lt length
    rw [readInteger, if_neg (by simp [machine]), hasType_big, testBit_top length]
    refine ⟨machine, ?_⟩
    cases signed
    all_goals
      simp only [InBits, Bool.true_and, Bool.false_and, Bool.false_eq_true, decide_eq_true_eq, if_true, if_false]
      omega

end Integers

theorem readBool_hasType (read : readBool word = .ok value) : HasType .bool value := by
  unfold readBool at read
  split at read
  · split at read
    all_goals cases read
    all_goals simp only [HasType]
  · cases read

theorem readFunctionType_hasType (length : word.length = 32) (read : readFunctionType word = .ok value) :
    HasType .function value := by
  unfold readFunctionType at read
  split at read
  · cases read
  · cases read
    simp only [HasType, List.length_take, length]
    decide

theorem forEachUnpack_ok {decode : Nat → Bytes → Except AbiError Value} {elemSize size : Nat} {output : Bytes}
    {values : List Value} (unpacked : forEachUnpack decode elemSize output size = .ok values) :
    values.length = size ∧ ∀ value ∈ values, ∃ index, decode index output = .ok value := by
  unfold forEachUnpack at unpacked
  split at unpacked
  · cases unpacked
  · have each := mapM_ok.mp unpacked
    refine ⟨by rw [← each.length_eq, List.length_range], ?_⟩
    intro value member
    obtain ⟨place, inside, rfl⟩ := List.getElem_of_mem member
    exact ⟨_, (List.forall₂_iff_get.mp each).2 place (by rw [each.length_eq]; exact inside) inside⟩

mutual

theorem toGoType_hasType (t : AbiType) {index : Nat} {output : Bytes} {value : Value}
    (decoded : toGoType t index output = .ok value) : HasType t value := by
  rw [toGoType.eq_def] at decoded
  split at decoded
  · cases decoded
  rename_i inside
  have length : (wordAt output index).length = 32 := length_wordAt (by omega)
  cases t with
  | int size =>
    cases decoded
    exact readInteger_hasType length true
  | uint size =>
    cases decoded
    exact readInteger_hasType length false
  | bool => exact readBool_hasType decoded
  | string =>
    obtain ⟨_, -, result⟩ := bind_ok.mp decoded
    cases result
    simp only [HasType]
  | slice elem =>
    obtain ⟨_, -, result⟩ := bind_ok.mp decoded
    obtain ⟨values, unpacked, rfl⟩ := map_ok.mp result
    simp only [HasType]
    intro value member
    obtain ⟨index, here⟩ := (forEachUnpack_ok unpacked).2 value member
    exact toGoType_hasType elem here
  | array size elem =>
    have unpacked : ∃ start values,
      forEachUnpack (toGoType elem) (getTypeSize elem) (output.drop start) size = .ok values ∧
        Value.array values = value := by
      simp only at decoded
      split at decoded
      · split at decoded
        · cases decoded
        · exact ⟨_, map_ok.mp decoded⟩
      · exact ⟨_, map_ok.mp decoded⟩
    obtain ⟨start, values, unpacked, rfl⟩ := unpacked
    have each := forEachUnpack_ok unpacked
    simp only [HasType]
    refine ⟨each.1, ?_⟩
    intro value member
    obtain ⟨index, here⟩ := each.2 value member
    exact toGoType_hasType elem here
  | tuple elems =>
    have unpacked : ∃ start values, unpackFrom elems 0 (output.drop start) = .ok values ∧
      Value.tuple values = value := by
      simp only at decoded
      split at decoded
      · obtain ⟨start, -, result⟩ := bind_ok.mp decoded
        exact ⟨start, map_ok.mp result⟩
      · exact ⟨index, map_ok.mp decoded⟩
    obtain ⟨start, values, unpacked, rfl⟩ := unpacked
    simp only [HasType]
    exact unpackFrom_haveTypes elems unpacked
  | address =>
    cases decoded
    simp only [HasType]
  | fixedBytes size =>
    cases decoded
    simp only [HasType, List.length_take, length]
    omega
  | bytes =>
    obtain ⟨_, -, result⟩ := bind_ok.mp decoded
    cases result
    simp only [HasType]
  | function => exact readFunctionType_hasType length decoded

theorem unpackFrom_haveTypes (types : List AbiType) {position : Nat} {output : Bytes} {values : List Value}
    (unpacked : unpackFrom types position output = .ok values) : HaveTypes types values := by
  cases types with
  | nil =>
    rw [unpackFrom] at unpacked
    cases unpacked
    simp only [HaveTypes]
  | cons t rest =>
    rw [unpackFrom] at unpacked
    obtain ⟨value, here, later⟩ := bind_ok.mp unpacked
    obtain ⟨values, there, result⟩ := bind_ok.mp later
    cases result
    simp only [HaveTypes]
    exact ⟨toGoType_hasType t here, unpackFrom_haveTypes rest there⟩

end

theorem unpack_haveTypes {types : List AbiType} {data : Bytes} {values : List Value}
    (unpacked : unpack types data = .ok values) : HaveTypes types values := by
  unfold unpack at unpacked
  split at unpacked
  · split at unpacked
    · rename_i none
      cases unpacked
      rw [none]
      simp only [HaveTypes]
    · cases unpacked
  · exact unpackFrom_haveTypes types unpacked

theorem HaveTypes.forall₂ {types : List AbiType} {values : List Value} (typed : HaveTypes types values) :
    List.Forall₂ HasType types values := by
  induction types generalizing values with
  | nil =>
    cases values with
    | nil => exact .nil
    | cons value rest =>
      simp only [HaveTypes] at typed
  | cons t types ih =>
    cases values with
    | nil => simp only [HaveTypes] at typed
    | cons value rest =>
      simp only [HaveTypes] at typed
      exact .cons typed.1 (ih typed.2)

end IDWDetector.Abi
