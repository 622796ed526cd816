import IDWDetector.Common.Types
import IDWDetector.Go.Strconv
import IDWDetector.Json.Codec

namespace IDWDetector

open Go

open Json (Codec PlainText)

theorem plainByte_hexDigit {d : Nat} (small : d < 16) : Json.plainByte (hexDigit d) = true := by
  revert d
  decide

theorem plainText_hex {digits : Bytes} (hex : ∀ byte ∈ digits, ∃ d < 16, byte = hexDigit d) :
    PlainText (0x30 :: 0x78 :: digits) := by
  intro byte member
  rcases List.mem_cons.mp member with rfl | member
  · rfl
  rcases List.mem_cons.mp member with rfl | member
  · rfl
  obtain ⟨d, small, rfl⟩ := hex byte member
  exact plainByte_hexDigit small

def cutHexMark : Bytes → Option Bytes
  | 0x30 :: 0x78 :: digits => some digits
  | 0x30 :: 0x58 :: digits => some digits
  | _ => none

@[simp] theorem cutHexMark_text (digits : Bytes) : cutHexMark (0x30 :: 0x78 :: digits) = some digits := rfl

def hexOrDecimal256Text (i : Int) : Bytes :=
  (if i < 0 then [0x2d] else []) ++ 0x30 :: 0x78 :: hexText i.natAbs

def parseBig256 (s : Bytes) : Option Int :=
  if s = [] then some 0
  else
    let bigint := match cutHexMark s with
      | some digits => setString 16 digits
      | none => setString 10 s
    bigint.filter fun i => i.natAbs < 2 ^ 256

theorem parseBig256_negative {i : Int} (negative : i < 0) : parseBig256 (hexOrDecimal256Text i) = none := by
  have signed : hexOrDecimal256Text i = 0x2d :: 0x30 :: 0x78 :: hexText i.natAbs := by
    rw [hexOrDecimal256Text, if_pos negative, List.singleton_append]
  rw [signed, parseBig256, if_neg (List.cons_ne_nil _ _)]
  rfl

theorem parseBig256_natural {i : Int} (natural : 0 ≤ i) :
    parseBig256 (hexOrDecimal256Text i) = if i < 2 ^ 256 then some i else none := by
  have unsigned : hexOrDecimal256Text i = 0x30 :: 0x78 :: hexText i.natAbs := by
    rw [hexOrDecimal256Text, if_neg (by omega), List.nil_append]
  have same : (i.natAbs : Int) = i := Int.natAbs_of_nonneg natural
  have small : i.natAbs < 2 ^ 256 ↔ i < 2 ^ 256 := by omega
  rw [unsigned, parseBig256, if_neg (List.cons_ne_nil _ _)]
  simp only [cutHexMark_text, setString_hexText, same, Option.filter_some, decide_eq_true_eq, small]

def readHexOrDecimal256 (text : Bytes) : Except Json.Error Int :=
  match parseBig256 text with
  | some i => .ok i
  | none => .error (.invalidInteger text)

theorem readHexOrDecimal256_text {i j : Int} :
    readHexOrDecimal256 (hexOrDecimal256Text i) = .ok j ↔ (0 ≤ i ∧ i < 2 ^ 256) ∧ j = i := by
  rw [readHexOrDecimal256]
  by_cases natural : 0 ≤ i
  · rw [parseBig256_natural natural]
    by_cases small : i < 2 ^ 256
    · rw [if_pos small]
      exact ⟨fun read => ⟨⟨natural, small⟩, (Except.ok.inj read).symm⟩, fun valid => congrArg _ valid.2.symm⟩
    · rw [if_neg small]
      exact ⟨nofun, fun valid => absurd valid.1.2 small⟩
  · rw [parseBig256_negative (Int.not_le.mp natural)]
    exact ⟨nofun, fun valid => absurd valid.1.1 natural⟩

def hexOrDecimal256 : Codec Int :=
  .text hexOrDecimal256Text readHexOrDecimal256 (fun i => 0 ≤ i ∧ i < 2 ^ 256)
    (by
      intro i byte member
      rcases List.mem_append.mp member with sign | digits
      · split at sign
        · rw [List.mem_singleton.mp sign]
          rfl
        · cases sign
      · exact plainText_hex (fun _ => mem_hexText) byte digits)
    readHexOrDecimal256_text

theorem hexOrDecimal256_proper : hexOrDecimal256.Proper := Codec.text_proper

/-- `HexOrDecimal64.MarshalText`, and the one of `hexutil.Uint64`. -/
def hexUint64Text (word : Uint64) : Bytes := 0x30 :: 0x78 :: hexText word.toNat

theorem plainText_hexUint64 (word : Uint64) : PlainText (hexUint64Text word) := plainText_hex fun _ => mem_hexText

def parseUint64 (s : Bytes) : Option Uint64 :=
  if s = [] then some 0
  else match cutHexMark s with
    | some digits => ((numeral 16 digits).filter (· < 2 ^ 64)).map (BitVec.ofNat 64)
    | none => (parseUint s).toOption.map (BitVec.ofNat 64)

def readHexOrDecimal64 (text : Bytes) : Except Json.Error Uint64 :=
  match parseUint64 text with
  | some word => .ok word
  | none => .error (.invalidInteger text)

theorem readHexOrDecimal64_text (word : Uint64) : readHexOrDecimal64 (hexUint64Text word) = .ok word := by
  have small := word.isLt
  have parsed : parseUint64 (hexUint64Text word) = some word := by
    rw [hexUint64Text, parseUint64, if_neg (List.cons_ne_nil _ _)]
    simp only [cutHexMark_text, numeral_hexText, Option.filter_some, small, decide_true, if_true, Option.map_some,
      BitVec.ofNat_toNat, BitVec.setWidth_eq]
  rw [readHexOrDecimal64, parsed]

def hexOrDecimal64 : Codec Uint64 :=
  .text hexUint64Text readHexOrDecimal64 (fun _ => True) plainText_hexUint64
    (Codec.read_total readHexOrDecimal64_text)

theorem hexOrDecimal64_proper : hexOrDecimal64.Proper := Codec.text_proper

def readHexutilUint64 (text : Bytes) : Except Json.Error Uint64 :=
  if text = [] then .ok 0
  else match cutHexMark text with
    | none => .error .missingPrefix
    | some raw =>
      if raw = [] then .error .emptyNumber
      else if 1 < raw.length ∧ raw.head? = some 0x30 then .error .leadingZero
      else if 16 < raw.length then .error .outOfRange
      else match raw.foldlM (pushDigit 16) 0 with
        | none => .error .invalidHex
        | some n => .ok (BitVec.ofNat 64 n)

theorem readHexutilUint64_text (word : Uint64) : readHexutilUint64 (hexUint64Text word) = .ok word := by
  have small : word.toNat < 16 ^ 16 := word.isLt
  have length := length_hexText_le (by decide) small
  have head : ¬ (1 < (hexText word.toNat).length ∧ (hexText word.toNat).head? = some 0x30) :=
    fun leading => head_hexText leading.1 leading.2
  have value := numeral_hexText word.toNat
  rw [numeral, if_neg (hexText_ne_nil _)] at value
  rw [hexUint64Text, readHexutilUint64, if_neg (List.cons_ne_nil _ _)]
  simp only [cutHexMark_text]
  rw [if_neg (hexText_ne_nil _), if_neg head, if_neg (by omega), value]
  simp

/-- `hexutil.Uint64`, and `hexutil.Uint` on a 64-bit machine. -/
def hexutilUint64 : Codec Uint64 :=
  .text hexUint64Text readHexutilUint64 (fun _ => True) plainText_hexUint64
    (Codec.read_total readHexutilUint64_text)

theorem hexutilUint64_proper : hexutilUint64.Proper := Codec.text_proper

def hexBytesText (bytes : Bytes) : Bytes := 0x30 :: 0x78 :: hexEncode bytes

theorem plainText_hexBytes (bytes : Bytes) : PlainText (hexBytesText bytes) := plainText_hex fun _ => mem_hexEncode

def checkText (input : Bytes) : Except Json.Error Bytes :=
  if input = [] then .ok []
  else match cutHexMark input with
    | none => .error .missingPrefix
    | some raw => if raw.length % 2 = 0 then .ok raw else .error .oddLength

theorem checkText_hexBytes (bytes : Bytes) : checkText (hexBytesText bytes) = .ok (hexEncode bytes) := by
  have even : (hexEncode bytes).length % 2 = 0 := by
    rw [length_hexEncode]
    omega
  rw [hexBytesText, checkText, if_neg (List.cons_ne_nil _ _)]
  simp only [cutHexMark_text, if_pos even]

def readHexBytes (text : Bytes) : Except Json.Error Bytes := do
  let raw ← checkText text
  match hexDecode raw with
  | none => .error .invalidHex
  | some bytes => .ok bytes

theorem readHexBytes_text (bytes : Bytes) : readHexBytes (hexBytesText bytes) = .ok bytes := by
  rw [readHexBytes, checkText_hexBytes]
  simp only [Bind.bind, Except.bind, hexDecode_hexEncode]

def hexutilBytes : Codec Bytes :=
  .text hexBytesText readHexBytes (fun _ => True) plainText_hexBytes (Codec.read_total readHexBytes_text)

theorem hexutilBytes_proper : hexutilBytes.Proper := Codec.text_proper

section Fixed

variable (bits width : Nat)

def readFixedText (text : Bytes) : Except Json.Error (BitVec bits) := do
  let raw ← checkText text
  if raw.length / 2 ≠ width then .error (.hexLength raw.length (2 * width))
  else match hexDecode raw with
    | none => .error .invalidHex
    | some bytes => .ok (BitVec.ofNat bits (Rlp.bytesNat bytes))

def fixedText (word : BitVec bits) : Bytes := hexBytesText (Rlp.wordBytes width word.toNat)

theorem plainText_fixed (word : BitVec bits) : PlainText (fixedText bits width word) := plainText_hexBytes _

theorem readFixedText_text (whole : bits = 8 * width) (word : BitVec bits) :
    readFixedText bits width (fixedText bits width word) = .ok word := by
  have bound : word.toNat < 256 ^ width := by
    have base : 256 ^ width = 2 ^ bits := by rw [whole, pow_mul]; norm_num
    rw [base]
    exact word.isLt
  have length : ¬ (hexEncode (Rlp.wordBytes width word.toNat)).length / 2 ≠ width := by
    rw [length_hexEncode, Rlp.length_wordBytes]
    omega
  rw [readFixedText, fixedText, checkText_hexBytes]
  simp only [Bind.bind, Except.bind, if_neg length, hexDecode_hexEncode, Rlp.bytesNat_wordBytes,
    Nat.mod_eq_of_lt bound]
  simp

def fixed (whole : bits = 8 * width) : Codec (BitVec bits) :=
  .text (fixedText bits width) (readFixedText bits width) (fun _ => True) (plainText_fixed bits width)
    (Codec.read_total (readFixedText_text bits width whole))

theorem fixed_proper (whole : bits = 8 * width) : (fixed bits width whole).Proper := fun _ => nofun

end Fixed

def addressJSON : Codec Address := fixed 160 20 address_width

theorem addressJSON_proper : addressJSON.Proper := fixed_proper 160 20 rfl

def hashJSON : Codec Hash := fixed 256 32 hash_width

theorem hashJSON_proper : hashJSON.Proper := fixed_proper 256 32 rfl

def bloomJSON : Codec (BitVec 2048) := fixed 2048 256 bloom_width

theorem bloomJSON_proper : bloomJSON.Proper := fixed_proper 2048 256 rfl

end IDWDetector
