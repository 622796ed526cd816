import Mathlib.Data.BitVec
import Mathlib.Data.Nat.Digits.Defs
import Mathlib.Data.Nat.Digits.Lemmas

namespace Go

/-- The lower-case digits of `fmt` and `hex.Encode`. -/
def hexDigit (d : ℕ) : BitVec 8 := BitVec.ofNat 8 (if d < 10 then 0x30 + d else 0x57 + d)

def nibble (byte : BitVec 8) : Option ℕ :=
  if 0x30 ≤ byte.toNat ∧ byte.toNat ≤ 0x39 then some (byte.toNat - 0x30)
  else if 0x41 ≤ byte.toNat ∧ byte.toNat ≤ 0x46 then some (byte.toNat - 0x37)
  else if 0x61 ≤ byte.toNat ∧ byte.toNat ≤ 0x66 then some (byte.toNat - 0x57)
  else none

theorem hexDigit_toNat {d : ℕ} (small : d < 16) : (hexDigit d).toNat = if d < 10 then 0x30 + d else 0x57 + d := by
  rw [hexDigit, BitVec.toNat_ofNat]
  split <;> omega

theorem nibble_hexDigit {d : ℕ} (small : d < 16) : nibble (hexDigit d) = some d := by
  have value := hexDigit_toNat small
  unfold nibble
  split at value
  · rw [if_pos (by omega), value]
    exact congrArg some (by omega)
  · rw [if_neg (by omega), if_neg (by omega), if_pos (by omega), value]
    exact congrArg some (by omega)

def pushDigit (base n : ℕ) (byte : BitVec 8) : Option ℕ :=
  (nibble byte).bind fun d => if d < base then some (n * base + d) else none

def numeral (base : ℕ) (text : List (BitVec 8)) : Option ℕ :=
  if text = [] then none else text.foldlM (pushDigit base) 0

/-- `big.Int.SetString`: a sign and digits. -/
def setString (base : ℕ) : List (BitVec 8) → Option ℤ
  | 0x2d :: digits => (numeral base digits).map fun n => -(n : ℤ)
  | 0x2b :: digits => (numeral base digits).map fun n => (n : ℤ)
  | text => (numeral base text).map fun n => (n : ℤ)

def hexText (n : ℕ) : List (BitVec 8) :=
  if n = 0 then [hexDigit 0] else (Nat.digits 16 n).reverse.map hexDigit

theorem foldlM_pushDigit {base : ℕ} (le : base ≤ 16) {ds : List ℕ} (digits : ∀ d ∈ ds, d < base) (n : ℕ) :
    (ds.map hexDigit).foldlM (pushDigit base) n = some (ds.foldl (fun n d => n * base + d) n) := by
  induction ds generalizing n with
  | nil => rfl
  | cons d rest ih =>
    have small : d < base := digits d List.mem_cons_self
    have pushed : pushDigit base n (hexDigit d) = some (n * base + d) := by
      rw [pushDigit, nibble_hexDigit (by omega), Option.bind_some, if_pos small]
    rw [List.map_cons, List.foldlM_cons, pushed]
    exact ih (fun d member => digits d (List.mem_cons_of_mem _ member)) _

theorem foldl_reverse_digits (base n : ℕ) :
    (Nat.digits base n).reverse.foldl (fun n d => n * base + d) 0 = n := by
  rw [List.foldl_reverse]
  conv_rhs => rw [← Nat.ofDigits_digits base n, Nat.ofDigits_eq_foldr]
  congr 1
  funext d n
  simp only [Nat.cast_id]
  ring

theorem hexText_ne_nil (n : ℕ) : hexText n ≠ [] := by
  unfold hexText
  split_ifs with positive
  · exact List.cons_ne_nil _ _
  · simpa [Nat.digits_ne_nil_iff_ne_zero] using positive

theorem mem_hexText {n : ℕ} {byte : BitVec 8} (member : byte ∈ hexText n) : ∃ d < 16, byte = hexDigit d := by
  unfold hexText at member
  split at member
  · exact ⟨0, by decide, List.mem_singleton.mp member⟩
  · obtain ⟨d, inside, rfl⟩ := List.mem_map.mp member
    exact ⟨d, Nat.digits_lt_base (by decide) (List.mem_reverse.mp inside), rfl⟩

theorem numeral_hexText (n : ℕ) : numeral 16 (hexText n) = some n := by
  rw [numeral, if_neg (hexText_ne_nil n)]
  unfold hexText
  split
  · rename_i zero
    subst zero
    rfl
  · rw [foldlM_pushDigit (Nat.le_refl 16), foldl_reverse_digits]
    intro d member
    exact Nat.digits_lt_base (by decide) (List.mem_reverse.mp member)

theorem setString_hexText (n : ℕ) : setString 16 (hexText n) = some (n : ℤ) := by
  have sign (byte : BitVec 8) (other : nibble byte = none) : byte ∉ hexText n := by
    intro member
    obtain ⟨d, small, rfl⟩ := mem_hexText member
    rw [nibble_hexDigit small] at other
    cases other
  unfold setString
  split
  · rename_i shape
    exact absurd (shape ▸ List.mem_cons_self) (sign 0x2d (by decide))
  · rename_i shape
    exact absurd (shape ▸ List.mem_cons_self) (sign 0x2b (by decide))
  · rw [numeral_hexText]
    rfl

theorem length_hexText_le {n width : ℕ} (positive : 0 < width) (small : n < 16 ^ width) :
    (hexText n).length ≤ width := by
  unfold hexText
  split
  · exact positive
  · rw [List.length_map, List.length_reverse]
    exact (Nat.digits_length_le_iff (by decide) n).mpr small

theorem head_hexText {n : ℕ} (long : 1 < (hexText n).length) : (hexText n).head? ≠ some 0x30 := by
  unfold hexText at long ⊢
  split at long
  · simp at long
  · rename_i positive
    have nonempty : Nat.digits 16 n ≠ [] := Nat.digits_ne_nil_iff_ne_zero.mpr positive
    have last := Nat.getLast_digit_ne_zero 16 positive
    have small := Nat.digits_lt_base (b := 16) (m := n) (by decide) (List.getLast_mem nonempty)
    rw [if_neg positive, List.head?_map, List.head?_reverse, List.getLast?_eq_some_getLast nonempty, Option.map_some]
    intro same
    have value := hexDigit_toNat small
    rw [Option.some.inj same] at value
    change 0x30 = _ at value
    split at value <;> omega

def hexEncode (bytes : List (BitVec 8)) : List (BitVec 8) :=
  bytes.flatMap fun byte => [hexDigit (byte.toNat / 16), hexDigit (byte.toNat % 16)]

def hexDecode : List (BitVec 8) → Option (List (BitVec 8))
  | [] => some []
  | [_] => none
  | high :: low :: rest => do
    let h ← nibble high
    let l ← nibble low
    let bytes ← hexDecode rest
    some (BitVec.ofNat 8 (16 * h + l) :: bytes)

theorem hexDecode_hexEncode (bytes : List (BitVec 8)) : hexDecode (hexEncode bytes) = some bytes := by
  induction bytes with
  | nil => rfl
  | cons byte rest ih =>
    have whole : 16 * (byte.toNat / 16) + byte.toNat % 16 = byte.toNat := by omega
    rw [hexEncode, List.flatMap_cons, List.cons_append, List.cons_append, List.nil_append, ← hexEncode, hexDecode,
      nibble_hexDigit (by omega), nibble_hexDigit (by omega), ih]
    simp [Bind.bind, whole]

theorem length_hexEncode (bytes : List (BitVec 8)) : (hexEncode bytes).length = 2 * bytes.length := by
  induction bytes with
  | nil => rfl
  | cons byte rest ih =>
    rw [hexEncode, List.flatMap_cons, List.length_append, ← hexEncode, ih, List.length_cons]
    simp only [List.length_cons, List.length_nil]
    omega

theorem mem_hexEncode {bytes : List (BitVec 8)} {byte : BitVec 8} (member : byte ∈ hexEncode bytes) :
    ∃ d < 16, byte = hexDigit d := by
  obtain ⟨source, _, listed⟩ := List.mem_flatMap.mp member
  rcases List.mem_cons.mp listed with high | low
  · exact ⟨source.toNat / 16, by omega, high⟩
  · exact ⟨source.toNat % 16, by omega, List.mem_singleton.mp low⟩

end Go
