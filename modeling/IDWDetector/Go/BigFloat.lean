import Mathlib.Algebra.Order.Field.Basic
import Mathlib.Data.Int.Log
import Mathlib.Data.Rat.Floor

namespace Go

/-- The nearest integer; of two, the even one. -/
def roundEven (q : ℚ) : ℤ :=
  if Int.fract q < 1 / 2 then ⌊q⌋
  else if 1 / 2 < Int.fract q then ⌊q⌋ + 1
  else if ⌊q⌋ % 2 = 0 then ⌊q⌋ else ⌊q⌋ + 1

theorem roundEven_intCast (n : ℤ) : roundEven n = n := by
  rw [roundEven, Int.fract_intCast, if_pos (by norm_num), Int.floor_intCast]

theorem floor_le_roundEven (q : ℚ) : ⌊q⌋ ≤ roundEven q := by
  unfold roundEven
  split_ifs
  all_goals omega

theorem roundEven_le {q : ℚ} {n : ℤ} (below : q ≤ n) : roundEven q ≤ n := by
  have floor : ⌊q⌋ ≤ n := Int.floor_le_iff.mpr (by linarith)
  by_cases whole : Int.fract q = 0
  · rw [roundEven, whole, if_pos (by norm_num)]
    exact floor
  · have next : ⌊q⌋ < n := by
      have part := (Int.fract_nonneg q).lt_of_ne' whole
      have below' : (⌊q⌋ : ℚ) < n := by linarith [Int.floor_add_fract q]
      exact_mod_cast below'
    unfold roundEven
    split_ifs
    all_goals omega

namespace BigFloat

/-- The step between the numbers of `prec` bits that are as long as `q`. -/
def ulp (prec : ℕ) (q : ℚ) : ℚ := 2 ^ (Int.log 2 |q| + 1 - prec)

/-- `ToNearestEven`; without a bit every number becomes zero. -/
def round (prec : ℕ) (q : ℚ) : ℚ := if prec = 0 then 0 else roundEven (q / ulp prec q) * ulp prec q

def Representable (prec : ℕ) (q : ℚ) : Prop := ∃ mant exp : ℤ, |mant| < 2 ^ prec ∧ q = mant * 2 ^ exp

variable {prec : ℕ} {q : ℚ}

theorem ulp_pos (prec : ℕ) (q : ℚ) : 0 < ulp prec q := zpow_pos two_pos _

theorem representable_intCast {n : ℤ} (small : |n| < 2 ^ prec) : Representable prec n :=
  ⟨n, 0, small, by rw [zpow_zero, mul_one]⟩

theorem representable_zpow (positive : prec ≠ 0) {mant : ℤ} (unit : |mant| = 1) (exp : ℤ) :
    Representable prec (mant * 2 ^ exp) := by
  refine ⟨mant, exp, ?_, rfl⟩
  rw [unit]
  exact one_lt_pow₀ one_lt_two positive

theorem abs_div_ulp (prec : ℕ) (nonzero : q ≠ 0) : 2 ^ ((prec : ℤ) - 1) ≤ |q / ulp prec q| ∧
    |q / ulp prec q| < 2 ^ (prec : ℤ) := by
  have positive := abs_pos.mpr nonzero
  have lower := Int.zpow_log_le_self (b := 2) one_lt_two positive
  have upper := Int.lt_zpow_succ_log_self (b := 2) one_lt_two |q|
  rw [Nat.cast_ofNat] at lower upper
  rw [abs_div, abs_of_pos (ulp_pos prec q), le_div_iff₀ (ulp_pos prec q), div_lt_iff₀ (ulp_pos prec q), ulp,
    ← zpow_add₀ two_ne_zero, ← zpow_add₀ two_ne_zero]
  constructor
  · rwa [show (prec : ℤ) - 1 + (Int.log 2 |q| + 1 - prec) = Int.log 2 |q| by ring]
  · rwa [show (prec : ℤ) + (Int.log 2 |q| + 1 - prec) = Int.log 2 |q| + 1 by ring]

theorem round_of_representable (exact_ : Representable prec q) : round prec q = q := by
  obtain ⟨mant, exp, small, rfl⟩ := exact_
  unfold round
  split
  · rename_i none
    rw [none, pow_zero, Int.abs_lt_one_iff] at small
    rw [small, Int.cast_zero, zero_mul]
  · by_cases zero : mant = 0
    · simp [zero, roundEven]
    · -- The exponent of the grid is at most that of the number, which is thus on it.
      have nonzero : (mant : ℚ) * 2 ^ exp ≠ 0 :=
        mul_ne_zero (Int.cast_ne_zero.mpr zero) (zpow_ne_zero exp two_ne_zero)
      have below : |(mant : ℚ) * 2 ^ exp| < 2 ^ ((prec : ℤ) + exp) := by
        rw [abs_mul, abs_of_pos (zpow_pos (two_pos : (0 : ℚ) < 2) exp), zpow_add₀ two_ne_zero, zpow_natCast]
        exact mul_lt_mul_of_pos_right (by exact_mod_cast small) (zpow_pos two_pos exp)
      have digits : Int.log 2 |(mant : ℚ) * 2 ^ exp| < prec + exp :=
        (Int.lt_zpow_iff_log_lt one_lt_two (abs_pos.mpr nonzero)).mp (by exact_mod_cast below)
      obtain ⟨shift, shifted⟩ := Int.eq_ofNat_of_zero_le
        (show 0 ≤ exp - (Int.log 2 |(mant : ℚ) * 2 ^ exp| + 1 - prec) by omega)
      have onGrid : (mant : ℚ) * 2 ^ exp / ulp prec (mant * 2 ^ exp) = (mant * 2 ^ shift : ℤ) := by
        rw [ulp, mul_div_assoc, ← zpow_sub₀ two_ne_zero, shifted, zpow_natCast]
        push_cast
        rfl
      rw [onGrid, roundEven_intCast, ← onGrid, div_mul_cancel₀ _ (ulp_pos _ _).ne']

theorem round_zero (prec : ℕ) : round prec 0 = 0 :=
  round_of_representable ⟨0, 0, by simp, by simp⟩

theorem round_representable (prec : ℕ) (q : ℚ) : Representable prec (round prec q) := by
  by_cases zero : q = 0
  · rw [zero, round_zero]
    exact ⟨0, 0, by simp, by simp⟩
  unfold round
  split
  · exact ⟨0, 0, by simp, by simp⟩
  · rename_i bits
    obtain ⟨-, small⟩ := abs_div_ulp prec zero
    obtain ⟨lower, upper⟩ := abs_lt.mp small
    have above : roundEven (q / ulp prec q) ≤ 2 ^ prec := roundEven_le (by push_cast; exact_mod_cast upper.le)
    have below : -2 ^ prec ≤ roundEven (q / ulp prec q) :=
      le_trans (Int.le_floor.mpr (by push_cast; exact_mod_cast lower.le)) (floor_le_roundEven _)
    rcases (abs_le.mpr ⟨below, above⟩).lt_or_eq with inside | carry
    · exact ⟨_, _, inside, rfl⟩
    · -- The carry makes the number a power of two.
      have power : ∃ mant : ℤ, |mant| = 1 ∧ roundEven (q / ulp prec q) = mant * 2 ^ prec := by
        rcases (abs_eq (by positivity)).mp carry with same | same
        · exact ⟨1, rfl, by rw [same, one_mul]⟩
        · exact ⟨-1, rfl, by rw [same, neg_one_mul]⟩
      obtain ⟨mant, unit, same⟩ := power
      have whole : (roundEven (q / ulp prec q) : ℚ) * ulp prec q = mant * 2 ^ (Int.log 2 |q| + 1) := by
        rw [same, ulp, sub_eq_add_neg, zpow_add₀ two_ne_zero, zpow_neg, zpow_natCast]
        push_cast
        field_simp
      rw [whole]
      exact representable_zpow bits unit _

theorem round_pos (bits : prec ≠ 0) (positive : 0 < q) : 0 < round prec q := by
  obtain ⟨large, -⟩ := abs_div_ulp prec positive.ne'
  have one : (1 : ℚ) ≤ q / ulp prec q := by
    rw [abs_of_pos (div_pos positive (ulp_pos prec q))] at large
    exact le_trans (one_le_zpow₀ one_le_two (by omega)) large
  have floor : 1 ≤ roundEven (q / ulp prec q) :=
    le_trans (Int.le_floor.mpr (by exact_mod_cast one)) (floor_le_roundEven _)
  rw [round, if_neg bits]
  exact mul_pos (by exact_mod_cast floor) (ulp_pos prec q)

end BigFloat

/-- A finite `big.Float`: its precision, and a value that has so many bits. -/
@[ext]
structure BigFloat where
  prec : ℕ
  value : ℚ
  representable : BigFloat.Representable prec value
deriving DecidableEq

namespace BigFloat

def ofRat (prec : ℕ) (q : ℚ) : BigFloat := ⟨prec, round prec q, round_representable prec q⟩

def bitLen (n : ℤ) : ℕ := if n = 0 then 0 else n.natAbs.log2 + 1

def setInt (n : ℤ) : BigFloat := ofRat (max (bitLen n) 64) n

def setInt64 (n : ℤ) : BigFloat := ofRat 64 n

def setFloat64 (q : ℚ) : BigFloat := ofRat 53 q

instance : Zero BigFloat := ⟨⟨0, 0, 0, 0, by simp, by simp⟩⟩

instance : Add BigFloat := ⟨fun x y => ofRat (max x.prec y.prec) (x.value + y.value)⟩

instance : Mul BigFloat := ⟨fun x y => ofRat (max x.prec y.prec) (x.value * y.value)⟩

theorem setInt_value (n : ℤ) : (setInt n).value = n := by
  apply round_of_representable
  apply representable_intCast
  have length : |n| < 2 ^ bitLen n := by
    unfold bitLen
    split
    · rename_i zero
      rw [zero]
      decide
    · rw [Int.abs_eq_natAbs]
      exact_mod_cast Nat.lt_log2_self
  exact length.trans_le (pow_le_pow_right₀ one_le_two (le_max_left _ _))

theorem setInt64_value {n : ℤ} (small : |n| < 2 ^ 64) : (setInt64 n).value = n :=
  round_of_representable (representable_intCast small)

theorem mul_value (x y : BigFloat) : (x * y).value = round (max x.prec y.prec) (x.value * y.value) := rfl

/-- The sum has an odd number of 65 bits. -/
example : (setInt (10 ^ 19 + 1) + setInt (10 ^ 19)).value = 2 * 10 ^ 19 := by decide +kernel

end BigFloat

end Go
