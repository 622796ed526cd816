import IDWDetector.Go.Hex
import IDWDetector.Machine.Run
import Mathlib.Data.List.Basic

namespace Go

variable {byte : BitVec 8} {ds : List Nat} {limit n : Nat}

inductive NumError
  | invalidSyntax
  | outOfRange
deriving DecidableEq, Repr

def digitValue (byte : BitVec 8) : Option Nat :=
  if 48 ≤ byte.toNat ∧ byte.toNat ≤ 57 then some (byte.toNat - 48) else none

/-- The loop of `strconv.ParseUint` in base 10. -/
def parseDigits (limit : Nat) : Nat → List (BitVec 8) → Except NumError Nat
  | n, [] => .ok n
  | n, byte :: rest =>
    match digitValue byte with
    | none => .error .invalidSyntax
    | some d => if n * 10 + d < limit then parseDigits limit (n * 10 + d) rest else .error .outOfRange

def parseUint (s : List (BitVec 8)) : Except NumError Nat :=
  if s = [] then .error .invalidSyntax else parseDigits (2 ^ 64) 0 s

def atoi (s : List (BitVec 8)) : Except NumError Int :=
  match s with
  | 0x2d :: digits => do
    let n ← parseUint digits
    if n ≤ 2 ^ 63 then .ok (-n) else .error .outOfRange
  | 0x2b :: digits => do
    let n ← parseUint digits
    if n < 2 ^ 63 then .ok n else .error .outOfRange
  | _ => do
    let n ← parseUint s
    if n < 2 ^ 63 then .ok n else .error .outOfRange

/-- The value of `strconv.ParseUint` where its error is dropped: the greatest one for a number out of range. -/
def parseUintValue (s : List (BitVec 8)) : Nat :=
  match parseUint s with
  | .ok n => n
  | .error .outOfRange => 2 ^ 64 - 1
  | .error .invalidSyntax => 0

/-- The value of `strconv.ParseInt(s, 10, 64)` and of `strconv.Atoi` where the error is dropped. -/
def parseIntValue (s : List (BitVec 8)) : Int :=
  match s with
  | 0x2d :: digits => -(min (parseUintValue digits) (2 ^ 63) : Nat)
  | 0x2b :: digits => (min (parseUintValue digits) (2 ^ 63 - 1) : Nat)
  | _ => (min (parseUintValue s) (2 ^ 63 - 1) : Nat)

theorem parseIntValue_bounds (s : List (BitVec 8)) : -2 ^ 63 ≤ parseIntValue s ∧ parseIntValue s < 2 ^ 63 := by
  unfold parseIntValue
  split
  all_goals omega

def digitByte (d : Nat) : BitVec 8 := BitVec.ofNat 8 (48 + d)

def decimal (n : Nat) : List (BitVec 8) :=
  if n = 0 then [digitByte 0] else (Nat.digits 10 n).reverse.map digitByte

def itoa (n : Int) : List (BitVec 8) := if n < 0 then 0x2d :: decimal n.natAbs else decimal n.natAbs

theorem atoi_lt {s : List (BitVec 8)} {n : Int} (parsed : atoi s = .ok n) : n < 2 ^ 63 := by
  unfold atoi at parsed
  split at parsed
  all_goals
    obtain ⟨m, -, result⟩ := Machine.bind_ok.mp parsed
    split at result
    · cases result
      omega
    · cases result

theorem digitValue_digitByte {d : Nat} (small : d < 10) : digitValue (digitByte d) = some d := by
  have value : (digitByte d).toNat = 48 + d := by
    rw [digitByte, BitVec.toNat_ofNat]
    omega
  rw [digitValue, value, if_pos (by omega), Nat.add_sub_cancel_left]

theorem le_foldl_digits (ds : List Nat) (n : Nat) : n ≤ ds.foldl (fun n d => n * 10 + d) n := by
  induction ds generalizing n with
  | nil => exact le_rfl
  | cons d rest ih =>
    refine le_trans ?_ (ih (n * 10 + d))
    omega

theorem parseDigits_map (digits : ∀ d ∈ ds, d < 10) (n : Nat) (fits : ds.foldl (fun n d => n * 10 + d) n < limit) :
    parseDigits limit n (ds.map digitByte) = .ok (ds.foldl (fun n d => n * 10 + d) n) := by
  induction ds generalizing n with
  | nil => rfl
  | cons d rest ih =>
    have step : n * 10 + d < limit := lt_of_le_of_lt (le_foldl_digits rest _) fits
    rw [List.map_cons, parseDigits, digitValue_digitByte (digits d List.mem_cons_self)]
    simp only [if_pos step, List.foldl_cons]
    exact ih (fun d member => digits d (List.mem_cons_of_mem _ member)) _ fits

theorem decimal_ne_nil (n : Nat) : decimal n ≠ [] := by
  unfold decimal
  split_ifs with positive
  · exact List.cons_ne_nil _ _
  · simpa [Nat.digits_ne_nil_iff_ne_zero] using positive

theorem parseDigits_decimal (small : n < limit) : parseDigits limit 0 (decimal n) = .ok n := by
  unfold decimal
  split_ifs with zero
  · subst zero
    rw [parseDigits, digitValue_digitByte (by decide)]
    exact if_pos small
  · rw [parseDigits_map, foldl_reverse_digits]
    · intro d member
      exact Nat.digits_lt_base (by decide) (List.mem_reverse.mp member)
    · rw [foldl_reverse_digits]
      exact small

theorem decimal_injective : Function.Injective decimal := by
  intro n m same
  have first : parseDigits (n + m + 1) 0 (decimal n) = .ok n := parseDigits_decimal (by omega)
  have second : parseDigits (n + m + 1) 0 (decimal m) = .ok m := parseDigits_decimal (by omega)
  rw [same, second] at first
  exact (Except.ok.inj first).symm

theorem parseUint_decimal (small : n < 2 ^ 64) : parseUint (decimal n) = .ok n := by
  rw [parseUint, if_neg (decimal_ne_nil n)]
  exact parseDigits_decimal small

theorem parseDigits_map_range (digits : ∀ d ∈ ds, d < 10) (n : Nat) (small : n < limit)
    (large : limit ≤ ds.foldl (fun n d => n * 10 + d) n) :
    parseDigits limit n (ds.map digitByte) = .error .outOfRange := by
  induction ds generalizing n with
  | nil => exact absurd large (Nat.not_le.mpr small)
  | cons d rest ih =>
    rw [List.map_cons, parseDigits, digitValue_digitByte (digits d List.mem_cons_self)]
    by_cases step : n * 10 + d < limit
    · simp only [if_pos step]
      exact ih (fun d member => digits d (List.mem_cons_of_mem _ member)) _ step large
    · simp only [if_neg step]

theorem parseUintValue_decimal (n : Nat) : parseUintValue (decimal n) = min n (2 ^ 64 - 1) := by
  by_cases small : n < 2 ^ 64
  · simp only [parseUintValue, parseUint_decimal small]
    omega
  · have positive : n ≠ 0 := by omega
    have range : parseUint (decimal n) = .error .outOfRange := by
      rw [parseUint, if_neg (decimal_ne_nil n), decimal, if_neg positive]
      apply parseDigits_map_range
      · intro d member
        exact Nat.digits_lt_base (by decide) (List.mem_reverse.mp member)
      · decide
      · rw [foldl_reverse_digits]
        omega
    simp only [parseUintValue, range]
    omega

theorem mem_decimal (member : byte ∈ decimal n) : ∃ d < 10, byte = digitByte d := by
  unfold decimal at member
  split at member
  · exact ⟨0, by decide, List.mem_singleton.mp member⟩
  · obtain ⟨d, inside, rfl⟩ := List.mem_map.mp member
    exact ⟨d, Nat.digits_lt_base (by decide) (List.mem_reverse.mp inside), rfl⟩

theorem notMem_decimal (other : digitValue byte = none) : byte ∉ decimal n := by
  intro member
  obtain ⟨d, small, rfl⟩ := mem_decimal member
  rw [digitValue_digitByte small] at other
  cases other

theorem decimal_cases (n : Nat) : ∃ byte rest, decimal n = byte :: rest ∧ byte ≠ 0x2d ∧ byte ≠ 0x2b := by
  cases split : decimal n with
  | nil => exact absurd split (decimal_ne_nil n)
  | cons byte rest =>
    have inside : byte ∈ decimal n := by
      rw [split]
      exact List.mem_cons_self
    refine ⟨byte, rest, rfl, ?_, ?_⟩
    · rintro rfl
      exact notMem_decimal (by decide) inside
    · rintro rfl
      exact notMem_decimal (by decide) inside

theorem parseIntValue_itoa (n : Int) : parseIntValue (itoa n) = max (-2 ^ 63) (min n (2 ^ 63 - 1)) := by
  unfold itoa
  split
  · have value : parseIntValue (0x2d :: decimal n.natAbs) = -(min (parseUintValue (decimal n.natAbs)) (2 ^ 63) : Nat) :=
      rfl
    rw [value, parseUintValue_decimal]
    omega
  · obtain ⟨byte, rest, split, minus, plus⟩ := decimal_cases n.natAbs
    have value : parseIntValue (decimal n.natAbs) = (min (parseUintValue (decimal n.natAbs)) (2 ^ 63 - 1) : Nat) := by
      unfold parseIntValue
      rw [split]
      split
      · rename_i same
        exact absurd (List.cons.inj same).1 minus
      · rename_i same
        exact absurd (List.cons.inj same).1 plus
      · rfl
    rw [value, parseUintValue_decimal]
    omega

theorem digitByte_eq_hexDigit {d : Nat} (small : d < 10) : digitByte d = hexDigit d := by
  rw [digitByte, hexDigit, if_pos small]

theorem numeral_decimal (n : Nat) : numeral 10 (decimal n) = some n := by
  rw [numeral, if_neg (decimal_ne_nil n)]
  unfold decimal
  split_ifs with zero
  · subst zero
    rfl
  · have small : ∀ d ∈ (Nat.digits 10 n).reverse, d < 10 := fun d member =>
      Nat.digits_lt_base (by decide) (List.mem_reverse.mp member)
    rw [List.map_congr_left fun d member => digitByte_eq_hexDigit (small d member),
      foldlM_pushDigit (by decide) small, foldl_reverse_digits]

theorem setString_decimal (n : Nat) : setString 10 (decimal n) = some (n : Int) := by
  obtain ⟨byte, rest, split, minus, plus⟩ := decimal_cases n
  have value := numeral_decimal n
  unfold setString
  rw [split] at value ⊢
  split
  · rename_i same
    exact absurd (List.cons.inj same).1 minus
  · rename_i same
    exact absurd (List.cons.inj same).1 plus
  · rw [value]
    rfl

theorem setString_itoa (n : Int) : setString 10 (itoa n) = some n := by
  unfold itoa
  split
  · have value : setString 10 (0x2d :: decimal n.natAbs) =
        (numeral 10 (decimal n.natAbs)).map fun m => -(m : Int) := rfl
    rw [value, numeral_decimal]
    exact congrArg some (show -(n.natAbs : Int) = n by omega)
  · rw [setString_decimal]
    exact congrArg some (by omega)

theorem notMem_itoa {n : Int} (other : digitValue byte = none) (sign : byte ≠ 0x2d) : byte ∉ itoa n := by
  unfold itoa
  split
  · intro member
    rcases List.mem_cons.mp member with same | member
    · exact sign same
    · exact notMem_decimal other member
  · exact notMem_decimal other

theorem itoa_injective : Function.Injective itoa := by
  have unsigned (n m : Nat) : 0x2d :: decimal n ≠ decimal m := by
    intro same
    have member : (0x2d : BitVec 8) ∈ decimal m := same ▸ List.mem_cons_self
    exact notMem_decimal (by decide) member
  intro n m same
  unfold itoa at same
  split at same
  · split at same
    · have magnitude := decimal_injective (List.cons.inj same).2
      omega
    · exact absurd same (unsigned _ _)
  · split at same
    · exact absurd same.symm (unsigned _ _)
    · have magnitude := decimal_injective same
      omega

theorem itoa_append_injective {separator : BitVec 8} (other : digitValue separator = none) (sign : separator ≠ 0x2d) :
    Function.Injective fun pair : Int × Int => itoa pair.1 ++ separator :: itoa pair.2 := by
  rintro ⟨n, m⟩ ⟨n', m'⟩ same
  obtain ⟨first, -, second⟩ := (List.append_cons_inj_of_notMem (notMem_itoa other sign)
    (notMem_itoa other sign)).mp same
  exact Prod.ext (itoa_injective first) (itoa_injective second)

theorem atoi_decimal (small : n < 2 ^ 63) : atoi (decimal n) = .ok n := by
  have parsed : parseUint (decimal n) = .ok n := parseUint_decimal (by omega)
  have minus : (0x2d : BitVec 8) ∉ decimal n := notMem_decimal (by decide)
  have plus : (0x2b : BitVec 8) ∉ decimal n := notMem_decimal (by decide)
  unfold atoi
  split
  · rename_i same
    rw [same] at minus
    exact absurd List.mem_cons_self minus
  · rename_i same
    rw [same] at plus
    exact absurd List.mem_cons_self plus
  · rw [parsed]
    exact if_pos small

theorem map_digitByte_lt {ds' : List Nat} (length : ds.length = ds'.length) (digits : ∀ d ∈ ds, d < 10)
    (digits' : ∀ d ∈ ds', d < 10) {n' : Nat}
    (less : ds.foldl (fun n d => n * 10 + d) n < ds'.foldl (fun n d => n * 10 + d) n') :
    n < n' ∨ n = n' ∧ ds.map digitByte < ds'.map digitByte := by
  induction ds generalizing ds' n n' with
  | nil =>
    rw [List.length_eq_zero_iff.mp length.symm] at less
    exact .inl less
  | cons d rest ih =>
    obtain ⟨d', rest', rfl⟩ := List.exists_cons_of_length_eq_add_one length.symm
    have small := digits d List.mem_cons_self
    have small' := digits' d' List.mem_cons_self
    have byte (d : Nat) (small : d < 10) : (digitByte d).toNat = 48 + d := by
      rw [digitByte, BitVec.toNat_ofNat]
      omega
    have later : n * 10 + d < n' * 10 + d' ∨ n * 10 + d = n' * 10 + d' ∧ rest.map digitByte < rest'.map digitByte :=
      ih (Nat.succ.inj length) (fun d member => digits d (List.mem_cons_of_mem _ member))
        (fun d member => digits' d (List.mem_cons_of_mem _ member)) less
    rw [List.map_cons, List.map_cons, List.cons_lt_cons_iff, BitVec.lt_def, byte d small, byte d' small']
    rcases later with less | ⟨same, less⟩
    · omega
    · have digit : d = d' := by omega
      exact .inr ⟨by omega, .inr ⟨by rw [digit], less⟩⟩

theorem decimal_lt {m : Nat} (length : (decimal n).length = (decimal m).length) (less : n < m) :
    decimal n < decimal m := by
  have bounds (n : Nat) : ∀ d ∈ (Nat.digits 10 n).reverse, d < 10 := fun d member =>
    Nat.digits_lt_base (by decide) (List.mem_reverse.mp member)
  have right : decimal m = (Nat.digits 10 m).reverse.map digitByte := if_neg (by omega)
  by_cases zero : n = 0
  · subst zero
    rw [right, decimal, if_pos rfl] at length ⊢
    have folds : 0 < 0 ∨ 0 = 0 ∧ [0].map digitByte < (Nat.digits 10 m).reverse.map digitByte := by
      apply map_digitByte_lt (by simpa using length) (by simp) (bounds m)
      rw [foldl_reverse_digits]
      exact less
    exact (folds.resolve_left (lt_irrefl 0)).2
  · have left : decimal n = (Nat.digits 10 n).reverse.map digitByte := if_neg zero
    rw [left, right] at length ⊢
    have folds : 0 < 0 ∨ 0 = 0 ∧ (Nat.digits 10 n).reverse.map digitByte < (Nat.digits 10 m).reverse.map digitByte := by
      apply map_digitByte_lt (by simpa using length) (bounds n) (bounds m)
      rw [foldl_reverse_digits, foldl_reverse_digits]
      exact less
    exact (folds.resolve_left (lt_irrefl 0)).2

end Go
