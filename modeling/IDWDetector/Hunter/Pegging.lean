import IDWDetector.Go.Strconv
import IDWDetector.Hunter.Floats
import IDWDetector.Hunter.Monotone
import Mathlib.Tactic.LinearCombination

namespace IDWDetector.Hunter

open Go

/-- A row of a file of stable tokens, with the two numbers as trimmed text. -/
structure StableRow where
  tokenAddress : Address
  rate : List (BitVec 8)
  decimals : List (BitVec 8)

def xTokenOf (name : String) : Address :=
  if name = "stableTokenToETH.csv" then 1
  else if name = "stableTokenToUSD.csv" then 2
  else if name = "stableTokenToBTC.csv" then 3
  else 0

def StableRow.stableToken (name : String) (row : StableRow) : StableToken where
  decimals := parseIntValue row.decimals
  xToken := xTokenOf name
  rateToXToken := BitVec.ofInt 64 (parseIntValue row.rate)

def loadStableTokenInfo (files : List (String × List StableRow)) : Map Address StableToken :=
  files.foldl (fun stableTokenMap file => file.2.foldl (fun stableTokenMap row =>
    stableTokenMap.set row.tokenAddress (row.stableToken file.1)) stableTokenMap) .empty

structure StableToken.Loaded (stable : StableToken) : Prop where
  xToken : stable.xToken ≠ 4
  decimals : -2 ^ 63 ≤ stable.decimals ∧ stable.decimals < 2 ^ 63

theorem StableRow.stableToken_loaded (name : String) (row : StableRow) : (row.stableToken name).Loaded where
  xToken := by
    change xTokenOf name ≠ 4
    unfold xTokenOf
    split_ifs
    all_goals decide
  decimals := parseIntValue_bounds row.decimals

def AllLoaded (stableTokenMap : Map Address StableToken) : Prop :=
  ∀ token stable, stableTokenMap.lookup token = some stable → stable.Loaded

theorem AllLoaded.set {stableTokenMap : Map Address StableToken} (all : AllLoaded stableTokenMap) (name : String)
    (row : StableRow) : AllLoaded (stableTokenMap.set row.tokenAddress (row.stableToken name)) := by
  intro token stable found
  rcases Map.of_lookup_set found with ⟨-, rfl⟩ | found
  · exact row.stableToken_loaded name
  · exact all token stable found

theorem loadStableTokenInfo_loaded (files : List (String × List StableRow)) :
    AllLoaded (loadStableTokenInfo files) := by
  refine List.foldlRecOn files _ (fun _ _ none => nomatch none) fun stables all file _ => ?_
  refine List.foldlRecOn file.2 _ all fun stables all row _ => ?_
  exact all.set file.1 row

def StableToken.factor (stable : StableToken) : ℚ :=
  stable.rateToXToken.toInt * (10 : ℚ) ^ (18 - stable.decimals)

def StableToken.fits (stable : StableToken) : Bool :=
  decide (stable.decimals ≤ 18) && decide (stable.rateToXToken.toInt * 10 ^ (18 - stable.decimals).toNat < 2 ^ 63)

namespace StableToken

variable {stable : StableToken}

theorem factor_pos (positive : 0 < stable.rateToXToken.toInt) : 0 < stable.factor := by
  have rate : (0 : ℚ) < stable.rateToXToken.toInt := by exact_mod_cast positive
  exact mul_pos rate (zpow_pos (by norm_num) _)

theorem factor_eq (few : stable.decimals ≤ 18) :
    stable.factor = (stable.rateToXToken.toInt * 10 ^ (18 - stable.decimals).toNat : Int) := by
  have exponent : ((18 - stable.decimals).toNat : Int) = 18 - stable.decimals := Int.toNat_of_nonneg (by omega)
  rw [factor, ← exponent, zpow_natCast, Int.toNat_natCast]
  push_cast
  rfl

theorem rate_lt (stable : StableToken) : stable.rate < 2 ^ 63 := by
  have bound := BitVec.two_mul_toInt_lt (x := stable.rateToXToken * pow10 ((18 - stable.decimals).bmod (2 ^ 64)))
  rw [rate]
  omega

theorem rate_of_many (loaded : stable.Loaded) (many : 18 < stable.decimals) : stable.rate = 0 := by
  have upper := loaded.decimals.2
  have exponent : (18 - stable.decimals).bmod (2 ^ 64) = 18 - stable.decimals := by
    apply Int.bmod_eq_of_le_mul_two
    · omega
    · omega
  have nothing : pow10 (18 - stable.decimals) = 0#64 := if_pos (by omega)
  rw [rate, exponent, nothing, BitVec.mul_zero, BitVec.toInt_zero]

theorem rate_of_few (nonnegative : 0 ≤ stable.decimals) (few : stable.decimals ≤ 18) :
    stable.rate = (stable.rateToXToken.toInt * 10 ^ (18 - stable.decimals).toNat).bmod (2 ^ 64) := by
  have exponent : (18 - stable.decimals).bmod (2 ^ 64) = 18 - stable.decimals := by
    apply Int.bmod_eq_of_le_mul_two
    · omega
    · omega
  have power : (pow10 (18 - stable.decimals)).toInt = 10 ^ (18 - stable.decimals).toNat := by
    have small : 10 ^ (18 - stable.decimals).toNat ≤ 10 ^ 18 := Nat.pow_le_pow_right (by decide) (by omega)
    rw [pow10, if_neg (by omega), if_pos (by omega), BitVec.toInt_eq_toNat_of_lt]
    · rw [BitVec.toNat_ofNat, Nat.mod_eq_of_lt (by omega)]
      push_cast
      rfl
    · rw [BitVec.toNat_ofNat, Nat.mod_eq_of_lt (by omega)]
      omega
  rw [rate, exponent, BitVec.toInt_mul, power]

theorem rate_eq_factor_iff (loaded : stable.Loaded) (positive : 0 < stable.rateToXToken.toInt) :
    (stable.rate : ℚ) = stable.factor ↔ stable.fits = true := by
  rw [fits, Bool.and_eq_true, decide_eq_true_eq, decide_eq_true_eq]
  by_cases few : stable.decimals ≤ 18
  · rw [factor_eq few, Int.cast_inj]
    by_cases nonnegative : 0 ≤ stable.decimals
    · rw [rate_of_few nonnegative few]
      have product : 0 < stable.rateToXToken.toInt * 10 ^ (18 - stable.decimals).toNat :=
        mul_pos positive (pow_pos (by decide) _)
      constructor
      · intro same
        have bound := rate_lt stable
        rw [rate_of_few nonnegative few, same] at bound
        exact ⟨few, bound⟩
      · rintro ⟨-, bound⟩
        apply Int.bmod_eq_of_le_mul_two
        · omega
        · omega
    · have large : (2 : Int) ^ 63 ≤ stable.rateToXToken.toInt * 10 ^ (18 - stable.decimals).toNat := by
        have power : (10 : Int) ^ 19 ≤ 10 ^ (18 - stable.decimals).toNat :=
          pow_le_pow_right₀ (by decide) (by omega)
        calc (2 : Int) ^ 63 ≤ 1 * 10 ^ 19 := by decide
          _ ≤ stable.rateToXToken.toInt * 10 ^ (18 - stable.decimals).toNat :=
            mul_le_mul (by omega) power (by decide) (by omega)
      have bound := rate_lt stable
      constructor
      · intro same
        omega
      · rintro ⟨-, small⟩
        omega
  · have zero := rate_of_many loaded (by omega)
    constructor
    · intro same
      rw [zero, Int.cast_zero] at same
      exact absurd same (ne_of_lt (factor_pos positive))
    · rintro ⟨inside, -⟩
      exact absurd inside few

end StableToken

namespace TxExtractor

variable (x : TxExtractor)

/-- The lists whose amounts are X tokens of one kind: that of the X token, and the merged one for US dollars. -/
def PegList (xToken key : Address) (convert : TokenTx → Option BigFloat) : Prop :=
  key = xToken ∧ convert = x.stableFloat ∨ xToken = 2 ∧ key = 4 ∧ convert = x.mergedFloat

/-- The list of a user for a key has an entry of the transfer with the amount. -/
def EntersAs (sort : List TokenTx → List TokenTx) (order : Address → List Address) (key : Address)
    (convert : TokenTx → Option BigFloat) (user : Address) (tokenTx : TokenTx) (amount : ℚ) : Prop :=
  ∃ flows, ((x.generateUserFloats sort order).getD user .empty).lookup key = some flows ∧
    ∃ flow ∈ flows, flow.Enters convert tokenTx ∧ flow.amount.value = amount

/-- Transfers of stable tokens of one X token have entries with one positive amount, by the exact factor of each. -/
structure Preserves (sort : List TokenTx → List TokenTx) (order : Address → List Address) (first second : StableToken)
    (user user' : Address) (tokenTx tokenTx' : TokenTx) : Prop where
  amounts : ∀ key convert, x.PegList first.xToken key convert → ∃ amount : ℚ, 0 < amount ∧
    x.EntersAs sort order key convert user tokenTx amount ∧ x.EntersAs sort order key convert user' tokenTx' amount
  exact_first : (first.rate : ℚ) = first.factor
  exact_second : (second.rate : ℚ) = second.factor

/-- The bits that `SetInt` gives an amount, and `Mul` keeps. -/
def amountBits (tokenTx : TokenTx) : ℕ := (BigFloat.setInt tokenTx.amount).prec

variable {x} {tokenTx : TokenTx} {stable : StableToken} {key : Address} {convert : TokenTx → Option BigFloat}

theorem amountBits_ne_zero (tokenTx : TokenTx) : amountBits tokenTx ≠ 0 :=
  Nat.ne_of_gt (lt_of_lt_of_le (by decide) (le_max_right _ 64))

theorem PegList.converted (peg : x.PegList stable.xToken key convert)
    (isStable : x.stableTokenMap.lookup tokenTx.tokenAddress = some stable) :
    ∃ amount, convert tokenTx = some amount ∧
      amount.value = BigFloat.round (amountBits tokenTx) (tokenTx.amount * stable.rate) := by
  refine ⟨.setInt tokenTx.amount * .setInt64 stable.rate, ?_, ?_⟩
  · rcases peg with ⟨-, rfl⟩ | ⟨dollar, -, rfl⟩
    · rw [stableFloat, isStable]
      rfl
    · simp only [mergedFloat, isStable, if_pos dollar]
  · have small : |stable.rate| < 2 ^ 64 := by
      have upper := BitVec.two_mul_toInt_lt (x := stable.rateToXToken * pow10 ((18 - stable.decimals).bmod (2 ^ 64)))
      have lower := BitVec.le_two_mul_toInt (x := stable.rateToXToken * pow10 ((18 - stable.decimals).bmod (2 ^ 64)))
      rw [StableToken.rate, abs_lt]
      omega
    rw [BigFloat.mul_value, BigFloat.setInt_value, BigFloat.setInt64_value small]
    congr 1
    exact max_eq_left (le_max_right _ 64)

theorem PegList.amount_value (peg : x.PegList stable.xToken key convert)
    (isStable : x.stableTokenMap.lookup tokenTx.tokenAddress = some stable) {flow : FloatFlow}
    (enters : flow.Enters convert tokenTx) :
    flow.amount.value = BigFloat.round (amountBits tokenTx) (tokenTx.amount * stable.rate) := by
  obtain ⟨amount, converted, value⟩ := peg.converted isStable
  rw [← value, Option.some.inj (enters.amount.symm.trans converted)]

theorem entersAs_of_stable {sort : List TokenTx → List TokenTx} {order : Address → List Address}
    (sorts : ∀ list, Sorted TokenTx.less list (sort list)) {user : Address} {tokenTxMap : TokenTxMap}
    (found : x.userTokenTxMap.lookup user = some tokenTxMap) (allTokens : Map.Enumerates (order user) tokenTxMap)
    (isStable : x.stableTokenMap.lookup tokenTx.tokenAddress = some stable)
    (loaded : stable.Loaded) {list : List TokenTx} (listed : tokenTxMap.lookup tokenTx.tokenAddress = some list)
    (member : tokenTx ∈ list) (positive : 0 < tokenTx.amount) (peg : x.PegList stable.xToken key convert) :
    x.EntersAs sort order key convert user tokenTx
      (BigFloat.round (amountBits tokenTx) (tokenTx.amount * stable.rate)) := by
  have known : tokenTx.tokenAddress ∈ order user := by
    rw [allTokens.mem_iff, Map.mem_keys_iff]
    exact ⟨list, listed⟩
  have inside {tokens : List Address} (held : tokenTx.tokenAddress ∈ tokens) :
      tokenTx ∈ sort (transfersIn tokenTxMap tokens) := by
    apply (sorts _).perm.mem_iff.mpr
    apply List.mem_flatMap.mpr
    refine ⟨tokenTx.tokenAddress, held, ?_⟩
    rw [Map.getD, listed]
    exact member
  obtain ⟨amount, converted, -⟩ := peg.converted isStable
  have enters {group : List TokenTx} (held : tokenTx ∈ group) :
      ∃ flow ∈ floatList convert group, flow.Enters convert tokenTx ∧
        flow.amount.value = BigFloat.round (amountBits tokenTx) (tokenTx.amount * stable.rate) := by
    obtain ⟨flow, entry, enters⟩ := exists_enters held positive converted
    exact ⟨flow, entry, enters, peg.amount_value isStable enters⟩
  rw [EntersAs, lookup_generateUserFloats found]
  simp only [lookup_loopFlows]
  rcases peg with ⟨rfl, rfl⟩ | ⟨dollar, rfl, rfl⟩
  · have pegs : tokenTx.tokenAddress ∈ x.pegged stable.xToken (order user) :=
      mem_pegged.mpr ⟨known, stable, isStable, rfl⟩
    rw [if_neg loaded.xToken, if_neg (List.ne_nil_of_mem pegs)]
    exact ⟨_, rfl, enters (inside pegs)⟩
  · exact ⟨_, if_pos rfl, enters (inside known)⟩

theorem EntersAs.amount_eq {sort : List TokenTx → List TokenTx} {order : Address → List Address} {user : Address}
    {amount : ℚ} (enters : x.EntersAs sort order key convert user tokenTx amount)
    (peg : x.PegList stable.xToken key convert)
    (isStable : x.stableTokenMap.lookup tokenTx.tokenAddress = some stable) :
    amount = BigFloat.round (amountBits tokenTx) (tokenTx.amount * stable.rate) := by
  obtain ⟨flows, -, flow, -, enters, rfl⟩ := enters
  exact peg.amount_value isStable enters

/-- Transfers of one worth have one positive amount in their X token exactly if both factors are integers that
    `int64` holds and the worth has one rounding to the bits of either amount. -/
theorem peg_preserved_iff (x : TxExtractor) (files : List (String × List StableRow))
    (loaded : x.stableTokenMap = loadStableTokenInfo files) {sort : List TokenTx → List TokenTx}
    (sorts : ∀ list, Sorted TokenTx.less list (sort list)) {order : Address → List Address}
    (allTokens : ∀ user tokenTxMap, x.userTokenTxMap.lookup user = some tokenTxMap →
      Map.Enumerates (order user) tokenTxMap)
    {first second : StableToken} {user user' : Address} {tokenTxMap tokenTxMap' : TokenTxMap}
    {list list' : List TokenTx} {tokenTx tokenTx' : TokenTx}
    (found : x.userTokenTxMap.lookup user = some tokenTxMap) (found' : x.userTokenTxMap.lookup user' = some tokenTxMap')
    (listed : tokenTxMap.lookup tokenTx.tokenAddress = some list) (member : tokenTx ∈ list)
    (listed' : tokenTxMap'.lookup tokenTx'.tokenAddress = some list') (member' : tokenTx' ∈ list')
    (isFirst : x.stableTokenMap.lookup tokenTx.tokenAddress = some first)
    (isSecond : x.stableTokenMap.lookup tokenTx'.tokenAddress = some second) (one : first.xToken = second.xToken)
    (rate : 0 < first.rateToXToken.toInt) (rate' : 0 < second.rateToXToken.toInt)
    (positive : 0 < tokenTx.amount) (positive' : 0 < tokenTx'.amount)
    (worth : (tokenTx.amount : ℚ) * first.rateToXToken.toInt * 10 ^ (-first.decimals) =
      tokenTx'.amount * second.rateToXToken.toInt * 10 ^ (-second.decimals)) :
    x.Preserves sort order first second user user' tokenTx tokenTx' ↔ first.fits = true ∧ second.fits = true ∧
      BigFloat.round (amountBits tokenTx) (tokenTx.amount * first.factor) =
        BigFloat.round (amountBits tokenTx') (tokenTx.amount * first.factor) := by
  have firstLoaded : first.Loaded := by
    rw [loaded] at isFirst
    exact loadStableTokenInfo_loaded files _ _ isFirst
  have secondLoaded : second.Loaded := by
    rw [loaded] at isSecond
    exact loadStableTokenInfo_loaded files _ _ isSecond
  have shift (n : ℤ) : (10 : ℚ) ^ (18 - n) = 10 ^ (18 : ℤ) * 10 ^ (-n) := by
    rw [sub_eq_add_neg, zpow_add₀ (by norm_num)]
  have same : (tokenTx.amount : ℚ) * first.factor = tokenTx'.amount * second.factor := by
    rw [StableToken.factor, StableToken.factor, shift, shift]
    linear_combination ((10 : ℚ) ^ (18 : ℤ)) * worth
  constructor
  · intro preserves
    obtain ⟨amount, -, enters, enters'⟩ := preserves.amounts first.xToken x.stableFloat (.inl ⟨rfl, rfl⟩)
    have peg : x.PegList second.xToken first.xToken x.stableFloat := .inl ⟨one, rfl⟩
    have here := enters.amount_eq (.inl ⟨rfl, rfl⟩) isFirst
    have there := enters'.amount_eq peg isSecond
    refine ⟨(StableToken.rate_eq_factor_iff firstLoaded rate).mp preserves.exact_first,
      (StableToken.rate_eq_factor_iff secondLoaded rate').mp preserves.exact_second, ?_⟩
    rw [← preserves.exact_first, ← here, there, preserves.exact_first, same, preserves.exact_second]
  · rintro ⟨fits, fits', rounds⟩
    have exactly := (StableToken.rate_eq_factor_iff firstLoaded rate).mpr fits
    have exactly' := (StableToken.rate_eq_factor_iff secondLoaded rate').mpr fits'
    refine ⟨fun key convert peg =>
      ⟨BigFloat.round (amountBits tokenTx) (tokenTx.amount * first.rate), ?_, ?_, ?_⟩, exactly, exactly'⟩
    · rw [exactly]
      exact BigFloat.round_pos (amountBits_ne_zero tokenTx)
        (mul_pos (by exact_mod_cast positive) (StableToken.factor_pos rate))
    · exact entersAs_of_stable sorts found
        (allTokens user tokenTxMap found) isFirst firstLoaded listed member positive peg
    · rw [exactly, rounds, same, ← exactly']
      exact entersAs_of_stable sorts found' (allTokens user' tokenTxMap' found') isSecond secondLoaded listed' member'
        positive' (one ▸ peg)

-- One worth at 6 decimals, where the amount has 37 bits, and at 18, where it has 77.
example : BigFloat.round 64 (100000000001 * 10 ^ 12) = 100000000000999999995904 ∧
    BigFloat.round 77 (100000000001 * 10 ^ 12) = 100000000001 * 10 ^ 12 := by
  decide +kernel

def dollarDeposit (amount : Int) : TokenTx := ⟨1, 0, 0, 0x20, 0x50, amount, 0xa0, .deposit⟩

def dollarWithdrawal : TokenTx := ⟨2, 0, 0, 0x50, 0x20, 1000000000000, 0xa1, .withdraw⟩

/-- A user with transfers in two tokens of one US dollar each, the second of 18 decimals. -/
def twoDollars (decimals : List (BitVec 8)) (amount : Int) : TxExtractor where
  proxyABI := {0x50}
  userTokenTxMap := Map.empty.set 0x20
    ((Map.empty.set 0xa0 [dollarDeposit amount]).set 0xa1 [dollarWithdrawal])
  stableTokenMap := loadStableTokenInfo
    [("stableTokenToUSD.csv", [⟨0xa0, [0x31], decimals⟩, ⟨0xa1, [0x31], [0x31, 0x38]⟩])]

section Dollars

variable (decimals : List (BitVec 8)) (amount : Int)

theorem twoDollars_transfers : (twoDollars decimals amount).userTokenTxMap.lookup 0x20 =
    some ((Map.empty.set 0xa0 [dollarDeposit amount]).set 0xa1 [dollarWithdrawal]) :=
  Map.lookup_set_self _ _ _

theorem twoDollars_enumerates (user : Address) (tokenTxMap : TokenTxMap)
    (found : (twoDollars decimals amount).userTokenTxMap.lookup user = some tokenTxMap) :
    Map.Enumerates [0xa0, 0xa1] tokenTxMap := by
  obtain ⟨-, rfl⟩ := Map.of_lookup_single found
  refine ⟨by decide, fun token => ?_⟩
  simp [or_comm]

end Dollars

/-- A deposit in a token of 24 decimals is worth as much as the withdrawal, and counts for nothing. -/
theorem twoDollars_truncated :
    ((10 ^ 18 : Int) : ℚ) * 1 * 10 ^ (-24 : Int) = ((1000000000000 : Int) : ℚ) * 1 * 10 ^ (-18 : Int) ∧
    (twoDollars [0x32, 0x34] (10 ^ 18)).EntersAs (stableSort TokenTx.less) (fun _ => [0xa0, 0xa1]) 2
      (twoDollars [0x32, 0x34] (10 ^ 18)).stableFloat 0x20 (dollarDeposit (10 ^ 18)) 0 ∧
    ¬(twoDollars [0x32, 0x34] (10 ^ 18)).Preserves (stableSort TokenTx.less) (fun _ => [0xa0, 0xa1])
      ⟨24, 2, 1⟩ ⟨18, 2, 1⟩
      0x20 0x20 (dollarDeposit (10 ^ 18)) dollarWithdrawal := by
  have isStable : (twoDollars [0x32, 0x34] (10 ^ 18)).stableTokenMap.lookup (dollarDeposit (10 ^ 18)).tokenAddress =
      some ⟨24, 2, 1⟩ := by
    decide +kernel
  have loaded : StableToken.Loaded ⟨24, 2, 1⟩ := loadStableTokenInfo_loaded _ _ _ isStable
  have rate : StableToken.rate ⟨24, 2, 1⟩ = 0 := StableToken.rate_of_many loaded (by decide)
  refine ⟨by norm_num, ?_, ?_⟩
  · have enters : (twoDollars [0x32, 0x34] (10 ^ 18)).EntersAs (stableSort TokenTx.less) (fun _ => [0xa0, 0xa1]) 2
        (twoDollars [0x32, 0x34] (10 ^ 18)).stableFloat 0x20 (dollarDeposit (10 ^ 18))
        (BigFloat.round _ ((dollarDeposit (10 ^ 18)).amount * StableToken.rate ⟨24, 2, 1⟩)) :=
      entersAs_of_stable TokenTx.less_weakOrder.stableSort_sorted (twoDollars_transfers _ _)
        (twoDollars_enumerates [0x32, 0x34] (10 ^ 18) _ _
          (twoDollars_transfers _ _)) isStable loaded rfl List.mem_cons_self (by decide)
        (.inl ⟨rfl, rfl⟩)
    rw [rate, Int.cast_zero, mul_zero, BigFloat.round_zero] at enters
    exact enters
  · intro preserves
    have exactly := preserves.exact_first
    rw [rate, Int.cast_zero] at exactly
    exact absurd exactly (ne_of_lt (StableToken.factor_pos (by decide)))

theorem peg_preserved_dollars :
    (twoDollars [0x36] 1).Preserves (stableSort TokenTx.less) (fun _ => [0xa0, 0xa1]) ⟨6, 2, 1⟩ ⟨18, 2, 1⟩
      0x20 0x20 (dollarDeposit 1) dollarWithdrawal := by
  have isFirst : (twoDollars [0x36] 1).stableTokenMap.lookup (dollarDeposit 1).tokenAddress = some ⟨6, 2, 1⟩ := by
    decide +kernel
  have isSecond : (twoDollars [0x36] 1).stableTokenMap.lookup dollarWithdrawal.tokenAddress = some ⟨18, 2, 1⟩ := by
    decide +kernel
  have worth : ((dollarDeposit 1).amount : ℚ) * (1 : Uint64).toInt * 10 ^ (-6 : Int) =
      dollarWithdrawal.amount * (1 : Uint64).toInt * 10 ^ (-18 : Int) := by
    have one : (1 : Uint64).toInt = 1 := rfl
    norm_num [dollarDeposit, dollarWithdrawal, one]
  exact (peg_preserved_iff (twoDollars [0x36] 1) _ rfl TokenTx.less_weakOrder.stableSort_sorted
    (twoDollars_enumerates [0x36] 1)
    (twoDollars_transfers _ _) (twoDollars_transfers _ _) rfl List.mem_cons_self rfl List.mem_cons_self
    isFirst isSecond rfl (by decide) (by decide) (by decide) (by decide) worth).mpr ⟨by decide, by decide, rfl⟩

end TxExtractor

end IDWDetector.Hunter
