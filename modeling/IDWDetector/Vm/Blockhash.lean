import IDWDetector.Research.Substate
import Mathlib.Data.BitVec

namespace IDWDetector.Vm

open Go

abbrev Word := BitVec 256

def low64 (num : Word) : Uint64 := num.setWidth 64

def overflows (num : Word) : Bool := decide (2 ^ 64 ≤ num.toNat)

def lowerBound (upper : Uint64) : Uint64 := if upper < 257 then 0 else upper - 256

/-- `opBlockhash` replaces the operand on the stack; the deferred closure then records the new word under the low 64
    bits of the old one. -/
def opBlockhash {ε : Type} (upper : Uint64) (getHash : ε → Uint64 → Hash × ε) (num : Word)
    (recorded : Map Uint64 Hash) (env : ε) : Word × Map Uint64 Hash × ε :=
  let (result, env) :=
    if overflows num then (0, env)
    else if lowerBound upper ≤ low64 num ∧ low64 num < upper then getHash env (low64 num)
    else (0, env)
  (result, recorded.set (low64 num) result, env)

def blockhashes {ε : Type} (upper : Uint64) (getHash : ε → Uint64 → Hash × ε) :
    List Word → Map Uint64 Hash → ε → List Word × Map Uint64 Hash × ε
  | [], recorded, env => ([], recorded, env)
  | num :: rest, recorded, env =>
    let (result, recorded, env) := opBlockhash upper getHash num recorded env
    let (results, recorded, env) := blockhashes upper getHash rest recorded env
    (result :: results, recorded, env)

/-- The `getHash` of `replayTask`; the state is the number `hashError` complains about. -/
def replayGetHash (env : SubstateEnv) (hashError : Option Uint64) (num : Uint64) : Hash × Option Uint64 :=
  match env.blockHashes.lookup num with
  | some h => (h, hashError)
  | none => (0, some num)

/-- The words pushed while the transaction is recorded, and the recorded environment. -/
def recordBlockhashes (b : Block) (chain : Uint64 → Hash) (operands : List Word) : List Word × SubstateEnv :=
  let (results, recorded, _) :=
    blockhashes b.numberU64 (fun (_ : Unit) num => (chain num, ())) operands .empty ()
  (results, newSubstateEnv b recorded)

def replayBlockhashes (env : SubstateEnv) (operands : List Word) : List Word × Option Uint64 :=
  let (results, _, hashError) := blockhashes env.number (replayGetHash env) operands .empty none
  (results, hashError)

/-- An operand for which `GetHash` is asked. -/
def InWindow (upper : Uint64) (num : Word) : Prop :=
  overflows num = false ∧ lowerBound upper ≤ low64 num ∧ low64 num < upper

instance (upper : Uint64) (num : Word) : Decidable (InWindow upper num) := by
  unfold InWindow
  infer_instance

def answer (upper : Uint64) (chain : Uint64 → Hash) (num : Word) : Word :=
  if InWindow upper num then chain (low64 num) else 0

/-- The last operand whose low 64 bits are the given ones. -/
def lastWith (key : Uint64) (operands : List Word) : Option Word :=
  (operands.filter fun num => low64 num = key).getLast?

theorem opBlockhash_eq {ε : Type} (upper : Uint64) (getHash : ε → Uint64 → Hash × ε) (num : Word)
    (recorded : Map Uint64 Hash) (env : ε) :
    opBlockhash upper getHash num recorded env =
      if InWindow upper num then
        ((getHash env (low64 num)).1, recorded.set (low64 num) (getHash env (low64 num)).1,
          (getHash env (low64 num)).2)
      else (0, recorded.set (low64 num) 0, env) := by
  unfold opBlockhash InWindow
  by_cases overflow : overflows num = true
  · simp [overflow]
  · by_cases window : lowerBound upper ≤ low64 num ∧ low64 num < upper
    · simp [overflow, window]
    · simp only [overflow, window, and_false, if_false]
      rfl

theorem overflow_of_same_low {first second : Word} (same : low64 first = low64 second) (different : first ≠ second)
    (small : overflows first = false) : overflows second = true := by
  have equal := congrArg BitVec.toNat same
  simp only [low64, BitVec.toNat_setWidth] at equal
  simp only [overflows, decide_eq_false_iff_not, not_le] at small
  simp only [overflows, decide_eq_true_eq]
  by_contra large
  have secondSmall : second.toNat < 2 ^ 64 := by omega
  rw [Nat.mod_eq_of_lt small, Nat.mod_eq_of_lt secondSmall] at equal
  exact different (BitVec.eq_of_toNat_eq equal)

theorem lastWith_cons (key : Uint64) (num : Word) (rest : List Word) :
    lastWith key (num :: rest) = (lastWith key rest).or (if low64 num = key then some num else none) := by
  unfold lastWith
  by_cases same : low64 num = key
  · rw [List.filter_cons_of_pos (by simpa using same), List.getLast?_cons, if_pos same]
    cases (rest.filter fun num => low64 num = key).getLast? <;> rfl
  · rw [List.filter_cons_of_neg (by simpa using same), if_neg same, Option.or_none]

theorem lastWith_spec {key : Uint64} {operands : List Word} {last : Word} (found : lastWith key operands = some last) :
    last ∈ operands ∧ low64 last = key := by
  have member := List.mem_of_getLast? found
  simpa using List.mem_filter.mp member

theorem lastWith_of_mem {operands : List Word} {num : Word} (member : num ∈ operands) :
    ∃ last, lastWith (low64 num) operands = some last := by
  have inside : num ∈ operands.filter fun other => low64 other = low64 num :=
    List.mem_filter.mpr ⟨member, by simp⟩
  exact Option.isSome_iff_exists.mp (List.getLast?_isSome.mpr (List.ne_nil_of_mem inside))

theorem blockhashes_chain (upper : Uint64) (chain : Uint64 → Hash) (operands : List Word)
    (recorded : Map Uint64 Hash) :
    (blockhashes upper (fun (_ : Unit) num => (chain num, ())) operands recorded ()).1 =
        operands.map (answer upper chain) ∧
      ∀ key, (blockhashes upper (fun (_ : Unit) num => (chain num, ())) operands recorded ()).2.1.lookup key =
        ((lastWith key operands).map (answer upper chain)).or (recorded.lookup key) := by
  induction operands generalizing recorded with
  | nil => exact ⟨rfl, fun key => rfl⟩
  | cons num rest ih =>
    have step : opBlockhash upper (fun (_ : Unit) num => (chain num, ())) num recorded () =
        (answer upper chain num, recorded.set (low64 num) (answer upper chain num), ()) := by
      rw [opBlockhash_eq]
      unfold answer
      split <;> rfl
    obtain ⟨results, lookups⟩ := ih (recorded.set (low64 num) (answer upper chain num))
    simp only [blockhashes, step]
    refine ⟨by rw [results]; rfl, ?_⟩
    intro key
    rw [lookups, lastWith_cons, Map.lookup_set]
    by_cases same : low64 num = key
    · rw [if_pos same.symm, if_pos same]
      cases lastWith key rest <;> rfl
    · rw [if_neg (fun equal => same equal.symm), if_neg same, Option.or_none]

theorem blockhashes_replay (upper : Uint64) (env : SubstateEnv) (operands : List Word)
    (complete : ∀ num ∈ operands, InWindow upper num → env.blockHashes.lookup (low64 num) ≠ none)
    (recorded : Map Uint64 Hash) (hashError : Option Uint64) :
    (blockhashes upper (replayGetHash env) operands recorded hashError).1 =
        operands.map (answer upper fun num => env.blockHashes.getD num 0) ∧
      (blockhashes upper (replayGetHash env) operands recorded hashError).2.2 = hashError := by
  induction operands generalizing recorded with
  | nil => exact ⟨rfl, rfl⟩
  | cons num rest ih =>
    have step : ∃ next, opBlockhash upper (replayGetHash env) num recorded hashError =
        (answer upper (fun num => env.blockHashes.getD num 0) num, next, hashError) := by
      rw [opBlockhash_eq]
      unfold answer
      split_ifs with window
      · have present := complete num List.mem_cons_self window
        obtain ⟨h, found⟩ := Option.ne_none_iff_exists'.mp present
        simp only [replayGetHash, Map.getD, found]
        exact ⟨_, rfl⟩
      · exact ⟨_, rfl⟩
    obtain ⟨next, step⟩ := step
    obtain ⟨results, error⟩ := ih (fun other member => complete other (List.mem_cons_of_mem _ member)) next
    simp only [blockhashes, step]
    exact ⟨by rw [results]; rfl, error⟩

/-- The replay pushes the recorded words exactly if every in-window operand with a non-zero hash is the last one
    with its low 64 bits. -/
theorem replayBlockhashes_iff (b : Block) (chain : Uint64 → Hash) (operands : List Word) :
    replayBlockhashes (recordBlockhashes b chain operands).2 operands =
        ((recordBlockhashes b chain operands).1, none) ↔
      ∀ num ∈ operands, InWindow b.numberU64 num → chain (low64 num) ≠ 0 →
        lastWith (low64 num) operands = some num := by
  obtain ⟨results, lookups⟩ := blockhashes_chain b.numberU64 chain operands .empty
  let env := (recordBlockhashes b chain operands).2
  have recorded (key : Uint64) : env.blockHashes.lookup key =
    (lastWith key operands).map (answer b.numberU64 chain) := by
    simp only [env, recordBlockhashes, newSubstateEnv, Map.lookup_mapValues, lookups, Map.lookup_empty,
      Option.or_none, Option.map_id']
  have complete : ∀ num ∈ operands, InWindow b.numberU64 num → env.blockHashes.lookup (low64 num) ≠ none := by
    intro num member _
    obtain ⟨last, found⟩ := lastWith_of_mem member
    rw [recorded, found]
    exact Option.some_ne_none _
  obtain ⟨replayed, error⟩ := blockhashes_replay b.numberU64 env operands complete .empty none
  have number : env.number = b.numberU64 := rfl
  have both : replayBlockhashes env operands =
      (operands.map (answer b.numberU64 fun num => env.blockHashes.getD num 0), none) := by
    simp only [replayBlockhashes, number, replayed, error]
  have first : (recordBlockhashes b chain operands).1 = operands.map (answer b.numberU64 chain) := results
  rw [show (recordBlockhashes b chain operands).2 = env from rfl, both, first]
  simp only [Prod.mk.injEq, and_true, List.map_inj_left]
  constructor
  · intro same num member window nonzero
    obtain ⟨last, found⟩ := lastWith_of_mem member
    have equal := same num member
    simp only [answer, if_pos window, Map.getD, recorded, found, Option.map_some, Option.getD_some] at equal
    have low := (lastWith_spec found).2
    by_cases last_eq : num = last
    · rw [found, last_eq]
    · -- the last operand with these low bits overflowed, so zero was recorded
      have overflow := overflow_of_same_low low.symm last_eq window.1
      have outside : ¬ InWindow b.numberU64 last := fun inside => by simp [inside.1] at overflow
      rw [if_neg outside] at equal
      exact absurd equal.symm nonzero
  · intro last num member
    by_cases window : InWindow b.numberU64 num
    · simp only [answer, if_pos window, Map.getD, recorded]
      by_cases zero : chain (low64 num) = 0
      · obtain ⟨other, found⟩ := lastWith_of_mem member
        have low := (lastWith_spec found).2
        have cleared : answer b.numberU64 chain other = 0 := by
          unfold answer
          rw [low, zero, ite_self]
        rw [found, zero]
        exact cleared
      · rw [last num member window zero]
        exact if_pos window
    · simp only [answer, if_neg window]

/-- An operand that overflows clears the record of the block its low 64 bits name. -/
theorem overflow_clears_record :
    (recordBlockhashes ⟨0, 0, 0, 300, 0, none⟩ (fun _ => 7) [299, 2 ^ 64 + 299]).1 = [7, 0] ∧
      replayBlockhashes (recordBlockhashes ⟨0, 0, 0, 300, 0, none⟩ (fun _ => 7) [299, 2 ^ 64 + 299]).2
        [299, 2 ^ 64 + 299] = ([0, 0], none) := by
  decide +kernel

end IDWDetector.Vm
