import IDWDetector.Research.Substate
import Mathlib.Data.List.Forall2

namespace IDWDetector

def SameAccount : Option SubstateAccount → Option SubstateAccount → Prop
  | none, none => True
  | some x, some y => x.nonce = y.nonce ∧ x.balance = y.balance ∧ x.code = y.code ∧
      ∀ key, x.storage.lookup key = y.storage.lookup key
  | _, _ => False

def Log.content (l : Log) : Address × List Hash × Bytes := (l.address, l.topics, l.data)

def SubstateResult.content (r : SubstateResult) :
    Uint64 × BitVec 2048 × Address × Uint64 × List (Address × List Hash × Bytes) :=
  (r.status, r.bloom, r.contractAddress, r.gasUsed, r.logs.map Log.content)

def SubstateResult.equalPointers : Option SubstateResult → Option SubstateResult → Bool
  | none, none => true
  | some x, some y => x.equal y
  | _, _ => false

theorem sameAccount_iff (x y : Option SubstateAccount) : SameAccount x y ↔ x = y := by
  rcases x with _ | ⟨nonce, balance, storage, code⟩
  all_goals rcases y with _ | ⟨nonce', balance', storage', code'⟩
  all_goals simp only [SameAccount, Option.some.injEq, SubstateAccount.mk.injEq, reduceCtorEq]
  rw [Go.Map.ext_iff]
  tauto

theorem SubstateAccount.equal_iff (x y : Option SubstateAccount) : SubstateAccount.equal x y = true ↔ x = y := by
  constructor
  · intro equal
    rcases x with _ | ⟨nonce, balance, storage, code⟩
    all_goals rcases y with _ | ⟨nonce', balance', storage', code'⟩
    · rfl
    · cases equal
    · cases equal
    · simp only [SubstateAccount.equal, Bool.and_eq_true, decide_eq_true_eq, Bool.not_eq_true',
        Go.Map.anyKey_eq_false, not_not] at equal
      obtain ⟨⟨rfl, rfl, rfl, sizes⟩, scanned⟩ := equal
      rw [Go.Map.eq_of_scan sizes scanned]
  · rintro rfl
    exact SubstateAccount.equal_refl x

theorem SubstateAlloc.equal_iff (x y : SubstateAlloc) : SubstateAlloc.equal x y = true ↔ x = y := by
  constructor
  · intro equal
    simp only [SubstateAlloc.equal, Bool.and_eq_true, decide_eq_true_eq, Bool.not_eq_true',
      Go.Map.anyKey_eq_false] at equal
    refine Go.Map.eq_of_scan equal.1 fun addr member => ?_
    obtain ⟨xv, found⟩ := (x.mem_keys_iff addr).mp member
    have same := equal.2 addr member
    rw [found] at same ⊢
    cases found' : y.lookup addr with
    | none => simp [found'] at same
    | some yv =>
      simp only [found', Bool.not_eq_false, SubstateAccount.equal_iff] at same
      rw [same]
  · rintro rfl
    exact SubstateAlloc.equal_refl x

theorem alloc_eq_iff (x y : SubstateAlloc) :
    x = y ↔ x.keys = y.keys ∧
      ∀ addr xv yv, x.lookup addr = some xv → y.lookup addr = some yv → SameAccount xv yv := by
  constructor
  · rintro rfl
    refine ⟨rfl, fun addr xv yv found found' => (sameAccount_iff xv yv).mpr ?_⟩
    exact Option.some.inj (found.symm.trans found')
  · rintro ⟨keys, same⟩
    ext1 addr
    by_cases member : addr ∈ x.keys
    · obtain ⟨xv, found⟩ := (x.mem_keys_iff addr).mp member
      obtain ⟨yv, found'⟩ := (y.mem_keys_iff addr).mp (keys ▸ member)
      rw [found, found', (sameAccount_iff xv yv).mp (same addr xv yv found found')]
    · rw [(x.not_mem_keys addr).mp member, (y.not_mem_keys addr).mp (keys ▸ member)]

theorem Log.equal_iff (xl yl : Log) : xl.equal yl = true ↔ xl.content = yl.content := by
  have topics : xl.topics.length = yl.topics.length ∧
      ((xl.topics.zip yl.topics).all fun pair => pair.1 == pair.2) = true ↔ xl.topics = yl.topics := by
    rw [← List.forall₂_eq_eq_eq, List.forall₂_iff_zip]
    simp
  rw [Log.content, Log.content, Prod.mk.injEq, Prod.mk.injEq, ← topics]
  simp only [Log.equal, Bool.and_eq_true, decide_eq_true_eq]
  tauto

theorem SubstateResult.equal_iff (x y : SubstateResult) : x.equal y = true ↔ x.content = y.content := by
  have logs : x.logs.length = y.logs.length ∧
      ((x.logs.zip y.logs).all fun pair => pair.1.equal pair.2) = true ↔
        x.logs.map Log.content = y.logs.map Log.content := by
    rw [← List.forall₂_eq_eq_eq, List.forall₂_map_left_iff, List.forall₂_map_right_iff, List.forall₂_iff_zip]
    simp [Log.equal_iff]
  simp only [SubstateResult.content, Prod.mk.injEq, ← logs]
  simp only [SubstateResult.equal, Bool.and_eq_true, decide_eq_true_eq]
  tauto

theorem equalPointers_iff (x y : Option SubstateResult) :
    SubstateResult.equalPointers x y = true ↔ x.map SubstateResult.content = y.map SubstateResult.content := by
  rcases x with _ | x
  all_goals rcases y with _ | y
  all_goals simp [SubstateResult.equalPointers, SubstateResult.equal_iff]

/-- The comparisons of the replayed with the recorded substate, which scan one side only, are extensional. -/
theorem substate_equal_extensional :
    (∀ x y : SubstateAlloc, SubstateAlloc.equal x y = true ↔ x.keys = y.keys ∧
      ∀ addr xv yv, x.lookup addr = some xv → y.lookup addr = some yv → SameAccount xv yv) ∧
    (∀ x y : SubstateResult, SubstateResult.equalPointers (some x) (some y) = true ↔
      x.status = y.status ∧ x.bloom = y.bloom ∧ x.contractAddress = y.contractAddress ∧ x.gasUsed = y.gasUsed ∧
        x.logs.map Log.content = y.logs.map Log.content) ∧
    (Equivalence fun x y : SubstateAlloc => SubstateAlloc.equal x y = true) ∧
    (Equivalence fun x y : Option SubstateResult => SubstateResult.equalPointers x y = true) := by
  refine ⟨?_, ?_, ?_, ?_⟩
  · intro x y
    rw [SubstateAlloc.equal_iff, alloc_eq_iff]
  · intro x y
    rw [equalPointers_iff]
    simp [SubstateResult.content]
  · simp only [SubstateAlloc.equal_iff]
    exact eq_equivalence
  · simp only [equalPointers_iff]
    exact eq_equivalence.comap _

end IDWDetector
