import IDWDetector.Research.CodeReferences

open Rlp Go

namespace IDWDetector

variable {order : List Uint64} {s : Substate}

/-- The database value that `PutSubstate` writes, with the block hashes in the order of its `range` loop. -/
def encodeSubstate (keccak : Bytes → Hash) (order : List Uint64) (substate : Substate) :
    Except Panic (Except Rlp.Error Bytes) :=
  (newSubstateRLP keccak order substate).map SubstateRLP.codec.encodeToBytes

/-- The components are the same; only the memoized hash of the data may differ. -/
structure Substate.SameComponents (s s' : Substate) : Prop where
  inputAlloc : s.inputAlloc = s'.inputAlloc
  outputAlloc : s.outputAlloc = s'.outputAlloc
  env : s.env = s'.env
  message : { s.message with dataHash := none } = { s'.message with dataHash := none }
  result : s.result = s'.result

variable {keccak : Bytes → Hash}

theorem newSubstateMessageRLP_eq {msg : SubstateMessage} (memoized : msg.Memoized keccak) :
    newSubstateMessageRLP keccak msg = newSubstateMessageRLP keccak { msg with dataHash := none } := by
  have hashes : msg.getDataHash keccak = SubstateMessage.getDataHash keccak { msg with dataHash := none } :=
    memoized.getDataHash
  simp only [newSubstateMessageRLP, hashes]

theorem Substate.SameComponents.newSubstateRLP_eq {s' : Substate} (same : s.SameComponents s')
    (memoized : s.message.Memoized keccak) (memoized' : s'.message.Memoized keccak) (order : List Uint64) :
    newSubstateRLP keccak order s = newSubstateRLP keccak order s' := by
  simp only [newSubstateRLP, same.inputAlloc, same.outputAlloc, same.env, same.result,
    newSubstateMessageRLP_eq memoized, newSubstateMessageRLP_eq memoized', same.message]

theorem encodeSubstate_ok {value : Bytes} (encoded : encodeSubstate keccak order s = .ok (.ok value)) :
    ∃ substateRLP, newSubstateRLP keccak order s = .ok substateRLP ∧
      SubstateRLP.codec.encodeToBytes substateRLP = .ok value := by
  unfold encodeSubstate at encoded
  cases built : newSubstateRLP keccak order s with
  | error panic =>
    rw [built] at encoded
    cases encoded
  | ok substateRLP =>
    rw [built] at encoded
    exact ⟨substateRLP, rfl, Except.ok.inj encoded⟩

theorem bigToHash_inj {a b : Uint64} (same : bigToHash a.toNat = bigToHash b.toNat) : a = b := by
  have values := congrArg BitVec.toNat same
  simp only [bigToHash, Int.natAbs_natCast, BitVec.toNat_ofNat] at values
  apply BitVec.eq_of_toNat_eq
  omega

theorem order_of_encodeSubstate {order' : List Uint64} {value : Bytes}
    (first : encodeSubstate keccak order s = .ok (.ok value))
    (second : encodeSubstate keccak order' s = .ok (.ok value)) : order = order' := by
  obtain ⟨left, builtLeft, encodedLeft⟩ := encodeSubstate_ok first
  obtain ⟨right, builtRight, encodedRight⟩ := encodeSubstate_ok second
  have same : left = right := by
    have decodedLeft := Codec.decodeBytes_encodeToBytes encodedLeft
    have decodedRight := Codec.decodeBytes_encodeToBytes encodedRight
    exact Except.ok.inj (decodedLeft.symm.trans decodedRight)
  have env : newSubstateEnvRLP order s.env = newSubstateEnvRLP order' s.env := by
    rw [← (newSubstateRLP_ok.mp builtLeft).2.2.1, ← (newSubstateRLP_ok.mp builtRight).2.2.1, same]
  have numbers := congrArg (fun envRLP => envRLP.blockHashes.map Prod.fst) env
  simp only [newSubstateEnvRLP, Map.entriesIn, List.map_map, Function.comp_def] at numbers
  exact List.map_injective_iff.mpr (fun _ _ => bigToHash_inj) numbers

/-- Two substates with the same components have one encoding exactly when they hold at most one block hash. -/
theorem encoding_canonical_iff {keccak : Bytes → Hash} {s s' : Substate} (same : s.SameComponents s')
    (memoized : s.message.Memoized keccak) (memoized' : s'.message.Memoized keccak)
    (encodes : ∃ order value, Map.Enumerates order s.env.blockHashes ∧
      encodeSubstate keccak order s = .ok (.ok value)) :
    (∀ order order', Map.Enumerates order s.env.blockHashes → Map.Enumerates order' s'.env.blockHashes →
      encodeSubstate keccak order s = encodeSubstate keccak order' s') ↔ s.env.blockHashes.len ≤ 1 := by
  have copies (order : List Uint64) : encodeSubstate keccak order s' = encodeSubstate keccak order s := by
    rw [encodeSubstate, ← same.newSubstateRLP_eq memoized memoized' order, encodeSubstate]
  simp only [copies, ← same.env]
  constructor
  · intro canonical
    obtain ⟨order, value, enumerates, encoded⟩ := encodes
    rw [← enumerates.length]
    match order, enumerates with
    | [], _ => exact Nat.zero_le 1
    | [_], _ => exact Nat.le_refl 1
    | first :: second :: rest, enumerates =>
      have swapped : Map.Enumerates (second :: first :: rest) s.env.blockHashes :=
        enumerates.of_perm (List.Perm.swap second first rest)
      have orders := order_of_encodeSubstate encoded ((canonical _ _ enumerates swapped).symm.trans encoded)
      have distinct := (List.nodup_cons.mp enumerates.nodup).1
      cases orders
      exact absurd List.mem_cons_self distinct
  · intro single order order' enumerates enumerates'
    have one : order = order' := by
      have perm := enumerates.perm enumerates'
      rw [← enumerates.length] at single
      match order, single with
      | [], _ => exact (List.nil_perm.mp perm).symm
      | [k], _ => exact List.singleton_perm.mp perm
    rw [one]

theorem encodes_of_isSome
    (encodes : ((encodeSubstate keccak order s).toOption.any fun value => value.toOption.isSome) = true) :
    ∃ value, encodeSubstate keccak order s = .ok (.ok value) := by
  obtain ⟨result, encoded, returned⟩ := Machine.toOption_any encodes
  obtain ⟨value, rfl⟩ := Machine.toOption_isSome returned
  exact ⟨value, encoded⟩

def hashedCreation : Substate :=
  { stopCreation with message := { stopCreation.message with dataHash := some (stopKeccak [0x00]) } }

theorem encoding_canonical_stopCreation :
    encodeSubstate stopKeccak [4] stopCreation = encodeSubstate stopKeccak [4] hashedCreation := by
  obtain ⟨value, encoded⟩ : ∃ value, encodeSubstate stopKeccak [4] stopCreation = .ok (.ok value) :=
    encodes_of_isSome (by decide +kernel)
  have enumerates : Map.Enumerates [4] stopCreation.env.blockHashes := Map.enumerates_single _ _
  have same : stopCreation.SameComponents hashedCreation := ⟨rfl, rfl, rfl, rfl, rfl⟩
  have canonical := (encoding_canonical_iff same (by rintro hash ⟨⟩) (by rintro hash ⟨⟩; rfl)
    ⟨[4], value, enumerates, encoded⟩).mpr (by decide)
  exact canonical [4] [4] enumerates enumerates

def twoHashes : Substate :=
  { stopCreation with env := { stopCreation.env with blockHashes := (Map.empty.set 4 7).set 3 8 } }

theorem two_hashes_not_canonical :
    Map.Enumerates [4, 3] twoHashes.env.blockHashes ∧ Map.Enumerates [3, 4] twoHashes.env.blockHashes ∧
      ∃ first second, encodeSubstate stopKeccak [4, 3] twoHashes = .ok (.ok first) ∧
        encodeSubstate stopKeccak [3, 4] twoHashes = .ok (.ok second) ∧ first ≠ second := by
  obtain ⟨first, encoded⟩ : ∃ value, encodeSubstate stopKeccak [4, 3] twoHashes = .ok (.ok value) :=
    encodes_of_isSome (by decide +kernel)
  obtain ⟨second, encoded'⟩ : ∃ value, encodeSubstate stopKeccak [3, 4] twoHashes = .ok (.ok value) :=
    encodes_of_isSome (by decide +kernel)
  refine ⟨⟨by decide, by simp [twoHashes, or_comm]⟩, ⟨by decide, by simp [twoHashes]⟩, first, second, encoded,
    encoded', ?_⟩
  rintro rfl
  cases order_of_encodeSubstate encoded encoded'

end IDWDetector
