import IDWDetector.Research.Reading

open Rlp

namespace IDWDetector

/-- `Stage1SubstateKey` of an `int`, whose bits `uint64` keeps. -/
def stage1SubstateKeyOf (block : Uint64) (tx : Int64) : Bytes := stage1SubstateKey block tx.toBitVec

def decodeStage1SubstateKeyOf (key : Bytes) : Except KeyError (Uint64 × Int64) :=
  (decodeStage1SubstateKey key).map fun blockTx => (blockTx.1, Int64.ofBitVec blockTx.2)

def decodeStage1CodeKey (key : Bytes) : Except KeyError Hash :=
  if key.length ≠ stage1CodePrefix.length + 32 then .error (.invalidLength key.length)
  else if key.take 2 ≠ stage1CodePrefix then .error (.invalidPrefix (key.take 2))
  else .ok (BitVec.ofNat 256 (bytesNat (key.drop 2)))

theorem wordBytes_ofNat_bytesNat (bits width : ℕ) (whole : bits = 8 * width) {bytes : Bytes}
    (length : bytes.length = width) : wordBytes width (BitVec.ofNat bits (bytesNat bytes)).toNat = bytes := by
  have base : 256 ^ width = 2 ^ bits := by
    rw [whole, pow_mul]
    norm_num
  have small : bytesNat bytes < 2 ^ bits := by
    rw [← base, ← length]
    exact bytesNat_lt bytes
  rw [BitVec.toNat_ofNat, Nat.mod_eq_of_lt small, ← length, wordBytes_bytesNat]

section Decoding

variable {key : Bytes}

theorem decodeStage1SubstateKey_ok {blockTx : Uint64 × Uint64} (decoded : decodeStage1SubstateKey key = .ok blockTx) :
    key = stage1SubstateKey blockTx.1 blockTx.2 := by
  unfold decodeStage1SubstateKey at decoded
  split at decoded
  · cases decoded
  rename_i sized
  split at decoded
  · cases decoded
  rename_i marked
  cases decoded
  have length : key.length = 18 := not_not.mp sized
  have first : ((key.drop 2).take 8).length = 8 := by simp [length]
  have second : ((key.drop 2).drop 8).length = 8 := by simp [length]
  rw [stage1SubstateKey, wordBytes_ofNat_bytesNat 64 8 rfl first, wordBytes_ofNat_bytesNat 64 8 rfl second,
    List.take_append_drop, ← not_not.mp marked, List.take_append_drop]

theorem decodeStage1CodeKey_ok {codeHash : Hash} (decoded : decodeStage1CodeKey key = .ok codeHash) :
    key = stage1CodeKey codeHash := by
  unfold decodeStage1CodeKey at decoded
  split at decoded
  · cases decoded
  rename_i sized
  split at decoded
  · cases decoded
  rename_i marked
  cases decoded
  have length : (key.drop 2).length = 32 := by
    rw [List.length_drop, not_not.mp sized]
    rfl
  rw [stage1CodeKey, wordBytes_ofNat_bytesNat 256 32 rfl length, ← not_not.mp marked, List.take_append_drop]

theorem decode_stage1CodeKey (codeHash : Hash) : decodeStage1CodeKey (stage1CodeKey codeHash) = .ok codeHash := by
  have sized : ¬ (stage1CodeKey codeHash).length ≠ stage1CodePrefix.length + 32 := by
    simp [stage1CodeKey]
  have marked : ¬ (stage1CodeKey codeHash).take 2 ≠ stage1CodePrefix := by
    simp [stage1CodeKey, stage1CodePrefix]
  have hash : (stage1CodeKey codeHash).drop 2 = wordBytes 32 codeHash.toNat := by
    simp only [stage1CodeKey, stage1CodePrefix, List.cons_append, List.nil_append, List.drop_succ_cons, List.drop_zero]
  rw [decodeStage1CodeKey, if_neg sized, if_neg marked, hash, ofNat_bytesNat_wordBytes 256 32 rfl]

end Decoding

section Order

variable (block tx block' tx' : Uint64)

theorem bytesNat_stage1SubstateKey :
    bytesNat (stage1SubstateKey block tx) =
      bytesNat stage1SubstatePrefix * 2 ^ 128 + block.toNat * 2 ^ 64 + tx.toNat := by
  rw [stage1SubstateKey, bytesNat_append, bytesNat_append, bytesNat_wordBytes, bytesNat_wordBytes, List.length_append,
    length_wordBytes, length_wordBytes]
  omega

theorem stage1SubstateKey_lt_iff :
    stage1SubstateKey block tx < stage1SubstateKey block' tx' ↔ block < block' ∨ block = block' ∧ tx < tx' := by
  have length : (stage1SubstateKey block tx).length = (stage1SubstateKey block' tx').length := by
    simp [stage1SubstateKey]
  rw [lt_iff_bytesNat_lt length, bytesNat_stage1SubstateKey, bytesNat_stage1SubstateKey, BitVec.lt_def, BitVec.lt_def,
    ← BitVec.toNat_inj]
  omega

end Order

theorem toBitVec_lt_iff {tx tx' : Int64} (natural : 0 ≤ tx.toInt) (natural' : 0 ≤ tx'.toInt) :
    tx.toBitVec < tx'.toBitVec ↔ tx.toInt < tx'.toInt := by
  have number (n : Int64) : n.toInt = if 2 * n.toBitVec.toNat < 2 ^ 64 then (n.toBitVec.toNat : Int)
      else n.toBitVec.toNat - 2 ^ 64 := BitVec.toInt_eq_toNat_cond n.toBitVec
  rw [number] at natural natural' ⊢
  rw [number, BitVec.lt_def]
  omega

/-- The keys are a lossless code of their contents, in the order of the chain. -/
theorem stage1Keys_code :
    (∀ block tx, decodeStage1SubstateKeyOf (stage1SubstateKeyOf block tx) = .ok (block, tx)) ∧
    (∀ key, (∃ blockTx, decodeStage1SubstateKeyOf key = .ok blockTx) ↔
      ∃ block tx, key = stage1SubstateKeyOf block tx) ∧
    (∀ key, (∃ codeHash, decodeStage1CodeKey key = .ok codeHash) ↔ ∃ codeHash, key = stage1CodeKey codeHash) ∧
    (∀ block block' (tx tx' : Int64), 0 ≤ tx.toInt → 0 ≤ tx'.toInt →
      (stage1SubstateKeyOf block tx < stage1SubstateKeyOf block' tx' ↔
        block < block' ∨ block = block' ∧ tx.toInt < tx'.toInt)) ∧
    (∀ b block tx, stage1SubstateBlockPrefix b <+: stage1SubstateKeyOf block tx ↔ block = b) ∧
    (∀ b codeHash, ¬ stage1SubstateBlockPrefix b <+: stage1CodeKey codeHash) := by
  have whole (block : Uint64) (tx : Int64) :
      decodeStage1SubstateKeyOf (stage1SubstateKeyOf block tx) = .ok (block, tx) := by
    rw [decodeStage1SubstateKeyOf, stage1SubstateKeyOf, decode_stage1SubstateKey]
    rfl
  refine ⟨whole, ?_, ?_, ?_, ?_, not_blockPrefix_codeKey⟩
  · intro key
    constructor
    · rintro ⟨blockTx, decoded⟩
      obtain ⟨raw, read, -⟩ := Machine.map_ok.mp decoded
      exact ⟨raw.1, Int64.ofBitVec raw.2, decodeStage1SubstateKey_ok read⟩
    · rintro ⟨block, tx, rfl⟩
      exact ⟨(block, tx), whole block tx⟩
  · intro key
    constructor
    · rintro ⟨codeHash, decoded⟩
      exact ⟨codeHash, decodeStage1CodeKey_ok decoded⟩
    · rintro ⟨codeHash, rfl⟩
      exact ⟨codeHash, decode_stage1CodeKey codeHash⟩
  · intro block block' tx tx' natural natural'
    rw [stage1SubstateKeyOf, stage1SubstateKeyOf, stage1SubstateKey_lt_iff, toBitVec_lt_iff natural natural']
  · intro b block tx
    constructor
    · exact block_of_blockPrefix
    · rintro rfl
      exact blockPrefix_substateKey block tx.toBitVec

end IDWDetector
