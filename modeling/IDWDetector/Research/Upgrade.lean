import IDWDetector.Go.Strconv
import IDWDetector.Machine.Parties
import IDWDetector.Research.Writing

open Rlp Go Machine

namespace IDWDetector

structure OldDB where
  substate : Map Bytes Bytes
  code : Map Bytes Bytes

inductive CopyPanic
  | number (err : NumError)
  | indexOutOfRange
deriving DecidableEq

def underscore : Byte := 0x5f

/-- `common.BytesToHash` keeps the last 32 bytes. -/
def bytesToHash (bytes : Bytes) : Hash := BitVec.ofNat 256 (bytesNat bytes)

def upgradeKey (oldKey : Bytes) : Except CopyPanic Bytes :=
  match List.splitOn underscore oldKey with
  | first :: second :: _ => do
    let block ← (parseUint first).mapError .number
    let tx ← (atoi second).mapError .number
    .ok (stage1SubstateKey (BitVec.ofNat 64 block) (BitVec.ofInt 64 tx))
  | first :: [] => do
    let _ ← (parseUint first).mapError .number
    .error .indexOutOfRange
  | [] => .error .indexOutOfRange

/-- The puts of the goroutine that copies the substates, in the order of its iterator. -/
def copySubstates (old : OldDB) : List Bytes → Except CopyPanic (List Write)
  | [] => .ok []
  | oldKey :: rest => do
    let key ← upgradeKey oldKey
    let writes ← copySubstates old rest
    .ok (.put key (old.substate.getD oldKey []) :: writes)

def copyCodes (old : OldDB) (order : List Bytes) : List Write :=
  order.map fun codeHash => .put (stage1CodeKey (bytesToHash codeHash)) (old.code.getD codeHash [])

/-- The canonical old key `block_tx`. -/
def oldSubstateKey (block tx : Nat) : Bytes := decimal block ++ underscore :: decimal tx

structure OldDB.Canonical (old : OldDB) : Prop where
  substate : ∀ key ∈ old.substate.keys, ∃ block tx, block < 2 ^ 64 ∧ tx < 2 ^ 63 ∧ key = oldSubstateKey block tx
  code : ∀ key ∈ old.code.keys, key.length = 32

theorem upgradeKey_oldSubstateKey {block tx : Nat} (smallBlock : block < 2 ^ 64) (smallTx : tx < 2 ^ 63) :
    upgradeKey (oldSubstateKey block tx) =
      .ok (stage1SubstateKey (BitVec.ofNat 64 block) (BitVec.ofNat 64 tx)) := by
  have parts : List.splitOn underscore (oldSubstateKey block tx) = [decimal block, decimal tx] := by
    have joined : oldSubstateKey block tx = [underscore].intercalate [decimal block, decimal tx] := by
      simp [oldSubstateKey, List.intercalate]
    rw [joined]
    apply List.splitOn_intercalate
    · intro part member
      rcases List.mem_pair.mp member with rfl | rfl <;> exact notMem_decimal (by decide)
    · exact List.cons_ne_nil _ _
  rw [upgradeKey, parts]
  simp only [parseUint_decimal smallBlock, atoi_decimal smallTx]
  exact congrArg (fun word => Except.ok (stage1SubstateKey _ word)) (BitVec.ofInt_natCast 64 tx)

theorem wordBytes_bytesToHash {codeHash : Bytes} (length : codeHash.length = 32) :
    wordBytes 32 (bytesToHash codeHash).toNat = codeHash := by
  have bytes := wordBytes_bytesNat codeHash
  rw [length] at bytes
  have small : bytesNat codeHash < 2 ^ 256 := by
    rw [← bytes, bytesNat_wordBytes]
    exact Nat.mod_lt _ (by decide)
  rw [bytesToHash, BitVec.toNat_ofNat, Nat.mod_eq_of_lt small, bytes]

theorem bytesToHash_wordBytes (h : Hash) : bytesToHash (wordBytes 32 h.toNat) = h :=
  ofNat_bytesNat_wordBytes 256 32 rfl h

theorem ofNat_inj {m n : Nat} (first : m < 2 ^ 64) (second : n < 2 ^ 64)
    (same : BitVec.ofNat 64 m = BitVec.ofNat 64 n) : m = n := by
  have values := congrArg BitVec.toNat same
  rwa [BitVec.toNat_ofNat, BitVec.toNat_ofNat, Nat.mod_eq_of_lt first, Nat.mod_eq_of_lt second] at values

theorem copySubstates_ok (old : OldDB) {order : List Bytes}
    (canonical : ∀ key ∈ order, ∃ block tx, block < 2 ^ 64 ∧ tx < 2 ^ 63 ∧ key = oldSubstateKey block tx) :
    ∃ puts, copySubstates old order = .ok puts ∧ ∀ w, w ∈ puts ↔ ∃ block tx, block < 2 ^ 64 ∧ tx < 2 ^ 63 ∧
      oldSubstateKey block tx ∈ order ∧ w = .put (stage1SubstateKey (BitVec.ofNat 64 block) (BitVec.ofNat 64 tx))
        (old.substate.getD (oldSubstateKey block tx) []) := by
  induction order with
  | nil => exact ⟨[], rfl, by simp⟩
  | cons key rest ih =>
    obtain ⟨block, tx, smallBlock, smallTx, rfl⟩ := canonical key List.mem_cons_self
    obtain ⟨puts, copied, members⟩ := ih fun key member => canonical key (List.mem_cons_of_mem _ member)
    refine ⟨_, bind_ok.mpr ⟨_, upgradeKey_oldSubstateKey smallBlock smallTx,
      bind_ok.mpr ⟨puts, copied, rfl⟩⟩, fun w => ?_⟩
    rw [List.mem_cons, members]
    constructor
    · rintro (rfl | ⟨block', tx', smallBlock', smallTx', listed, rfl⟩)
      · exact ⟨block, tx, smallBlock, smallTx, List.mem_cons_self, rfl⟩
      · exact ⟨block', tx', smallBlock', smallTx', List.mem_cons_of_mem _ listed, rfl⟩
    · rintro ⟨block', tx', smallBlock', smallTx', listed, rfl⟩
      rcases List.mem_cons.mp listed with here | later
      · left
        have keys := upgradeKey_oldSubstateKey smallBlock' smallTx'
        rw [here, upgradeKey_oldSubstateKey smallBlock smallTx, Except.ok.injEq] at keys
        rw [here, keys]
      · exact .inr ⟨block', tx', smallBlock', smallTx', later, rfl⟩

theorem OldDB.lookup_iff {m : Map Bytes Bytes} {order : List Bytes} (enumerates : Map.Enumerates order m)
    (key value : Bytes) : m.lookup key = some value ↔ key ∈ order ∧ m.getD key [] = value := by
  rw [enumerates.mem_iff, Map.mem_keys_iff, Map.getD]
  cases m.lookup key with
  | none => simp
  | some found => simp

/-- The copied database holds exactly the old entries under their new keys. -/
def OldDB.CopiedTo (old : OldDB) (db : SubstateDB) : Prop :=
  ∀ key value, db.backend.lookup key = some value ↔
    (∃ block tx, block < 2 ^ 64 ∧ tx < 2 ^ 63 ∧
      key = stage1SubstateKey (BitVec.ofNat 64 block) (BitVec.ofNat 64 tx) ∧
      old.substate.lookup (oldSubstateKey block tx) = some value) ∨
    ∃ h : Hash, key = stage1CodeKey h ∧ old.code.lookup (wordBytes 32 h.toNat) = some value

/-- No two old entries have the same new key. -/
structure OldDB.Separate (old : OldDB) : Prop where
  substates : ∀ first ∈ old.substate.keys, ∀ second ∈ old.substate.keys,
    upgradeKey first = upgradeKey second → first = second
  codes : ∀ first ∈ old.code.keys, ∀ second ∈ old.code.keys,
    stage1CodeKey (bytesToHash first) = stage1CodeKey (bytesToHash second) → first = second
  apart : ∀ substate ∈ old.substate.keys, ∀ code ∈ old.code.keys,
    upgradeKey substate ≠ .ok (stage1CodeKey (bytesToHash code))

theorem OldDB.Canonical.separate {old : OldDB} (canonical : old.Canonical) : old.Separate where
  substates first member second member' same := by
    obtain ⟨block, tx, smallBlock, smallTx, rfl⟩ := canonical.substate first member
    obtain ⟨block', tx', smallBlock', smallTx', rfl⟩ := canonical.substate second member'
    rw [upgradeKey_oldSubstateKey smallBlock smallTx, upgradeKey_oldSubstateKey smallBlock' smallTx',
      Except.ok.injEq] at same
    obtain ⟨blocks, txs⟩ := stage1SubstateKey_inj same
    rw [ofNat_inj smallBlock smallBlock' blocks, ofNat_inj (by omega) (by omega) txs]
  codes first member second member' same := by
    have hashes := stage1CodeKey_inj same
    rw [← wordBytes_bytesToHash (canonical.code first member), hashes,
      wordBytes_bytesToHash (canonical.code second member')]
  apart substate member code _ same := by
    obtain ⟨block, tx, smallBlock, smallTx, rfl⟩ := canonical.substate substate member
    rw [upgradeKey_oldSubstateKey smallBlock smallTx, Except.ok.injEq] at same
    exact stage1CodeKey_ne _ _ _ same.symm

theorem mem_copyCodes {old : OldDB} (canonical : old.Canonical) {codes : List Bytes}
    (enumerates : Map.Enumerates codes old.code) (key value : Bytes) :
    .put key value ∈ copyCodes old codes ↔
      ∃ h : Hash, key = stage1CodeKey h ∧ old.code.lookup (wordBytes 32 h.toNat) = some value := by
  simp only [copyCodes, List.mem_map, Write.put.injEq, OldDB.lookup_iff enumerates]
  constructor
  · rintro ⟨codeHash, listed, rfl, rfl⟩
    refine ⟨bytesToHash codeHash, rfl, ?_⟩
    rw [wordBytes_bytesToHash (canonical.code codeHash ((enumerates.mem_iff _).mp listed))]
    exact ⟨listed, rfl⟩
  · rintro ⟨h, rfl, listed, rfl⟩
    exact ⟨wordBytes 32 h.toNat, listed, by rw [bytesToHash_wordBytes], rfl⟩

/-- Neither goroutine panics, and the empty target becomes the old database under the new keys, in which no two
    entries meet. -/
theorem upgrade_preserves {old : OldDB} (canonical : old.Canonical) {substates codes : List Bytes}
    (first : Map.Enumerates substates old.substate) (second : Map.Enumerates codes old.code) :
    old.Separate ∧ ∃ puts, copySubstates old substates = .ok puts ∧
      ∀ writes, Machine.Interleaves puts (copyCodes old codes) writes →
        old.CopiedTo (SubstateDB.writeAll ⟨.empty⟩ writes) := by
  obtain ⟨puts, copied, members⟩ := copySubstates_ok old fun key member =>
    canonical.substate key ((first.mem_iff key).mp member)
  refine ⟨canonical.separate, puts, copied, fun writes interleaves => ?_⟩
  have entry (key value : Bytes) : .put key value ∈ writes ↔
      (∃ block tx, block < 2 ^ 64 ∧ tx < 2 ^ 63 ∧
        key = stage1SubstateKey (BitVec.ofNat 64 block) (BitVec.ofNat 64 tx) ∧
        old.substate.lookup (oldSubstateKey block tx) = some value) ∨
      ∃ h : Hash, key = stage1CodeKey h ∧ old.code.lookup (wordBytes 32 h.toNat) = some value := by
    rw [interleaves.mem_iff, members, mem_copyCodes canonical second]
    simp only [Write.put.injEq, OldDB.lookup_iff first]
    refine or_congr_left ?_
    constructor
    · rintro ⟨block, tx, smallBlock, smallTx, listed, rfl, rfl⟩
      exact ⟨block, tx, smallBlock, smallTx, rfl, listed, rfl⟩
    · rintro ⟨block, tx, smallBlock, smallTx, rfl, listed, rfl⟩
      exact ⟨block, tx, smallBlock, smallTx, listed, rfl, rfl⟩
  intro key value
  rw [SubstateDB.lookup_writeAll_iff _ _ key value, entry]
  · intro w member
    rcases (interleaves.mem_iff w).mp member with inside | inside
    · obtain ⟨block, tx, -, -, -, rfl⟩ := (members w).mp inside
      exact ⟨_, _, rfl⟩
    · obtain ⟨codeHash, -, rfl⟩ := List.mem_map.mp inside
      exact ⟨_, _, rfl⟩
  · intro key value value' here there
    rcases (entry key value).mp here with ⟨block, tx, smallBlock, smallTx, rfl, found⟩ | ⟨h, rfl, found⟩
    · rcases (entry _ value').mp there with ⟨block', tx', smallBlock', smallTx', same, found'⟩ | ⟨h', same, -⟩
      · obtain ⟨blocks, txs⟩ := stage1SubstateKey_inj same
        rw [ofNat_inj smallBlock smallBlock' blocks, ofNat_inj (by omega) (by omega) txs, found'] at found
        exact (Option.some.inj found).symm
      · exact absurd same.symm (stage1CodeKey_ne _ _ _)
    · rcases (entry _ value').mp there with ⟨block', tx', -, -, same, -⟩ | ⟨h', same, found'⟩
      · exact absurd same (stage1CodeKey_ne _ _ _)
      · rw [stage1CodeKey_inj same, found'] at found
        exact (Option.some.inj found).symm

def smallOld : OldDB where
  substate := Map.empty.set (oldSubstateKey 10 2) [0xc0]
  code := Map.empty.set (wordBytes 32 7) [0x00]

theorem upgrade_preserves_small :
    ∃ puts, copySubstates smallOld [oldSubstateKey 10 2] = .ok puts ∧
      ∀ writes, Machine.Interleaves puts (copyCodes smallOld [wordBytes 32 7]) writes →
        (SubstateDB.writeAll ⟨.empty⟩ writes).backend.lookup (stage1SubstateKey 10 2) = some [0xc0] := by
  have canonical : smallOld.Canonical := by
    constructor
    · intro key member
      simp only [smallOld, Map.keys_set, Map.keys_empty, insert_empty_eq, Finset.mem_singleton] at member
      exact ⟨10, 2, by decide, by decide, member⟩
    · intro key member
      simp only [smallOld, Map.keys_set, Map.keys_empty, insert_empty_eq, Finset.mem_singleton] at member
      rw [member, length_wordBytes]
  obtain ⟨-, puts, copied, result⟩ := upgrade_preserves canonical (Map.enumerates_single _ _)
    (Map.enumerates_single _ _)
  refine ⟨puts, copied, fun writes interleaves => ?_⟩
  apply (result writes interleaves _ _).mpr
  exact .inl ⟨10, 2, by decide, by decide, rfl, Map.lookup_set_self _ _ _⟩

end IDWDetector
