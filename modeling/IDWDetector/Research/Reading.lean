import IDWDetector.Research.SubstateDB

open Rlp Go Machine

namespace IDWDetector

variable {order : List Bytes} {s : SubstateRLP}

theorem ofNat_bytesNat_wordBytes (bits width : ℕ) (whole : bits = 8 * width) (word : BitVec bits) :
    BitVec.ofNat bits (bytesNat (wordBytes width word.toNat)) = word := by
  have base : 256 ^ width = 2 ^ bits := by rw [whole, pow_mul]; norm_num
  rw [bytesNat_wordBytes, base, Nat.mod_eq_of_lt word.isLt, BitVec.ofNat_toNat, BitVec.setWidth_eq]

theorem decode_stage1SubstateKey (block tx : Uint64) :
    decodeStage1SubstateKey (stage1SubstateKey block tx) = .ok (block, tx) := by
  have length : (wordBytes 8 block.toNat).length = 8 := length_wordBytes 8 _
  have first : (wordBytes 8 block.toNat ++ wordBytes 8 tx.toNat).take 8 = wordBytes 8 block.toNat := by
    rw [List.take_append_of_le_length (Nat.le_of_eq length.symm), List.take_of_length_le (Nat.le_of_eq length)]
  have second : (wordBytes 8 block.toNat ++ wordBytes 8 tx.toNat).drop 8 = wordBytes 8 tx.toNat := by
    rw [List.drop_append_of_le_length (Nat.le_of_eq length.symm), List.drop_of_length_le (Nat.le_of_eq length),
      List.nil_append]
  have fits : ¬ (stage1SubstateKey block tx).length ≠ stage1SubstatePrefix.length + 8 + 8 := by
    simp [stage1SubstateKey, stage1SubstatePrefix]
  have marked : ¬ (stage1SubstateKey block tx).take 2 ≠ stage1SubstatePrefix := by
    simp [stage1SubstateKey, stage1SubstatePrefix]
  have blockTx : (stage1SubstateKey block tx).drop 2 = wordBytes 8 block.toNat ++ wordBytes 8 tx.toNat := rfl
  rw [decodeStage1SubstateKey, if_neg fits, if_neg marked, blockTx, first, second,
    ofNat_bytesNat_wordBytes 64 8 rfl, ofNat_bytesNat_wordBytes 64 8 rfl]

theorem stage1SubstateKey_inj {block tx block' tx' : Uint64}
    (same : stage1SubstateKey block tx = stage1SubstateKey block' tx') : block = block' ∧ tx = tx' := by
  have decoded := decode_stage1SubstateKey block tx
  rw [same, decode_stage1SubstateKey] at decoded
  cases decoded
  exact ⟨rfl, rfl⟩

theorem stage1CodeKey_inj {first second : Hash} (same : stage1CodeKey first = stage1CodeKey second) :
    first = second := by
  have bytes : wordBytes 32 first.toNat = wordBytes 32 second.toNat := List.append_cancel_left same
  rw [← ofNat_bytesNat_wordBytes 256 32 rfl first, bytes, ofNat_bytesNat_wordBytes 256 32 rfl second]

theorem stage1CodeKey_ne (codeHash : Hash) (block tx : Uint64) :
    stage1CodeKey codeHash ≠ stage1SubstateKey block tx := by
  intro same
  have marks := congrArg (List.take 2) same
  simp [stage1CodeKey, stage1SubstateKey, stage1CodePrefix, stage1SubstatePrefix] at marks

theorem blockPrefix_substateKey (block tx : Uint64) :
    stage1SubstateBlockPrefix block <+: stage1SubstateKey block tx := by
  rw [stage1SubstateKey, ← List.append_assoc]
  exact List.prefix_append _ _

theorem not_blockPrefix_codeKey (block : Uint64) (codeHash : Hash) :
    ¬ stage1SubstateBlockPrefix block <+: stage1CodeKey codeHash := by
  rintro ⟨rest, same⟩
  have marks := congrArg (List.take 2) same
  simp [stage1CodeKey, stage1SubstateBlockPrefix, stage1CodePrefix, stage1SubstatePrefix] at marks

theorem block_of_blockPrefix {block other tx : Uint64}
    (marked : stage1SubstateBlockPrefix block <+: stage1SubstateKey other tx) : other = block := by
  obtain ⟨rest, same⟩ := marked
  rw [stage1SubstateBlockPrefix, stage1SubstateKey, List.append_assoc] at same
  have tails : wordBytes 8 block.toNat ++ rest = wordBytes 8 other.toNat ++ wordBytes 8 tx.toNat :=
    List.append_cancel_left same
  have bytes : wordBytes 8 block.toNat = wordBytes 8 other.toNat := by
    apply (List.append_inj tails _).1
    rw [length_wordBytes, length_wordBytes]
  rw [← ofNat_bytesNat_wordBytes 64 8 rfl other, ← bytes, ofNat_bytesNat_wordBytes 64 8 rfl block]

section Pointers

variable {getCode : Hash → Except Panic Bytes}

/-- The account loop returns exactly when there is an account for every address and its code is found. -/
structure SubstateAllocRLP.Readable (present : Hash → Prop) (alloc : SubstateAllocRLP) : Prop where
  long : alloc.addresses.length ≤ alloc.accounts.length
  code : ∀ account ∈ alloc.accounts.take alloc.addresses.length, present account.codeHash

structure SubstateRLP.Readable (present : Hash → Prop) (s : SubstateRLP) : Prop where
  inputAlloc : s.inputAlloc.Readable present
  outputAlloc : s.outputAlloc.Readable present
  message : s.message.toAddr = none → ∃ hash, s.message.initCodeHash = some hash ∧ present hash

theorem SubstateRLP.Readable.mono {present present' : Hash → Prop} (readable : s.Readable present)
    (implies : ∀ hash, present hash → present' hash) : s.Readable present' where
  inputAlloc := ⟨readable.inputAlloc.long, fun account member => implies _ (readable.inputAlloc.code account member)⟩
  outputAlloc := ⟨readable.outputAlloc.long, fun account member => implies _ (readable.outputAlloc.code account member)⟩
  message creation := by
    obtain ⟨hash, found, held⟩ := readable.message creation
    exact ⟨hash, found, implies hash held⟩

theorem setAccounts_isOk_iff {addresses : List Address} {accounts : List SubstateAccountRLP} {alloc : SubstateAlloc} :
    (∃ result, setAccounts getCode addresses (accounts.map some) alloc = .ok result) ↔
      addresses.length ≤ accounts.length ∧
        ∀ account ∈ accounts.take addresses.length, ∃ code, getCode account.codeHash = .ok code := by
  induction addresses generalizing accounts alloc with
  | nil => simp [setAccounts]
  | cons addr addresses ih =>
    cases accounts with
    | nil => simp [setAccounts]
    | cons account accounts =>
      simp only [List.map_cons, setAccounts, SubstateAccount.setRLP, bind_ok, List.length_cons,
        Nat.add_le_add_iff_right, List.take_succ_cons, List.forall_mem_cons]
      constructor
      · rintro ⟨result, sa, ⟨code, found, -⟩, rest⟩
        obtain ⟨long, codes⟩ := ih.mp ⟨result, rest⟩
        exact ⟨long, ⟨code, found⟩, codes⟩
      · rintro ⟨long, ⟨code, found⟩, codes⟩
        obtain ⟨result, rest⟩ := ih.mpr ⟨long, codes⟩
        exact ⟨result, _, ⟨code, found, rfl⟩, rest⟩

theorem messageSetRLP_isOk_iff {msgRLP : SubstateMessageRLP} :
    (∃ msg, SubstateMessage.setRLP getCode msgRLP = .ok msg) ↔
      (msgRLP.toAddr = none → ∃ hash, msgRLP.initCodeHash = some hash ∧ ∃ code, getCode hash = .ok code) := by
  have data : (∃ msg, SubstateMessage.setRLP getCode msgRLP = .ok msg) ↔
      ∃ data, messageData getCode msgRLP.toAddr msgRLP.data msgRLP.initCodeHash = .ok data := by
    simp only [SubstateMessage.setRLP, bind_ok]
    constructor
    · rintro ⟨msg, data, found, -⟩
      exact ⟨data, found⟩
    · rintro ⟨data, found⟩
      exact ⟨_, data, found, rfl⟩
  rw [data]
  cases msgRLP.toAddr with
  | some addr => simp [messageData]
  | none =>
    cases msgRLP.initCodeHash with
    | none => simp [messageData]
    | some hash => simp [messageData]

theorem setRLP_ok_iff {substate : Substate} :
    Substate.setRLP getCode s.var = .ok substate ↔
      SubstateAlloc.setRLP getCode s.inputAlloc.var = .ok substate.inputAlloc ∧
      SubstateAlloc.setRLP getCode s.outputAlloc.var = .ok substate.outputAlloc ∧
      SubstateMessage.setRLP getCode s.message = .ok substate.message ∧
      substate.env = SubstateEnv.setRLP s.env ∧ substate.result = SubstateResult.setRLP s.result := by
  simp only [Substate.setRLP, SubstateRLP.var, deref, bind_ok, Except.ok.injEq]
  constructor
  · rintro ⟨input, readInput, output, readOutput, _, rfl, _, rfl, message, readMessage, _, rfl, rfl⟩
    exact ⟨readInput, readOutput, readMessage, rfl, rfl⟩
  · rintro ⟨readInput, readOutput, readMessage, env, result⟩
    refine ⟨_, readInput, _, readOutput, _, rfl, _, rfl, _, readMessage, _, rfl, ?_⟩
    rw [← env, ← result]

theorem setRLP_isOk_iff :
    (∃ substate, Substate.setRLP getCode s.var = .ok substate) ↔
      s.Readable fun hash => ∃ code, getCode hash = .ok code := by
  simp only [setRLP_ok_iff]
  constructor
  · rintro ⟨substate, input, output, message, -, -⟩
    obtain ⟨long, code⟩ := setAccounts_isOk_iff.mp ⟨_, input⟩
    obtain ⟨long', code'⟩ := setAccounts_isOk_iff.mp ⟨_, output⟩
    exact ⟨⟨long, code⟩, ⟨long', code'⟩, messageSetRLP_isOk_iff.mp ⟨_, message⟩⟩
  · rintro ⟨⟨long, code⟩, ⟨long', code'⟩, message⟩
    obtain ⟨input, readInput⟩ := setAccounts_isOk_iff.mpr ⟨long, code⟩
    obtain ⟨output, readOutput⟩ := setAccounts_isOk_iff.mpr ⟨long', code'⟩
    obtain ⟨msg, readMessage⟩ := messageSetRLP_isOk_iff.mpr message
    exact ⟨⟨input, output, SubstateEnv.setRLP s.env, msg, SubstateResult.setRLP s.result⟩, readInput, readOutput,
      readMessage, rfl, rfl⟩

end Pointers

namespace SubstateDB

variable {keccak : Bytes → Hash} {db : SubstateDB} {block tx : Uint64} {value : Bytes}

/-- What a code table must hold for a hash to be resolved. -/
def Resolves (keccak : Bytes → Hash) (db : SubstateDB) (codeHash : Hash) : Prop :=
  codeHash = keccak [] ∨ ∃ code, db.backend.lookup (stage1CodeKey codeHash) = some code

theorem getCode_isOk_iff {codeHash : Hash} :
    (∃ code, db.getCode keccak codeHash = .ok code) ↔ db.Resolves keccak codeHash := by
  unfold Resolves
  unfold getCode
  by_cases empty : codeHash = keccak []
  · simp [empty]
  · cases db.backend.lookup (stage1CodeKey codeHash) with
    | none => simp [empty]
    | some code => simp [empty]

theorem getCode_isOk_eq (keccak : Bytes → Hash) (db : SubstateDB) :
    (fun codeHash => ∃ code, db.getCode keccak codeHash = .ok code) = db.Resolves keccak :=
  funext fun _ => propext getCode_isOk_iff

theorem getCode_putSubstate (keccak : Bytes → Hash) (db : SubstateDB) (block tx : Uint64) (value : Bytes) :
    (db.write (.put (stage1SubstateKey block tx) value)).getCode keccak = db.getCode keccak := by
  funext codeHash
  simp only [getCode, write, Map.lookup_set_of_ne _ _ (stage1CodeKey_ne codeHash block tx)]

theorem getSubstate_eq (stored : db.backend.lookup (stage1SubstateKey block tx) = some value) :
    db.getSubstate keccak block tx = db.readSubstate keccak block tx value := by
  rw [getSubstate, stored]

theorem getSubstate_ok {substate : Substate} (read : db.getSubstate keccak block tx = .ok substate) :
    ∃ value, db.backend.lookup (stage1SubstateKey block tx) = some value ∧
      db.readSubstate keccak block tx value = .ok substate := by
  unfold getSubstate at read
  cases stored : db.backend.lookup (stage1SubstateKey block tx) with
  | none =>
    rw [stored] at read
    cases read
  | some value =>
    rw [stored] at read
    exact ⟨value, rfl, read⟩

theorem readSubstate_eq (decoded : decodeSubstateRLP value = .ok s.var) :
    db.readSubstate keccak block tx value = Substate.setRLP (db.getCode keccak) s.var := by
  rw [readSubstate, decoded]

theorem collectSubstates_ok (txSubstate : Map Uint64 Substate)
    (readable : ∀ key ∈ order, ∃ tx substate, key = stage1SubstateKey block tx ∧
      db.getSubstate keccak block tx = .ok substate) :
    ∃ result, db.collectSubstates keccak block order txSubstate = .ok result ∧
      ∀ tx substate, result.lookup tx = some substate ↔
        if stage1SubstateKey block tx ∈ order then db.getSubstate keccak block tx = .ok substate
        else txSubstate.lookup tx = some substate := by
  induction order generalizing txSubstate with
  | nil => exact ⟨txSubstate, rfl, by simp⟩
  | cons key keys ih =>
    obtain ⟨tx, substate, rfl, read⟩ := readable key List.mem_cons_self
    obtain ⟨value, stored, decoded⟩ := getSubstate_ok read
    have found : db.backend.getD (stage1SubstateKey block tx) [] = value := by
      rw [Map.getD, stored]
      rfl
    have others : ∀ key ∈ keys, ∃ tx substate, key = stage1SubstateKey block tx ∧
        db.getSubstate keccak block tx = .ok substate := fun key member =>
      readable key (List.mem_cons_of_mem _ member)
    obtain ⟨result, collected, entries⟩ := ih (txSubstate.set tx substate) others
    refine ⟨result, ?_, ?_⟩
    · rw [collectSubstates, decode_stage1SubstateKey]
      simp only [ne_eq, not_true_eq_false, if_false]
      rw [found]
      exact bind_ok.mpr ⟨substate, decoded, collected⟩
    · intro tx' substate'
      rw [entries]
      by_cases later : stage1SubstateKey block tx' ∈ keys
      · simp [later]
      · by_cases same : tx' = tx
        · subst same
          simp [later, read]
        · have different : stage1SubstateKey block tx' ≠ stage1SubstateKey block tx := fun keys =>
            same (stage1SubstateKey_inj keys).2
          simp [later, different, Map.lookup_set_of_ne _ _ same]

theorem Iterates.mem_substateKey (iterates : db.Iterates block order) (tx : Uint64) :
    stage1SubstateKey block tx ∈ order ↔ db.hasSubstate block tx = true := by
  rw [iterates.mem_iff, Map.mem_keys_iff, hasSubstate, Option.isSome_iff_exists]
  exact and_iff_left (blockPrefix_substateKey block tx)

theorem getBlockSubstates_agrees (iterates : db.Iterates block order)
    (readable : ∀ key ∈ order, ∃ tx substate, key = stage1SubstateKey block tx ∧
      db.getSubstate keccak block tx = .ok substate) :
    ∃ txSubstate, db.getBlockSubstates keccak order block = .ok txSubstate ∧
      (∀ tx, tx ∈ txSubstate.keys ↔ db.hasSubstate block tx = true) ∧
      ∀ tx substate, txSubstate.lookup tx = some substate ↔ db.getSubstate keccak block tx = .ok substate := by
  obtain ⟨txSubstate, collected, entries⟩ := collectSubstates_ok .empty readable
  have present (tx : Uint64) (substate : Substate) (read : db.getSubstate keccak block tx = .ok substate) :
      stage1SubstateKey block tx ∈ order := by
    obtain ⟨value, stored, -⟩ := getSubstate_ok read
    exact (iterates.mem_substateKey tx).mpr (Option.isSome_iff_exists.mpr ⟨value, stored⟩)
  have agrees (tx : Uint64) (substate : Substate) :
      txSubstate.lookup tx = some substate ↔ db.getSubstate keccak block tx = .ok substate := by
    rw [entries]
    by_cases listed : stage1SubstateKey block tx ∈ order
    · rw [if_pos listed]
    · rw [if_neg listed]
      exact iff_of_false nofun (mt (present tx substate) listed)
  refine ⟨txSubstate, collected, fun tx => ?_, agrees⟩
  rw [Map.mem_keys_iff, ← iterates.mem_substateKey]
  constructor
  · rintro ⟨substate, found⟩
    exact present tx substate ((agrees tx substate).mp found)
  · intro listed
    obtain ⟨tx', substate, same, read⟩ := readable _ listed
    cases (stage1SubstateKey_inj same).2
    exact ⟨substate, (agrees tx substate).mpr read⟩

end SubstateDB

end IDWDetector
