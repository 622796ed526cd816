import IDWDetector.Research.Layouts
import IDWDetector.Research.Writing

open Rlp Go

namespace IDWDetector

variable {value : Bytes} {codeHash : Hash} {substate : Substate} {s : SubstateRLP} {block tx : Uint64}
  {keccak : Bytes → Hash}

/-- The memoized data hash, if there is one, is the hash of the data. -/
def SubstateMessage.Memoized (keccak : Bytes → Hash) (msg : SubstateMessage) : Prop :=
  ∀ hash, msg.dataHash = some hash → hash = keccak msg.data

theorem SubstateMessage.Memoized.getDataHash {msg : SubstateMessage} (memoized : msg.Memoized keccak) :
    msg.getDataHash keccak = keccak msg.data := by
  unfold SubstateMessage.getDataHash
  cases memo : msg.dataHash with
  | none => rfl
  | some hash => exact memoized hash memo

/-- Every hash in a substate satisfies `holds`. -/
structure SubstateRLP.Resolved (holds : Hash → Prop) (s : SubstateRLP) : Prop where
  inputAligned : s.inputAlloc.addresses.length = s.inputAlloc.accounts.length
  outputAligned : s.outputAlloc.addresses.length = s.outputAlloc.accounts.length
  input : ∀ account ∈ s.inputAlloc.accounts, holds account.codeHash
  output : ∀ account ∈ s.outputAlloc.accounts, holds account.codeHash
  message : s.message.toAddr = none → ∃ hash, s.message.initCodeHash = some hash ∧ holds hash

theorem SubstateRLP.Resolved.mono {holds holds' : Hash → Prop} (resolved : s.Resolved holds)
    (implies : ∀ hash, holds hash → holds' hash) : s.Resolved holds' where
  inputAligned := resolved.inputAligned
  outputAligned := resolved.outputAligned
  input account member := implies _ (resolved.input account member)
  output account member := implies _ (resolved.output account member)
  message creation := by
    obtain ⟨hash, found, held⟩ := resolved.message creation
    exact ⟨hash, found, implies hash held⟩

theorem SubstateRLP.Resolved.readable {holds : Hash → Prop} (resolved : s.Resolved holds) :
    s.Readable holds where
  inputAlloc := ⟨resolved.inputAligned.le, fun account member => resolved.input account (List.mem_of_mem_take member)⟩
  outputAlloc :=
    ⟨resolved.outputAligned.le, fun account member => resolved.output account (List.mem_of_mem_take member)⟩
  message := resolved.message

theorem newSubstateRLP_resolved {order : List Uint64} {holds : Hash → Prop}
    (built : newSubstateRLP keccak order substate = .ok s) (memoized : substate.message.Memoized keccak)
    (held : ∀ code, substate.HasCode code → holds (keccak code)) : s.Resolved holds := by
  obtain ⟨builtInput, builtOutput, -, message, -⟩ := newSubstateRLP_ok.mp built
  obtain ⟨inputKeys, inputAccounts⟩ := newSubstateAllocRLP_ok.mp builtInput
  obtain ⟨outputKeys, outputAccounts⟩ := newSubstateAllocRLP_ok.mp builtOutput
  refine ⟨?_, ?_, ?_, ?_, ?_⟩
  · rw [inputKeys, (newAccounts_ok.mp inputAccounts).length_eq]
  · rw [outputKeys, (newAccounts_ok.mp outputAccounts).length_eq]
  · intro saRLP member
    obtain ⟨addr, account, present, rfl⟩ := account_of_built builtInput member
    exact held account.code (.inl ⟨addr, account, present, rfl⟩)
  · intro saRLP member
    obtain ⟨addr, account, present, rfl⟩ := account_of_built builtOutput member
    exact held account.code (.inr (.inl ⟨addr, account, present, rfl⟩))
  · intro creation
    rw [message] at creation ⊢
    have absent : substate.message.toAddr = none := creation
    refine ⟨keccak substate.message.data, ?_, held _ (.inr (.inr ⟨absent, rfl⟩))⟩
    rw [← memoized.getDataHash]
    exact if_pos absent

namespace SubstateDB

/-- The empty hash, or one under which the code table holds bytes of that hash. -/
def Holds (keccak : Bytes → Hash) (db : SubstateDB) (codeHash : Hash) : Prop :=
  codeHash = keccak [] ∨ ∃ code, db.backend.lookup (stage1CodeKey codeHash) = some code ∧ keccak code = codeHash

def NoDangling (keccak : Bytes → Hash) (db : SubstateDB) : Prop :=
  ∀ key value, db.backend.lookup key = some value →
    key = stage1CodeKey (keccak value) ∨
      ∃ block tx s, key = stage1SubstateKey block tx ∧ SubstateRLP.codec.encodeToBytes s = .ok value ∧
        s.Resolved (db.Holds keccak)

theorem mem_putCode {code : Bytes} {w : Write} :
    w ∈ putCode keccak code ↔ code ≠ [] ∧ w = .put (stage1CodeKey (keccak code)) code := by
  unfold putCode
  by_cases empty : code = []
  · simp [empty]
  · simp [empty]

variable {db : SubstateDB}

theorem Holds.writeCode (holds : db.Holds keccak codeHash) (code : Bytes) :
    (db.write (.put (stage1CodeKey (keccak code)) code)).Holds keccak codeHash := by
  rcases holds with empty | ⟨stored, found, hashed⟩
  · exact .inl empty
  · by_cases same : stage1CodeKey codeHash = stage1CodeKey (keccak code)
    · refine .inr ⟨code, ?_, (stage1CodeKey_inj same).symm⟩
      rw [same]
      exact Map.lookup_set_self _ _ _
    · refine .inr ⟨stored, ?_, hashed⟩
      rw [← found]
      exact Map.lookup_set_of_ne _ _ same

theorem Holds.of_codes_eq {db' : SubstateDB} (holds : db.Holds keccak codeHash)
    (same : db'.backend.lookup (stage1CodeKey codeHash) = db.backend.lookup (stage1CodeKey codeHash)) :
    db'.Holds keccak codeHash := by
  unfold Holds
  rw [same]
  exact holds

theorem NoDangling.of_entries {db' : SubstateDB} (noDangling : db.NoDangling keccak)
    (kept : ∀ codeHash, db.Holds keccak codeHash → db'.Holds keccak codeHash)
    (entries : ∀ key value, db'.backend.lookup key = some value → db.backend.lookup key = some value ∨
      key = stage1CodeKey (keccak value) ∨ ∃ block tx s, key = stage1SubstateKey block tx ∧
        SubstateRLP.codec.encodeToBytes s = .ok value ∧ s.Resolved (db.Holds keccak)) :
    db'.NoDangling keccak := by
  intro key value found
  refine ((entries key value found).elim (noDangling key value) id).imp_right ?_
  rintro ⟨block, tx, s, isSubstate, encoded, resolved⟩
  exact ⟨block, tx, s, isSubstate, encoded, resolved.mono kept⟩

theorem NoDangling.writeCode (noDangling : db.NoDangling keccak) (code : Bytes) :
    (db.write (.put (stage1CodeKey (keccak code)) code)).NoDangling keccak := by
  refine noDangling.of_entries (fun _ holds => holds.writeCode code) fun key value found => ?_
  rcases Map.of_lookup_set found with ⟨rfl, rfl⟩ | found
  · exact .inr (.inl rfl)
  · exact .inl found

theorem NoDangling.writeSubstate (noDangling : db.NoDangling keccak)
    (encoded : SubstateRLP.codec.encodeToBytes s = .ok value) (resolved : s.Resolved (db.Holds keccak))
    (block tx : Uint64) : (db.write (.put (stage1SubstateKey block tx) value)).NoDangling keccak := by
  refine noDangling.of_entries (fun codeHash holds => ?_) fun key value found => ?_
  · exact holds.of_codes_eq (Map.lookup_set_of_ne _ _ (stage1CodeKey_ne codeHash block tx))
  · rcases Map.of_lookup_set found with ⟨rfl, rfl⟩ | found
    · exact .inr (.inr ⟨block, tx, s, rfl, encoded, resolved⟩)
    · exact .inl found

theorem NoDangling.deleteSubstate (noDangling : db.NoDangling keccak) (block tx : Uint64) :
    (db.write (.delete (stage1SubstateKey block tx))).NoDangling keccak := by
  refine noDangling.of_entries (fun codeHash holds => ?_) fun _ _ found => .inl (Map.of_lookup_delete found)
  exact holds.of_codes_eq (Map.lookup_delete_of_ne _ (stage1CodeKey_ne codeHash block tx))

theorem writeAll_append (db : SubstateDB) (first second : List Write) :
    db.writeAll (first ++ second) = (db.writeAll first).writeAll second := List.foldl_append

theorem NoDangling.writeCodes {codes : List Write} (noDangling : db.NoDangling keccak)
    (only : ∀ w ∈ codes, ∃ code, w ∈ putCode keccak code) :
    (db.writeAll codes).NoDangling keccak ∧
      ∀ code, db.Holds keccak (keccak code) ∨ (∀ w ∈ putCode keccak code, w ∈ codes) →
        (db.writeAll codes).Holds keccak (keccak code) := by
  induction codes generalizing db with
  | nil =>
    refine ⟨noDangling, fun code held => held.elim id fun all => ?_⟩
    by_contra missing
    exact List.not_mem_nil (all _ (mem_putCode.mpr ⟨fun empty => missing (.inl (congrArg keccak empty)), rfl⟩))
  | cons w rest ih =>
    obtain ⟨code, written⟩ := only w List.mem_cons_self
    obtain ⟨-, rfl⟩ := mem_putCode.mp written
    obtain ⟨kept, holds⟩ := ih (noDangling.writeCode code) fun w member => only w (List.mem_cons_of_mem _ member)
    refine ⟨kept, fun other held => holds other ?_⟩
    rcases held with held | all
    · exact .inl (held.writeCode code)
    · by_cases same : other = code
      · subst same
        exact .inl (.inr ⟨other, Map.lookup_set_self _ _ _, rfl⟩)
      · refine .inr fun w member => (List.mem_cons.mp (all w member)).resolve_left ?_
        rintro rfl
        exact same (Write.put.inj (mem_putCode.mp member).2).2.symm

theorem putSubstate_cases {orders : RangeOrders} (enumerate : orders.Enumerate substate) (block tx : Uint64) (n : ℕ) :
    ∃ codes : List Write, (∀ w ∈ codes, ∃ code, w ∈ putCode keccak code) ∧
      ((putSubstate keccak orders block tx substate).writes.take n = codes ∨
        ∃ s value, newSubstateRLP keccak orders.blockHashes substate = .ok s ∧
          SubstateRLP.codec.encodeToBytes s = .ok value ∧
          (∀ code, substate.HasCode code → ∀ w ∈ putCode keccak code, w ∈ codes) ∧
          (putSubstate keccak orders block tx substate).writes.take n =
            codes ++ [.put (stage1SubstateKey block tx) value]) := by
  have only : ∀ w ∈ (putAllCodes keccak orders substate).writes, ∃ code, w ∈ putCode keccak code := by
    intro w member
    obtain ⟨code, -, written⟩ := putAllCodes_writes member
    exact ⟨code, written⟩
  rw [putSubstate_eq]
  by_cases written : ∃ s value, newSubstateRLP keccak orders.blockHashes substate = .ok s ∧
      SubstateRLP.codec.encodeToBytes s = .ok value
  · obtain ⟨s, value, built, encoded⟩ := written
    obtain ⟨quiet, all⟩ := putAllCodes_complete enumerate built
    rw [Trace.andThen_of_quiet quiet, putValue_ok built encoded, List.take_append]
    refine ⟨_, fun w member => only w (List.mem_of_mem_take (i := n) member), ?_⟩
    by_cases cut : n ≤ (putAllCodes keccak orders substate).writes.length
    · rw [Nat.sub_eq_zero_of_le cut]
      exact .inl (List.append_nil _)
    · rw [List.take_of_length_le (by omega : (putAllCodes keccak orders substate).writes.length ≤ n),
        List.take_of_length_le (by simp; omega)]
      exact .inr ⟨s, value, built, encoded, all, rfl⟩
  · refine ⟨_, fun w member => ?_, .inl rfl⟩
    rcases Trace.mem_andThen (List.mem_of_mem_take member) with own | value
    · exact only w own
    · exact absurd (putValue_writes value) written

/-- Every key is a code key or a substate key, and under a substate key there is a value in one of
    the layouts whose code is present. -/
def Legible (keccak : Bytes → Hash) (db : SubstateDB) : Prop :=
  ∀ key value, db.backend.lookup key = some value → (∃ codeHash, key = stage1CodeKey codeHash) ∨
    ∃ block tx stored, key = stage1SubstateKey block tx ∧ StoredRLP.encodeToBytes stored = .ok value ∧
      stored.current.Readable (db.Resolves keccak)

section Legible

variable (legible : db.Legible keccak)
include legible

theorem Legible.getSubstate (found : db.backend.lookup (stage1SubstateKey block tx) = some value) :
    ∃ substate, db.getSubstate keccak block tx = .ok substate := by
  rcases legible _ value found with ⟨codeHash, isCode⟩ | ⟨block', tx', stored, -, encoded, readable⟩
  · exact absurd isCode.symm (stage1CodeKey_ne _ _ _)
  · rw [getSubstate_eq found, readSubstate_eq (StoredRLP.decode_eq encoded)]
    apply setRLP_isOk_iff.mpr
    rw [getCode_isOk_eq]
    exact readable

theorem Legible.readable {order : List Bytes} (iterates : db.Iterates block order) :
    ∀ key ∈ order, ∃ tx substate, key = stage1SubstateKey block tx ∧
      db.getSubstate keccak block tx = .ok substate := by
  intro key member
  obtain ⟨inside, marked⟩ := (iterates.mem_iff key).mp member
  obtain ⟨value, found⟩ := (Map.mem_keys_iff _ _).mp inside
  rcases legible key value found with ⟨codeHash, rfl⟩ | ⟨block', tx, stored, rfl, -⟩
  · exact absurd marked (not_blockPrefix_codeKey block _)
  · cases block_of_blockPrefix marked
    obtain ⟨substate, read⟩ := legible.getSubstate found
    exact ⟨tx, substate, rfl, read⟩

end Legible

variable (noDangling : db.NoDangling keccak)
include noDangling

theorem NoDangling.putSubstate {orders : RangeOrders} (enumerate : orders.Enumerate substate)
    (memoized : substate.message.Memoized keccak) (block tx : Uint64) (n : ℕ) :
    (db.writeAll ((putSubstate keccak orders block tx substate).writes.take n)).NoDangling keccak := by
  obtain ⟨codes, only, same | ⟨s, value, built, encoded, all, same⟩⟩ :=
    putSubstate_cases enumerate block tx n
  · rw [same]
    exact (noDangling.writeCodes only).1
  · obtain ⟨kept, holds⟩ := noDangling.writeCodes only
    rw [same, writeAll_append]
    exact kept.writeSubstate encoded
      (newSubstateRLP_resolved built memoized fun code has => holds code (.inr (all code has))) block tx

theorem NoDangling.legible : db.Legible keccak := by
  intro key value found
  rcases noDangling key value found with isCode | ⟨block, tx, s, isSubstate, encoded, resolved⟩
  · exact .inl ⟨_, isCode⟩
  · refine .inr ⟨block, tx, .latest s, isSubstate, encoded, (resolved.mono fun codeHash holds => ?_).readable⟩
    rcases holds with empty | ⟨code, found, -⟩
    · exact .inl empty
    · exact .inr ⟨code, found⟩

theorem NoDangling.stored (found : db.backend.lookup (stage1SubstateKey block tx) = some value) :
    ∃ s, decodeSubstateRLP value = .ok (SubstateRLP.var s) ∧ s.Resolved (db.Holds keccak) := by
  rcases noDangling _ value found with isCode | ⟨block', tx', s, isSubstate, encoded, resolved⟩
  · exact absurd isCode.symm (stage1CodeKey_ne _ _ _)
  · have decoded : decodeSubstateRLP value = .ok (StoredRLP.latest s).current.var := StoredRLP.decode_eq encoded
    exact ⟨s, decoded, resolved⟩

theorem NoDangling.getSubstate (present : db.hasSubstate block tx = true) :
    ∃ substate, db.getSubstate keccak block tx = .ok substate := by
  obtain ⟨value, found⟩ := Option.isSome_iff_exists.mp present
  exact noDangling.legible.getSubstate found

theorem NoDangling.getBlockSubstates {order : List Bytes} (iterates : db.Iterates block order) :
    ∃ txSubstate, db.getBlockSubstates keccak order block = .ok txSubstate := by
  obtain ⟨txSubstate, collected, -⟩ := getBlockSubstates_agrees iterates (noDangling.legible.readable iterates)
  exact ⟨txSubstate, collected⟩

theorem NoDangling.keccak_code {code : Bytes} (found : db.getCode keccak codeHash = .ok code) :
    keccak code = codeHash := by
  unfold getCode at found
  split at found
  · rename_i empty
    cases found
    exact empty.symm
  · split at found
    · cases found
    · rename_i stored
      cases found
      rcases noDangling _ code stored with own | ⟨block, tx, s, isSubstate, -⟩
      · exact (stage1CodeKey_inj own).symm
      · exact absurd isSubstate (stage1CodeKey_ne _ _ _)

end SubstateDB

inductive DbOp
  | putSubstate (orders : RangeOrders) (block tx : Uint64) (substate : Substate)
  | putCode (code : Bytes)
  | deleteSubstate (block tx : Uint64)
deriving DecidableEq

namespace DbOp

def writes (keccak : Bytes → Hash) : DbOp → List Write
  | putSubstate orders block tx substate => (SubstateDB.putSubstate keccak orders block tx substate).writes
  | putCode code => SubstateDB.putCode keccak code
  | deleteSubstate block tx => (SubstateDB.deleteSubstate block tx).writes

/-- The loops of `PutSubstate` visit every key once, and its message memoizes no other hash. -/
def Valid (keccak : Bytes → Hash) : DbOp → Prop
  | putSubstate orders _ _ substate => orders.Enumerate substate ∧ substate.message.Memoized keccak
  | putCode _ => True
  | deleteSubstate _ _ => True

theorem noDangling {db : SubstateDB} {op : DbOp} (holds : db.NoDangling keccak) (valid : op.Valid keccak) (n : ℕ) :
    (db.writeAll ((op.writes keccak).take n)).NoDangling keccak := by
  cases op with
  | putSubstate orders block tx substate => exact holds.putSubstate valid.1 valid.2 block tx n
  | putCode code => exact (holds.writeCodes fun w member => ⟨code, List.mem_of_mem_take member⟩).1
  | deleteSubstate block tx =>
    cases n with
    | zero => exact holds
    | succ n =>
      have whole : (writes keccak (deleteSubstate block tx)).take (n + 1) = [.delete (stage1SubstateKey block tx)] :=
        List.take_of_length_le (Nat.le_add_left 1 n)
      rw [whole]
      exact holds.deleteSubstate block tx

theorem run_noDangling {db : SubstateDB} {ops : List DbOp} (holds : db.NoDangling keccak)
    (valid : ∀ op ∈ ops, op.Valid keccak) (n : ℕ) :
    (db.writeAll ((ops.flatMap (writes keccak)).take n)).NoDangling keccak := by
  induction ops generalizing db n with
  | nil =>
    rw [List.flatMap_nil, List.take_nil]
    exact holds
  | cons op rest ih =>
    rw [List.flatMap_cons, List.take_append, SubstateDB.writeAll_append]
    apply ih
    · exact noDangling holds (valid op List.mem_cons_self) n
    · intro op member
      exact valid op (List.mem_cons_of_mem _ member)

/-- An empty database after the first `n` backend writes of a run. -/
def cutOff (keccak : Bytes → Hash) (ops : List DbOp) (n : ℕ) : SubstateDB :=
  SubstateDB.writeAll ⟨.empty⟩ ((ops.flatMap (writes keccak)).take n)

end DbOp

/-- After any prefix of the writes of any run, the hashes in every stored
    substate are resolved and no reader panics. -/
theorem code_references_resolve {keccak : Bytes → Hash} {ops : List DbOp} (valid : ∀ op ∈ ops, op.Valid keccak)
    (n : ℕ) :
    (∀ block tx value, (DbOp.cutOff keccak ops n).backend.lookup (stage1SubstateKey block tx) = some value →
      ∃ s, SubstateDB.decodeSubstateRLP value = .ok (SubstateRLP.var s) ∧
        s.Resolved ((DbOp.cutOff keccak ops n).Holds keccak)) ∧
    (∀ block tx, (DbOp.cutOff keccak ops n).hasSubstate block tx = true →
      ∃ substate, (DbOp.cutOff keccak ops n).getSubstate keccak block tx = .ok substate) ∧
    (∀ block order, (DbOp.cutOff keccak ops n).Iterates block order →
      ∃ txSubstate, (DbOp.cutOff keccak ops n).getBlockSubstates keccak order block = .ok txSubstate) := by
  have start : SubstateDB.NoDangling keccak ⟨.empty⟩ := by
    rintro key value ⟨⟩
  have holds := DbOp.run_noDangling start valid n
  refine ⟨?_, ?_, ?_⟩
  · intro block tx value found
    exact holds.stored found
  · intro block tx present
    exact holds.getSubstate present
  · intro block order iterates
    exact holds.getBlockSubstates iterates

/-- Two transactions that share their code, cut off while the second is being put. -/
theorem code_references_resolve_stopCreation :
    ∃ substate, (DbOp.cutOff stopKeccak
      [.putSubstate ⟨[1], [1], [4]⟩ 5 0 stopCreation, .putSubstate ⟨[1], [1], [4]⟩ 5 1 stopCreation,
        .deleteSubstate 5 0] 6).getSubstate stopKeccak 5 0 = .ok substate := by
  have valid : ∀ op ∈ [DbOp.putSubstate ⟨[1], [1], [4]⟩ 5 0 stopCreation,
      .putSubstate ⟨[1], [1], [4]⟩ 5 1 stopCreation, .deleteSubstate 5 0], op.Valid stopKeccak := by
    simp only [List.mem_cons, List.not_mem_nil, or_false, forall_eq_or_imp, forall_eq]
    exact ⟨⟨stopCreation_enumerate, by rintro hash ⟨⟩⟩, ⟨stopCreation_enumerate, by rintro hash ⟨⟩⟩, trivial⟩
  apply (code_references_resolve valid 6).2.1
  decide +kernel

end IDWDetector
