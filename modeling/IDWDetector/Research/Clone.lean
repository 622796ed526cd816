import IDWDetector.Go.Strconv
import IDWDetector.Research.ExecuteBlock
import IDWDetector.Research.RoundTrip

open Rlp Go

namespace IDWDetector

inductive CloneError
  | notInteger
  | negative
  | reversed
deriving DecidableEq

/-- The block range of the clone command; `ParseInt` accepts what `Atoi` does. -/
def cloneRange (firstArg lastArg : Bytes) : Except CloneError (Uint64 × Uint64) :=
  match atoi firstArg, atoi lastArg with
  | .ok first, .ok last =>
    if first < 0 ∨ last < 0 then .error .negative
    else if first > last then .error .reversed
    else .ok (BitVec.ofInt 64 first, BitVec.ofInt 64 last)
  | _, _ => .error .notInteger

structure CloneOrders extends BlockOrders where
  range : Uint64 → Uint64 → RangeOrders

section

variable (keccak : Bytes → Hash)

def cloneTask (orders : CloneOrders) (block tx : Uint64) (substate : Substate) : Task Write String :=
  let trace := SubstateDB.putSubstate keccak (orders.range block tx) block tx substate
  ⟨trace.writes, match trace.panic with
    | none => .ok none
    | some panic => .error panic⟩

/-- `ExecuteBlock` of the clone command; the command has no flags that skip transactions. -/
def cloneBlock (src : SubstateDB) (orders : CloneOrders) : Uint64 → Task Write BlockError :=
  readAndExecute keccak src orders.toBlockOrders "substate-cli db clone" ⟨false, false, false⟩ (cloneTask keccak orders)

/-- The pool of the clone command; the goroutines share the target database. -/
def clonePool (src : SubstateDB) (orders : CloneOrders) (first last : Uint64) (workers : Nat) :
    SubstateTaskPool (Task Write BlockError) SubstateDB BlockError :=
  .ofTasks first last workers (cloneBlock keccak src orders) (fun w dst => some (dst.write w)) fun _ => none

/-- The orders are ones in which the backend and Go may iterate over the source. -/
structure CloneOrders.Fit (src : SubstateDB) (orders : CloneOrders) : Prop where
  iterator : ∀ block, src.Iterates block (orders.iterator block)
  tx : ∀ block txSubstate, src.getBlockSubstates keccak (orders.iterator block) block = .ok txSubstate →
    Map.Enumerates (orders.tx block) txSubstate
  range : ∀ block tx substate, src.getSubstate keccak block tx = .ok substate →
    (orders.range block tx).Enumerate substate

end

theorem cloneRange_ok {firstArg lastArg : Bytes} {first last : Uint64}
    (parsed : cloneRange firstArg lastArg = .ok (first, last)) : last < BitVec.allOnes 64 := by
  unfold cloneRange at parsed
  split at parsed
  · rename_i firstInt lastInt _ second
    have small := atoi_lt second
    split at parsed
    · cases parsed
    · split at parsed
      · cases parsed
      · cases parsed
        rw [BitVec.lt_def, BitVec.toNat_ofInt, BitVec.toNat_allOnes]
        omega
  · cases parsed

namespace SubstateDB

variable {keccak : Bytes → Hash} {src : SubstateDB}

theorem NoDangling.getCode_keccak (noDangling : src.NoDangling keccak) {block tx : Uint64} {substate : Substate}
    (read : src.getSubstate keccak block tx = .ok substate) {code : Bytes} (has : substate.HasCode code) :
    src.getCode keccak (keccak code) = .ok code := by
  obtain ⟨value, stored, decoded⟩ := getSubstate_ok read
  obtain ⟨s, known, -⟩ := noDangling.stored stored
  rw [readSubstate_eq known] at decoded
  obtain ⟨hash, found⟩ := has.found decoded
  rw [noDangling.keccak_code found]
  exact found

end SubstateDB

section Clone

variable {keccak : Bytes → Hash} {src dst : SubstateDB} {orders : CloneOrders} {first last : Uint64}

def Clones (keccak : Bytes → Hash) (src : SubstateDB) (orders : CloneOrders) (block tx : Uint64) (w : Write) : Prop :=
  ∃ substate, src.getSubstate keccak block tx = .ok substate ∧
    w ∈ (SubstateDB.putSubstate keccak (orders.range block tx) block tx substate).writes

theorem cloneTask_actions (block tx : Uint64) (substate : Substate) :
    (cloneTask keccak orders block tx substate).actions =
      (SubstateDB.putSubstate keccak (orders.range block tx) block tx substate).writes := rfl

variable {block tx : Uint64} {substate : Substate}

theorem cloneTask_ending {err : Option String} (ending : (cloneTask keccak orders block tx substate).ending = .ok err) :
    (SubstateDB.putSubstate keccak (orders.range block tx) block tx substate).panic = none := by
  simp only [cloneTask] at ending
  split at ending
  · assumption
  · cases ending

theorem skips_never (substate : Substate) : SkipFlags.skips ⟨false, false, false⟩ substate = .ok false := by
  unfold SkipFlags.skips
  split <;> rfl

theorem mem_counted_clone {txSubstate : Map Uint64 Substate} {order : List Uint64}
    (enumerates : Map.Enumerates order txSubstate) (tx : Uint64) (substate : Substate) :
    (tx, substate) ∈ SkipFlags.counted ⟨false, false, false⟩
      (order.filterMap fun tx => (txSubstate.lookup tx).map (tx, ·)) ↔ txSubstate.lookup tx = some substate := by
  rw [SkipFlags.counted, List.mem_filter, List.mem_filterMap]
  simp only [skips_never, decide_true, and_true, Option.map_eq_some_iff, Prod.mk.injEq]
  constructor
  · rintro ⟨tx', -, substate', found, rfl, rfl⟩
    exact found
  · intro found
    refine ⟨tx, ?_, substate, found, rfl, rfl⟩
    exact (enumerates.mem_iff tx).mpr ((Map.mem_keys_iff _ _).mpr ⟨substate, found⟩)

theorem cloneBlock_done (noDangling : src.NoDangling keccak) (fit : orders.Fit keccak src) {block : Uint64}
    (done : (cloneBlock keccak src orders block).ending = .ok none) :
    (∀ w, w ∈ (cloneBlock keccak src orders block).actions ↔ ∃ tx, Clones keccak src orders block tx w) ∧
      ∀ tx substate, src.getSubstate keccak block tx = .ok substate →
        (SubstateDB.putSubstate keccak (orders.range block tx) block tx substate).panic = none := by
  have iterates := fit.iterator block
  obtain ⟨txSubstate, collected, -, entries⟩ :=
    SubstateDB.getBlockSubstates_agrees iterates (noDangling.legible.readable iterates)
  have counted := mem_counted_clone (fit.tx block txSubstate collected)
  unfold cloneBlock readAndExecute at done ⊢
  simp only [collected] at done ⊢
  obtain ⟨actions, endings⟩ := executeBlock_done done
  constructor
  · intro w
    rw [actions, List.mem_flatMap]
    constructor
    · rintro ⟨⟨tx, substate⟩, member, written⟩
      rw [cloneTask_actions] at written
      exact ⟨tx, substate, (entries tx substate).mp ((counted tx substate).mp member), written⟩
    · rintro ⟨tx, substate, read, written⟩
      refine ⟨(tx, substate), (counted tx substate).mpr ((entries tx substate).mpr read), ?_⟩
      rw [cloneTask_actions]
      exact written
  · intro tx substate read
    obtain ⟨err, ending⟩ := endings (tx, substate) ((counted tx substate).mpr ((entries tx substate).mpr read))
    exact cloneTask_ending ending

theorem Clones.cases {w : Write} (clones : Clones keccak src orders block tx w) :
    (∃ substate code, src.getSubstate keccak block tx = .ok substate ∧ substate.HasCode code ∧
      w = .put (stage1CodeKey (keccak code)) code) ∨
    ∃ substate s value, src.getSubstate keccak block tx = .ok substate ∧
      newSubstateRLP keccak (orders.range block tx).blockHashes substate = .ok s ∧
      SubstateRLP.codec.encodeToBytes s = .ok value ∧ w = .put (stage1SubstateKey block tx) value := by
  obtain ⟨substate, read, written⟩ := clones
  rw [SubstateDB.putSubstate_eq] at written
  rcases Trace.mem_andThen written with code | value
  · obtain ⟨code, has, member⟩ := SubstateDB.putAllCodes_writes code
    exact .inl ⟨substate, code, read, has, (SubstateDB.mem_putCode.mp member).2⟩
  · obtain ⟨s, bytes, built, encoded⟩ := SubstateDB.putValue_writes value
    rw [SubstateDB.putValue_ok built encoded, List.mem_singleton] at value
    exact .inr ⟨substate, s, bytes, read, built, encoded, value⟩

theorem Clones.agree (noDangling : src.NoDangling keccak) {block tx block' tx' : Uint64} {key value value' : Bytes}
    (first : Clones keccak src orders block tx (.put key value))
    (second : Clones keccak src orders block' tx' (.put key value')) : value = value' := by
  rcases first.cases with ⟨substate, code, read, has, here⟩ | ⟨substate, s, bytes, read, built, encoded, here⟩
  · rcases second.cases with ⟨substate', code', read', has', there⟩ | ⟨substate', s', bytes', -, -, -, there⟩
    · injection here with key₁ value₁
      injection there with key₂ value₂
      have hashes := stage1CodeKey_inj (key₁.symm.trans key₂)
      have found := noDangling.getCode_keccak read has
      rw [hashes, noDangling.getCode_keccak read' has', Except.ok.injEq] at found
      rw [value₁, value₂, found]
    · injection here with key₁ value₁
      injection there with key₂ value₂
      exact absurd (key₁.symm.trans key₂) (stage1CodeKey_ne _ _ _)
  · rcases second.cases with ⟨substate', code', -, -, there⟩ | ⟨substate', s', bytes', read', built', encoded', there⟩
    · injection here with key₁ value₁
      injection there with key₂ value₂
      exact absurd (key₂.symm.trans key₁) (stage1CodeKey_ne _ _ _)
    · injection here with key₁ value₁
      injection there with key₂ value₂
      obtain ⟨rfl, rfl⟩ := stage1SubstateKey_inj (key₁.symm.trans key₂)
      cases read.symm.trans read'
      cases built.symm.trans built'
      cases encoded.symm.trans encoded'
      rw [value₁, value₂]

theorem performed_writes {log : List Write} {dst : SubstateDB}
    (performed : SubstateTaskPool.Performed (fun w (dst : SubstateDB) => some (dst.write w)) (fun _ => none) ⟨.empty⟩
      log dst) : dst = SubstateDB.writeAll ⟨.empty⟩ log := by
  induction performed with
  | start => rfl
  | act action _ done ih =>
    cases done
    rw [SubstateDB.writeAll_append, ← ih]
    rfl
  | other _ moved => cases moved

structure Cloned (keccak : Bytes → Hash) (src : SubstateDB) (orders : CloneOrders) (first last : Uint64)
    (dst : SubstateDB) : Prop where
  entries : ∀ key value, dst.backend.lookup key = some value ↔
    ∃ block tx, first ≤ block ∧ block ≤ last ∧ Clones keccak src orders block tx (.put key value)
  quiet : ∀ block tx substate, first ≤ block → block ≤ last → src.getSubstate keccak block tx = .ok substate →
    (SubstateDB.putSubstate keccak (orders.range block tx) block tx substate).panic = none

theorem clonePool_cloned (noDangling : src.NoDangling keccak) (fit : orders.Fit keccak src) {first last : Uint64}
    (bounded : last < BitVec.allOnes 64) {workers : Nat} {s : (clonePool keccak src orders first last workers).State}
    (reached : SubstateTaskPool.Reaches _ ⟨.empty⟩ s) (returned : s.main = .returned none) :
    Cloned keccak src orders first last s.shared := by
  obtain ⟨log, performed, -, members, endings⟩ := SubstateTaskPool.Reaches.completed bounded reached returned
  have member (w : Write) : w ∈ log ↔ ∃ block tx, first ≤ block ∧ block ≤ last ∧
    Clones keccak src orders block tx w := by
    rw [members]
    constructor
    · rintro ⟨block, lower, upper, written⟩
      obtain ⟨tx, clones⟩ := ((cloneBlock_done noDangling fit (endings block lower upper)).1 w).mp written
      exact ⟨block, tx, lower, upper, clones⟩
    · rintro ⟨block, tx, lower, upper, clones⟩
      exact ⟨block, lower, upper, ((cloneBlock_done noDangling fit (endings block lower upper)).1 w).mpr ⟨tx, clones⟩⟩
  constructor
  · intro key value
    rw [performed_writes performed, SubstateDB.lookup_writeAll_iff, member]
    · intro w written
      obtain ⟨block, tx, -, -, clones⟩ := (member w).mp written
      rcases clones.cases with ⟨-, code, -, -, rfl⟩ | ⟨-, -, value, -, -, -, rfl⟩ <;> exact ⟨_, _, rfl⟩
    · intro key value value' here there
      obtain ⟨block, tx, -, -, clones⟩ := (member _).mp here
      obtain ⟨block', tx', -, -, clones'⟩ := (member _).mp there
      exact clones.agree noDangling clones'
  · intro block tx substate lower upper read
    exact (cloneBlock_done noDangling fit (endings block lower upper)).2 tx substate read

section

variable (cloned : Cloned keccak src orders first last dst) (noDangling : src.NoDangling keccak)
include cloned noDangling

theorem Cloned.hasSubstate (block tx : Uint64) : dst.hasSubstate block tx = true ↔
      first ≤ block ∧ block ≤ last ∧ src.hasSubstate block tx = true := by
  rw [SubstateDB.hasSubstate, Option.isSome_iff_exists]
  constructor
  · rintro ⟨value, found⟩
    obtain ⟨block', tx', lower, upper, clones⟩ := (cloned.entries _ _).mp found
    rcases clones.cases with ⟨-, code, -, -, here⟩ | ⟨substate, -, bytes, read, -, -, here⟩
    · injection here with key _
      exact absurd key.symm (stage1CodeKey_ne _ _ _)
    · injection here with key _
      obtain ⟨rfl, rfl⟩ := stage1SubstateKey_inj key
      obtain ⟨stored, found, -⟩ := SubstateDB.getSubstate_ok read
      exact ⟨lower, upper, Option.isSome_iff_exists.mpr ⟨stored, found⟩⟩
  · rintro ⟨lower, upper, present⟩
    obtain ⟨substate, read⟩ := noDangling.getSubstate present
    obtain ⟨s, value, built, encoded, writes⟩ :=
      SubstateDB.putSubstate_ok (cloned.quiet block tx substate lower upper read)
    refine ⟨value, (cloned.entries _ _).mpr ⟨block, tx, lower, upper, substate, read, ?_⟩⟩
    rw [writes]
    exact List.mem_append_right _ (List.mem_singleton_self _)

theorem Cloned.getCode (fit : orders.Fit keccak src) (lower : first ≤ block) (upper : block ≤ last)
    (read : src.getSubstate keccak block tx = .ok substate) {code : Bytes} (has : substate.HasCode code) :
    dst.getCode keccak (keccak code) = .ok code := by
  have own := noDangling.getCode_keccak read has
  by_cases empty : keccak code = keccak []
  · rw [SubstateDB.getCode, if_pos empty] at own ⊢
    exact own
  · obtain ⟨s, value, built, encoded, writes⟩ :=
      SubstateDB.putSubstate_ok (cloned.quiet block tx substate lower upper read)
    have nonempty : code ≠ [] := fun same => empty (congrArg keccak same)
    have written := (SubstateDB.putAllCodes_complete (fit.range block tx substate read) built).2 code has _
      (SubstateDB.mem_putCode.mpr ⟨nonempty, rfl⟩)
    have stored : dst.backend.lookup (stage1CodeKey (keccak code)) = some code := by
      refine (cloned.entries _ _).mpr ⟨block, tx, lower, upper, substate, read, ?_⟩
      rw [writes]
      exact List.mem_append_left _ written
    rw [SubstateDB.getCode, if_neg empty, stored]

end

theorem baseFee_word (s : SubstateRLP) {getCode : Hash → Except Panic Bytes}
    (read : Substate.setRLP getCode s.var = .ok substate) (fee : Int) (known : substate.env.baseFee = some fee) :
    IsWord fee := by
  rw [(setRLP_ok_iff.mp read).2.2.2.1, SubstateEnv.setRLP, Option.map_eq_some_iff] at known
  obtain ⟨hash, -, rfl⟩ := known
  exact ⟨by omega, by omega⟩

theorem memoized_of_read (s : SubstateRLP) {getCode : Hash → Except Panic Bytes}
    (read : Substate.setRLP getCode s.var = .ok substate) : substate.message.Memoized keccak := by
  obtain ⟨data, -, built⟩ := Machine.bind_ok.mp (setRLP_ok_iff.mp read).2.2.1
  intro hash memo
  rw [← Except.ok.inj built] at memo
  cases memo

theorem Cloned.getSubstate (cloned : Cloned keccak src orders first last dst) (noDangling : src.NoDangling keccak)
    (fit : orders.Fit keccak src) (lower : first ≤ block) (upper : block ≤ last)
    (read : src.getSubstate keccak block tx = .ok substate) :
    ∃ copy, dst.getSubstate keccak block tx = .ok copy ∧ copy.Matches substate := by
  obtain ⟨s, value, built, encoded, writes⟩ :=
    SubstateDB.putSubstate_ok (cloned.quiet block tx substate lower upper read)
  have stored : dst.backend.lookup (stage1SubstateKey block tx) = some value := by
    refine (cloned.entries _ _).mpr ⟨block, tx, lower, upper, substate, read, ?_⟩
    rw [writes]
    exact List.mem_append_right _ (List.mem_singleton_self _)
  obtain ⟨old, found, decoded⟩ := SubstateDB.getSubstate_ok read
  obtain ⟨r, known, -⟩ := noDangling.stored found
  rw [SubstateDB.readSubstate_eq known] at decoded
  have latest : (StoredRLP.latest s).encodeToBytes = .ok value := encoded
  have decodes : SubstateDB.decodeSubstateRLP value = .ok s.var := StoredRLP.decode_eq latest
  rw [SubstateDB.getSubstate_eq stored, SubstateDB.readSubstate_eq decodes]
  exact Substate.readBack built (fun code has => cloned.getCode noDangling fit lower upper read has)
    (fit.range block tx substate read).blockHashes (baseFee_word r decoded) (memoized_of_read r decoded)

end Clone

/-- When the clone command returns nil, the target has the substates of the range, and each can be read back. -/
theorem clone_copies_range {keccak : Bytes → Hash} {ops : List DbOp} (valid : ∀ op ∈ ops, op.Valid keccak) (n : ℕ)
    {orders : CloneOrders} (fit : orders.Fit keccak (DbOp.cutOff keccak ops n)) {firstArg lastArg : Bytes}
    {first last : Uint64} (parsed : cloneRange firstArg lastArg = .ok (first, last)) {workers : Nat}
    {s : (clonePool keccak (DbOp.cutOff keccak ops n) orders first last workers).State}
    (reached : SubstateTaskPool.Reaches _ ⟨.empty⟩ s) (returned : s.main = .returned none) (block tx : Uint64) :
    (s.shared.hasSubstate block tx = true ↔
      first ≤ block ∧ block ≤ last ∧ (DbOp.cutOff keccak ops n).hasSubstate block tx = true) ∧
    (s.shared.hasSubstate block tx = true → ∃ substate copy,
      (DbOp.cutOff keccak ops n).getSubstate keccak block tx = .ok substate ∧
      s.shared.getSubstate keccak block tx = .ok copy ∧ copy.Matches substate) := by
  have start : SubstateDB.NoDangling keccak ⟨.empty⟩ := by
    rintro key value ⟨⟩
  have noDangling := DbOp.run_noDangling start valid n
  have cloned := clonePool_cloned noDangling fit (cloneRange_ok parsed) reached returned
  have present := cloned.hasSubstate noDangling block tx
  refine ⟨present, fun copied => ?_⟩
  obtain ⟨lower, upper, source⟩ := present.mp copied
  obtain ⟨substate, read⟩ := noDangling.getSubstate source
  obtain ⟨copy, readCopy, same⟩ := cloned.getSubstate noDangling fit lower upper read
  exact ⟨substate, copy, read, readCopy, same⟩

def oneSubstate : SubstateDB := DbOp.cutOff stopKeccak [.putSubstate ⟨[1], [1], [4]⟩ 5 0 stopCreation] 4

def oneOrders : CloneOrders where
  iterator := fun block => if block = 5 then [stage1SubstateKey 5 0] else []
  tx := fun block => if block = 5 then [0] else []
  range := fun _ _ => ⟨[1], [1], [4]⟩

theorem oneSubstate_keys : oneSubstate.backend.keys = {stage1CodeKey (stopKeccak [0x00]), stage1SubstateKey 5 0} := by
  decide +kernel

theorem oneSubstate_hasSubstate (block tx : Uint64) : oneSubstate.hasSubstate block tx = true ↔ block = 5 ∧ tx = 0 := by
  rw [SubstateDB.hasSubstate, Option.isSome_iff_exists, ← Map.mem_keys_iff, oneSubstate_keys, Finset.mem_insert,
    Finset.mem_singleton]
  constructor
  · rintro (code | same)
    · exact absurd code.symm (stage1CodeKey_ne _ _ _)
    · exact stage1SubstateKey_inj same
  · rintro ⟨rfl, rfl⟩
    exact .inr rfl

theorem oneSubstate_getSubstate : oneSubstate.getSubstate stopKeccak 5 0 =
    .ok { stopCreation with result := SubstateResult.setRLP (newSubstateResultRLP stopCreation.result) } := by
  have read : (oneSubstate.getSubstate stopKeccak 5 0).toOption =
      some { stopCreation with result := SubstateResult.setRLP (newSubstateResultRLP stopCreation.result) } := by
    decide +kernel
  exact Machine.toOption_eq_some read

theorem oneOrders_iterates (block : Uint64) : oneSubstate.Iterates block (oneOrders.iterator block) := by
  constructor
  · simp only [oneOrders]
    split <;> simp
  · intro key
    rw [oneSubstate_keys, Finset.mem_insert, Finset.mem_singleton]
    simp only [oneOrders]
    constructor
    · intro member
      split at member
      · rename_i same
        cases List.mem_singleton.mp member
        exact ⟨.inr rfl, same ▸ blockPrefix_substateKey 5 0⟩
      · cases member
    · rintro ⟨rfl | rfl, marked⟩
      · exact absurd marked (not_blockPrefix_codeKey block _)
      · rw [if_pos (block_of_blockPrefix marked).symm]
        exact List.mem_singleton_self _

theorem onePut_valid : ∀ op ∈ [DbOp.putSubstate ⟨[1], [1], [4]⟩ 5 0 stopCreation], op.Valid stopKeccak := by
  simp only [List.mem_singleton, forall_eq]
  exact ⟨stopCreation_enumerate, by rintro hash ⟨⟩⟩

theorem oneOrders_fit : oneOrders.Fit stopKeccak oneSubstate where
  iterator := oneOrders_iterates
  tx block txSubstate collected := by
    have start : SubstateDB.NoDangling stopKeccak ⟨.empty⟩ := by
      rintro key value ⟨⟩
    have noDangling := DbOp.run_noDangling start onePut_valid 4
    obtain ⟨found, returned, keys, -⟩ :=
      SubstateDB.getBlockSubstates_agrees (oneOrders_iterates block)
        (noDangling.legible.readable (oneOrders_iterates block))
    cases returned.symm.trans collected
    constructor
    · simp only [oneOrders]
      split <;> simp
    · intro tx
      rw [keys, oneSubstate_hasSubstate]
      simp [oneOrders]
  range block tx substate read := by
    obtain ⟨value, found, -⟩ := SubstateDB.getSubstate_ok read
    obtain ⟨rfl, rfl⟩ := (oneSubstate_hasSubstate block tx).mp (Option.isSome_iff_exists.mpr ⟨value, found⟩)
    cases oneSubstate_getSubstate.symm.trans read
    exact ⟨stopCreation_enumerate.inputAlloc, stopCreation_enumerate.outputAlloc, stopCreation_enumerate.blockHashes⟩

theorem clone_copies_range_one :
    ∃ s, (clonePool stopKeccak oneSubstate oneOrders 5 5 1).Reaches ⟨.empty⟩ s ∧ s.main = .returned none ∧
      ∃ substate copy, oneSubstate.getSubstate stopKeccak 5 0 = .ok substate ∧
        s.shared.getSubstate stopKeccak 5 0 = .ok copy ∧ copy.Matches substate := by
  have returns : (((clonePool stopKeccak oneSubstate oneOrders 5 5 1).schedule
      ((clonePool stopKeccak oneSubstate oneOrders 5 5 1).init ⟨.empty⟩)
      ([.produce, .take 0, .act 0, .act 0, .act 0, .act 0, .act 0, .send 0, .endProducer, .receive, .count, .leave,
        .sendStop, .stopWorker 0, .sendStop, .wait] : List (Choice 1))).any
        fun s => s.main = .returned none) = true := by
    decide +kernel
  obtain ⟨s, ran, returned⟩ := (Option.any_eq_true _ _).mp returns
  have reached := SubstateTaskPool.schedule_reaches ran
  have ended := of_decide_eq_true returned
  have parsed : cloneRange [0x35] [0x35] = .ok (5, 5) := by decide
  obtain ⟨present, copied⟩ := clone_copies_range onePut_valid 4 oneOrders_fit parsed reached ended 5 0
  have source : oneSubstate.hasSubstate 5 0 = true := (oneSubstate_hasSubstate 5 0).mpr ⟨rfl, rfl⟩
  exact ⟨s, reached, ended, copied (present.mpr ⟨by decide, by decide, source⟩)⟩

end IDWDetector
