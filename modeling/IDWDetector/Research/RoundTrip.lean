import IDWDetector.Research.CodeReferences

open Rlp Go Machine

namespace IDWDetector

variable {keccak : Bytes → Hash} {getCode : Hash → Except Panic Bytes} {alloc : SubstateAlloc}

theorem SubstateAlloc.WellFormed.present (wellFormed : alloc.WellFormed) {addr : Address} (member : addr ∈ alloc.keys) :
    ∃ account, alloc.lookup addr = some (some account) := by
  obtain ⟨entry, found⟩ := (alloc.mem_keys_iff addr).mp member
  cases entry with
  | none => exact absurd found (wellFormed.nonNil addr)
  | some account => exact ⟨account, found⟩

theorem newAccounts_isOk {order : List Address}
    (present : ∀ addr ∈ order, ∃ account, alloc.lookup addr = some (some account)) :
    ∃ accounts, newAccounts keccak alloc order = .ok accounts := by
  induction order with
  | nil => exact ⟨[], rfl⟩
  | cons addr rest ih =>
    obtain ⟨account, found⟩ := present addr List.mem_cons_self
    obtain ⟨accounts, built⟩ := ih fun addr member => present addr (List.mem_cons_of_mem _ member)
    rw [newAccounts, SubstateAlloc.getD_eq_some.mpr found]
    exact ⟨_, bind_ok.mpr ⟨accounts, built, rfl⟩⟩

theorem SubstateAlloc.WellFormed.built (wellFormed : alloc.WellFormed) (keccak : Bytes → Hash) :
    ∃ allocRLP, newSubstateAllocRLP keccak alloc = .ok allocRLP := by
  obtain ⟨accounts, built⟩ : ∃ accounts, newAccounts keccak alloc alloc.sortedKeys = .ok accounts :=
    newAccounts_isOk fun addr member => wellFormed.present ((alloc.sortedKeys_enumerates.mem_iff addr).mp member)
  exact ⟨⟨alloc.sortedKeys, accounts⟩, newSubstateAllocRLP_ok.mpr ⟨rfl, built⟩⟩

theorem hashPair_writes (pair : Hash × Hash) : hashPairCodec.Writes pair := by
  simp [hashPairCodec, hashCodec]

theorem SubstateAlloc.WellFormed.writes (wellFormed : alloc.WellFormed) {allocRLP : SubstateAllocRLP}
    (built : newSubstateAllocRLP keccak alloc = .ok allocRLP) :
    SubstateAllocRLP.codec.Writes allocRLP := by
  have addresses : addressCodec.slice.Writes allocRLP.addresses := Codec.slice_writes fun _ _ => ⟨_, rfl⟩
  have accounts : SubstateAccountRLP.codec.slice.Writes allocRLP.accounts := by
    apply Codec.slice_writes
    intro saRLP member
    obtain ⟨addr, account, present, rfl⟩ := account_of_built built member
    have balance := Codec.bigInt_writes (wellFormed.balance addr account present).1
    have storage : hashPairCodec.slice.Writes (newSubstateAccountRLP keccak account).storage :=
      Codec.slice_writes fun pair _ => hashPair_writes pair
    simp only [SubstateAccountRLP.codec, hashCodec, Fields.struct_writes, Fields.cons_writes, Fields.nil_writes,
      Codec.uint64_writes, Codec.byteArray_writes, true_and, and_true]
    exact ⟨balance, storage⟩
  simp only [SubstateAllocRLP.codec, Fields.struct_writes, Fields.cons_writes, Fields.nil_writes, and_true]
  exact ⟨addresses, accounts⟩

theorem newSubstateEnvRLP_writes {env : SubstateEnv} (natural : 0 ≤ env.difficulty) (order : List Uint64) :
    SubstateEnvRLP.codec.Writes (newSubstateEnvRLP order env) := by
  have difficulty := Codec.bigInt_writes natural
  have hashes : hashPairCodec.slice.Writes (newSubstateEnvRLP order env).blockHashes :=
    Codec.slice_writes fun pair _ => hashPair_writes pair
  simp only [SubstateEnvRLP.codec, addressCodec, Fields.struct_writes, Fields.cons_writes, Fields.nil_writes,
    Codec.uint64_writes, Codec.byteArray_writes, Codec.nilString_writes, true_and, and_true]
  exact ⟨difficulty, hashes⟩

theorem newSubstateMessageRLP_writes {msg : SubstateMessage} (gasPrice : 0 ≤ msg.gasPrice) (value : 0 ≤ msg.value)
    (gasFeeCap : 0 ≤ msg.gasFeeCap) (gasTipCap : 0 ≤ msg.gasTipCap) :
    SubstateMessageRLP.codec.Writes (newSubstateMessageRLP keccak msg) := by
  have accessList : accessTupleCodec.slice.Writes (newSubstateMessageRLP keccak msg).accessList := by
    apply Codec.slice_writes
    intro tuple _
    have keys : hashCodec.slice.Writes tuple.storageKeys := Codec.slice_writes fun _ _ => ⟨_, rfl⟩
    simp only [accessTupleCodec, addressCodec, Fields.struct_writes, Fields.cons_writes, Fields.nil_writes,
      Codec.byteArray_writes, true_and, and_true]
    exact keys
  simp only [SubstateMessageRLP.codec, addressCodec, Fields.struct_writes, Fields.cons_writes, Fields.nil_writes,
    Codec.uint64_writes, Codec.bool_writes, Codec.byteSlice_writes, Codec.byteArray_writes, Codec.nilString_writes,
    true_and, and_true]
  exact ⟨Codec.bigInt_writes gasPrice, Codec.bigInt_writes value, accessList, Codec.bigInt_writes gasFeeCap,
    Codec.bigInt_writes gasTipCap⟩

theorem newSubstateResultRLP_writes (result : SubstateResult) :
    SubstateResultRLP.codec.Writes (newSubstateResultRLP result) := by
  have logs : RlpLog.codec.slice.Writes (newSubstateResultRLP result).logs := by
    apply Codec.slice_writes
    intro log _
    have topics : hashCodec.slice.Writes log.topics := Codec.slice_writes fun _ _ => ⟨_, rfl⟩
    simp only [RlpLog.codec, addressCodec, Fields.struct_writes, Fields.cons_writes, Fields.nil_writes,
      Codec.byteArray_writes, Codec.byteSlice_writes, true_and, and_true]
    exact topics
  simp only [SubstateResultRLP.codec, addressCodec, Fields.struct_writes, Fields.cons_writes, Fields.nil_writes,
    Codec.uint64_writes, Codec.byteArray_writes, true_and, and_true]
  exact logs

theorem Substate.WellFormed.encodes {s : Substate} (wellFormed : s.WellFormed) (keccak : Bytes → Hash)
    (order : List Uint64) :
    ∃ substateRLP item, newSubstateRLP keccak order s = .ok substateRLP ∧
      SubstateRLP.codec.encode substateRLP = .ok item := by
  obtain ⟨input, builtInput⟩ := wellFormed.inputAlloc.built keccak
  obtain ⟨output, builtOutput⟩ := wellFormed.outputAlloc.built keccak
  have writes : SubstateRLP.codec.Writes ⟨input, output, newSubstateEnvRLP order s.env,
      newSubstateMessageRLP keccak s.message, newSubstateResultRLP s.result⟩ := by
    simp only [SubstateRLP.codec, Fields.struct_writes, Fields.cons_writes, Fields.nil_writes, and_true]
    exact ⟨wellFormed.inputAlloc.writes builtInput, wellFormed.outputAlloc.writes builtOutput,
      newSubstateEnvRLP_writes wellFormed.difficulty.1 order,
      newSubstateMessageRLP_writes wellFormed.gasPrice.1 wellFormed.value.1 wellFormed.gasFeeCap.1
        wellFormed.gasTipCap.1, newSubstateResultRLP_writes s.result⟩
  obtain ⟨item, encoded⟩ := writes
  exact ⟨_, item, newSubstateRLP_ok.mpr ⟨builtInput, builtOutput, rfl, rfl, rfl⟩, encoded⟩

theorem account_roundTrip {account : SubstateAccount} (found : getCode (keccak account.code) = .ok account.code) :
    SubstateAccount.setRLP getCode (newSubstateAccountRLP keccak account) = .ok account := by
  have storage : Map.ofPairs (newSubstateAccountRLP keccak account).storage = account.storage :=
    Map.ofPairs_entriesIn 0 account.storage.sortedKeys_enumerates
  apply bind_ok.mpr
  refine ⟨account.code, found, ?_⟩
  rw [storage]
  rfl

section

variable
  (codes : ∀ addr account, alloc.lookup addr = some (some account) →
      getCode (keccak account.code) = .ok account.code)
include codes

theorem setAccounts_built {order : List Address} {accounts : List SubstateAccountRLP}
    (built : newAccounts keccak alloc order = .ok accounts) (start : SubstateAlloc) :
    setAccounts getCode order (accounts.map some) start =
      .ok ((alloc.entriesIn order none).foldl (fun m pair => m.set pair.1 pair.2) start) := by
  have related := newAccounts_ok.mp built
  clear built
  induction related generalizing start with
  | nil => rfl
  | @cons addr saRLP order accounts here _ ih =>
    obtain ⟨account, present, rfl⟩ := here
    have entry : alloc.getD addr none = some account := SubstateAlloc.getD_eq_some.mpr present
    rw [List.map_cons, setAccounts, Map.entriesIn, List.map_cons, List.foldl_cons, entry]
    exact bind_ok.mpr ⟨account, account_roundTrip (codes addr account present), ih _⟩

theorem alloc_roundTrip {allocRLP : SubstateAllocRLP} (built : newSubstateAllocRLP keccak alloc = .ok allocRLP) :
    SubstateAlloc.setRLP getCode allocRLP.var = .ok alloc := by
  obtain ⟨addresses, accounts⟩ := newSubstateAllocRLP_ok.mp built
  rw [SubstateAlloc.setRLP, SubstateAllocRLP.var, addresses, setAccounts_built codes accounts]
  exact congrArg Except.ok (Map.ofPairs_entriesIn none alloc.sortedKeys_enumerates)

end

variable {order : List Uint64} {α : Type} {same : α → α → Bool}

theorem toNat_bigToHash {i : Int} (word : IsWord i) : ((bigToHash i).toNat : Int) = i := by
  obtain ⟨natural, small⟩ := word
  rw [bigToHash, BitVec.toNat_ofNat]
  omega

theorem env_roundTrip {env : SubstateEnv} (enumerates : Map.Enumerates order env.blockHashes)
    (baseFee : ∀ fee, env.baseFee = some fee → IsWord fee) :
    SubstateEnv.setRLP (newSubstateEnvRLP order env) = env := by
  have number : ∀ num64 : Uint64, BitVec.ofNat 64 (bigToHash num64.toNat).toNat = num64 := by
    intro num64
    apply BitVec.eq_of_toNat_eq
    rw [bigToHash, BitVec.toNat_ofNat, BitVec.toNat_ofNat]
    omega
  have hashes : (SubstateEnv.setRLP (newSubstateEnvRLP order env)).blockHashes = env.blockHashes := by
    rw [← Map.ofPairs_entriesIn 0 enumerates]
    simp only [SubstateEnv.setRLP, newSubstateEnvRLP, List.map_map]
    congr 1
    conv_rhs => rw [← List.map_id (env.blockHashes.entriesIn order 0)]
    apply List.map_congr_left
    rintro ⟨num64, bhash⟩ -
    exact Prod.ext (number num64) rfl
  have fee : (SubstateEnv.setRLP (newSubstateEnvRLP order env)).baseFee = env.baseFee := by
    simp only [SubstateEnv.setRLP, newSubstateEnvRLP]
    cases known : env.baseFee with
    | none => rfl
    | some fee => simp [toNat_bigToHash (baseFee fee known)]
  obtain ⟨coinbase, difficulty, gasLimit, num, timestamp, blockHashes, base⟩ := env
  simp only [SubstateEnv.setRLP, newSubstateEnvRLP, SubstateEnv.mk.injEq, true_and]
  exact ⟨hashes, fee⟩

theorem message_roundTrip {msg : SubstateMessage} (memoized : msg.Memoized keccak)
    (found : msg.toAddr = none → getCode (keccak msg.data) = .ok msg.data) :
    SubstateMessage.setRLP getCode (newSubstateMessageRLP keccak msg) = .ok { msg with dataHash := none } := by
  have data : messageData getCode (newSubstateMessageRLP keccak msg).toAddr (newSubstateMessageRLP keccak msg).data
      (newSubstateMessageRLP keccak msg).initCodeHash = .ok msg.data := by
    simp only [newSubstateMessageRLP, memoized.getDataHash]
    cases destination : msg.toAddr with
    | none => exact found destination
    | some addr => rfl
  exact bind_ok.mpr ⟨msg.data, data, rfl⟩

theorem zip_map_all {f : α → α} (each : ∀ x, same (f x) x = true) (xs : List α) :
    ((xs.map f).zip xs).all (fun (x, y) => same x y) = true := by
  induction xs with
  | nil => rfl
  | cons x rest ih =>
    rw [List.map_cons, List.zip_cons_cons, List.all_cons, ih, Bool.and_true]
    exact each x

theorem zip_self_all (refl : ∀ x, same x x = true) (xs : List α) :
    (xs.zip xs).all (fun (x, y) => same x y) = true := by
  have all := zip_map_all (f := id) refl xs
  rwa [List.map_id] at all

theorem AccessTuple.equal_refl (tuple : AccessTuple) : tuple.equal tuple = true := by
  simp only [AccessTuple.equal, and_self, decide_true, Bool.true_and]
  exact zip_self_all (fun _ => beq_self_eq_true _) tuple.storageKeys

theorem message_equal (msg : SubstateMessage) : SubstateMessage.equal { msg with dataHash := none } msg = true := by
  simp only [SubstateMessage.equal, and_self, decide_true, Bool.true_and]
  exact zip_self_all AccessTuple.equal_refl msg.accessList

theorem log_equal (log : Log) : log.rlp.log.equal log = true := by
  simp only [Log.equal, RlpLog.log, Log.rlp, and_self, decide_true, Bool.true_and]
  exact zip_self_all (fun _ => beq_self_eq_true _) log.topics

theorem result_equal (result : SubstateResult) :
    (SubstateResult.setRLP (newSubstateResultRLP result)).equal result = true := by
  simp only [SubstateResult.equal, SubstateResult.setRLP, newSubstateResultRLP, List.map_map, List.length_map,
    and_self, decide_true, Bool.true_and]
  exact zip_map_all log_equal result.logs

/-- The four comparable components are `Equal` and the environments are the same. -/
structure Substate.Matches (s' s : Substate) : Prop where
  inputAlloc : SubstateAlloc.equal s'.inputAlloc s.inputAlloc = true
  outputAlloc : SubstateAlloc.equal s'.outputAlloc s.outputAlloc = true
  message : s'.message.equal s.message = true
  result : s'.result.equal s.result = true
  env : s'.env = s.env

theorem Substate.readBack {s : Substate} {substateRLP : SubstateRLP}
    (built : newSubstateRLP keccak order s = .ok substateRLP)
    (codes : ∀ code, s.HasCode code → getCode (keccak code) = .ok code)
    (enumerates : Map.Enumerates order s.env.blockHashes) (baseFee : ∀ fee, s.env.baseFee = some fee → IsWord fee)
    (memoized : s.message.Memoized keccak) :
    ∃ s', Substate.setRLP getCode substateRLP.var = .ok s' ∧ s'.Matches s := by
  obtain ⟨builtInput, builtOutput, env, message, result⟩ := newSubstateRLP_ok.mp built
  have input := alloc_roundTrip (fun addr account present =>
    codes account.code (.inl ⟨addr, account, present, rfl⟩)) builtInput
  have output := alloc_roundTrip (fun addr account present =>
    codes account.code (.inr (.inl ⟨addr, account, present, rfl⟩))) builtOutput
  have data := message_roundTrip memoized fun creation => codes s.message.data (.inr (.inr ⟨creation, rfl⟩))
  refine ⟨⟨s.inputAlloc, s.outputAlloc, s.env, { s.message with dataHash := none },
    SubstateResult.setRLP substateRLP.result⟩, setRLP_ok_iff.mpr ⟨input, output, ?_, ?_, rfl⟩,
    SubstateAlloc.equal_refl _, SubstateAlloc.equal_refl _, message_equal _, ?_, rfl⟩
  · rw [message]
    exact data
  · rw [env]
    exact (env_roundTrip enumerates baseFee).symm
  · rw [result]
    exact result_equal s.result

/-- The hashes of the codes of a substate and of the empty code differ where the codes differ. -/
def Substate.CollisionFree (keccak : Bytes → Hash) (s : Substate) : Prop :=
  ∀ first second, (first = [] ∨ s.HasCode first) → (second = [] ∨ s.HasCode second) →
    keccak first = keccak second → first = second

namespace SubstateDB

variable {substate : Substate}

theorem lookup_written {codes : List Write} {code : Bytes} (free : substate.CollisionFree keccak)
    (only : ∀ w ∈ codes, ∃ code, substate.HasCode code ∧ w ∈ putCode keccak code) (has : substate.HasCode code)
    (db : SubstateDB)
    (written : .put (stage1CodeKey (keccak code)) code ∈ codes ∨
      db.backend.lookup (stage1CodeKey (keccak code)) = some code) :
    (db.writeAll codes).backend.lookup (stage1CodeKey (keccak code)) = some code := by
  induction codes generalizing db with
  | nil => exact written.resolve_left List.not_mem_nil
  | cons w rest ih =>
    apply ih fun w member => only w (List.mem_cons_of_mem _ member)
    obtain ⟨other, hasOther, member⟩ := only w List.mem_cons_self
    obtain ⟨-, rfl⟩ := mem_putCode.mp member
    by_cases same : stage1CodeKey (keccak code) = stage1CodeKey (keccak other)
    · right
      obtain rfl := free code other (.inr has) (.inr hasOther) (stage1CodeKey_inj same)
      exact Map.lookup_set_self _ _ _
    · rcases written with listed | stored
      · rcases List.mem_cons.mp listed with here | later
        · injection here with key _
          exact absurd key same
        · exact .inl later
      · right
        rw [← stored]
        exact Map.lookup_set_of_ne _ _ same

theorem getCode_written {codes : List Write} {code : Bytes} (free : substate.CollisionFree keccak)
    (only : ∀ w ∈ codes, ∃ code, substate.HasCode code ∧ w ∈ putCode keccak code)
    (all : ∀ code, substate.HasCode code → ∀ w ∈ putCode keccak code, w ∈ codes) (has : substate.HasCode code)
    (db : SubstateDB) : (db.writeAll codes).getCode keccak (keccak code) = .ok code := by
  by_cases empty : code = []
  · subst empty
    exact if_pos rfl
  · have different : keccak code ≠ keccak [] := fun same => empty (free code [] (.inr has) (.inl rfl) same)
    have written := all code has _ (mem_putCode.mpr ⟨empty, rfl⟩)
    rw [getCode, if_neg different, lookup_written free only has db (.inl written)]

end SubstateDB

/-- Putting a substate and getting it back returns the same substate. -/
theorem put_get_roundTrip {keccak : Bytes → Hash} {db : SubstateDB} {block tx : Uint64} {s : Substate}
    {orders : RangeOrders} (enumerate : orders.Enumerate s) (wellFormed : s.WellFormed)
    (memoized : s.message.Memoized keccak) (free : s.CollisionFree keccak)
    (fits : ∀ substateRLP item, newSubstateRLP keccak orders.blockHashes s = .ok substateRLP →
      SubstateRLP.codec.encode substateRLP = .ok item → item.encode.length < 2 ^ 63) :
    (SubstateDB.putSubstate keccak orders block tx s).panic = none ∧
    ∃ s', (db.writeAll (SubstateDB.putSubstate keccak orders block tx s).writes).getSubstate keccak block tx = .ok s' ∧
      SubstateAlloc.equal s'.inputAlloc s.inputAlloc = true ∧
      SubstateAlloc.equal s'.outputAlloc s.outputAlloc = true ∧
      s'.message.equal s.message = true ∧ s'.result.equal s.result = true ∧ s'.env = s.env := by
  obtain ⟨substateRLP, item, built, written⟩ := wellFormed.encodes keccak orders.blockHashes
  have encoded : SubstateRLP.codec.encodeToBytes substateRLP = .ok item.encode :=
    bind_ok.mpr ⟨item, written, if_pos (fits substateRLP item built written)⟩
  obtain ⟨quiet, all⟩ := SubstateDB.putAllCodes_complete enumerate built
  have trace : SubstateDB.putSubstate keccak orders block tx s =
      ⟨(SubstateDB.putAllCodes keccak orders s).writes ++ [.put (stage1SubstateKey block tx) item.encode], none⟩ := by
    rw [SubstateDB.putSubstate_eq, Trace.andThen_of_quiet quiet, SubstateDB.putValue_ok built encoded]
  have codes : ∀ code, s.HasCode code → (db.writeAll (SubstateDB.putAllCodes keccak orders s).writes).getCode keccak
      (keccak code) = .ok code := fun code has =>
    SubstateDB.getCode_written free (fun _ => SubstateDB.putAllCodes_writes) all has db
  obtain ⟨s', read, same⟩ := Substate.readBack built codes enumerate.blockHashes wellFormed.baseFee memoized
  rw [trace]
  refine ⟨rfl, s', ?_, same.inputAlloc, same.outputAlloc, same.message, same.result, same.env⟩
  have stored : (StoredRLP.latest substateRLP).encodeToBytes = .ok item.encode := encoded
  rw [SubstateDB.writeAll_append]
  exact (getSubstate_stored keccak
    (db.writeAll (SubstateDB.putAllCodes keccak orders s).writes) block tx stored).trans read

theorem stopCreation_hasCode {code : Bytes} (has : stopCreation.HasCode code) : code = [0x00] := by
  rcases has with ⟨addr, account, present, rfl⟩ | ⟨addr, account, present, rfl⟩ | ⟨-, rfl⟩
  · obtain ⟨-, ⟨⟩⟩ := Map.of_lookup_single present
    rfl
  · obtain ⟨-, ⟨⟩⟩ := Map.of_lookup_single present
    rfl
  · rfl

theorem stopCreation_collisionFree : stopCreation.CollisionFree stopKeccak := by
  have codes : ∀ code, code = [] ∨ stopCreation.HasCode code → code = [] ∨ code = [0x00] := by
    rintro code (empty | has)
    · exact .inl empty
    · exact .inr (stopCreation_hasCode has)
  intro first second isFirst isSecond same
  rcases codes first isFirst with rfl | rfl <;> rcases codes second isSecond with rfl | rfl
  · rfl
  · exact absurd same (by decide +kernel)
  · exact absurd same (by decide +kernel)
  · rfl

theorem put_get_roundTrip_stopCreation :
    (SubstateDB.putSubstate stopKeccak ⟨[1], [1], [4]⟩ 5 0 stopCreation).panic = none ∧
    ∃ s', (SubstateDB.writeAll ⟨.empty⟩
        (SubstateDB.putSubstate stopKeccak ⟨[1], [1], [4]⟩ 5 0 stopCreation).writes).getSubstate stopKeccak 5 0 =
          .ok s' ∧
      SubstateAlloc.equal s'.inputAlloc stopCreation.inputAlloc = true ∧
      SubstateAlloc.equal s'.outputAlloc stopCreation.outputAlloc = true ∧
      s'.message.equal stopCreation.message = true ∧ s'.result.equal stopCreation.result = true ∧
      s'.env = stopCreation.env := by
  apply put_get_roundTrip stopCreation_enumerate stopCreation_wellFormed (by rintro hash ⟨⟩)
    stopCreation_collisionFree
  intro substateRLP item built encoded
  have small : ((newSubstateRLP stopKeccak [4] stopCreation).toOption.bind fun substateRLP =>
      (SubstateRLP.codec.encode substateRLP).toOption).all (fun item => item.encode.length < 2 ^ 63) = true := by
    decide +kernel
  rw [built] at small
  simpa [Except.toOption, encoded] using small

end IDWDetector
