import IDWDetector.Core.StateTransition
import IDWDetector.Research.Layouts

open Rlp

namespace IDWDetector

/-- A replayed message is the recorded one. -/
structure BerlinSubstateMessageRLP.Kept (getCode : Hash → Except Panic Bytes) (bmsgRLP : BerlinSubstateMessageRLP)
    (msg : SubstateMessage) : Prop where
  nonce : msg.nonce = bmsgRLP.nonce
  checkNonce : msg.checkNonce = bmsgRLP.checkNonce
  gasPrice : msg.gasPrice = bmsgRLP.gasPrice
  gas : msg.gas = bmsgRLP.gas
  fromAddr : msg.fromAddr = bmsgRLP.fromAddr
  toAddr : msg.toAddr = bmsgRLP.toAddr
  value : msg.value = bmsgRLP.value
  data : messageData getCode bmsgRLP.toAddr bmsgRLP.data bmsgRLP.initCodeHash = .ok msg.data
  accessList : msg.accessList = bmsgRLP.accessList
  gasFeeCap : msg.gasFeeCap = bmsgRLP.gasPrice
  gasTipCap : msg.gasTipCap = bmsgRLP.gasPrice
  intrinsicGas : ∀ data, messageData getCode bmsgRLP.toAddr bmsgRLP.data bmsgRLP.initCodeHash = .ok data →
    ∀ isHomestead isEIP2028,
      Core.intrinsicGas msg.data msg.accessList msg.toAddr.isNone isHomestead isEIP2028 =
        Core.intrinsicGas data bmsgRLP.accessList bmsgRLP.toAddr.isNone isHomestead isEIP2028

/-- Both ways of reading a stored Berlin substate return its message. -/
def SubstateDB.KeepsBerlin (keccak : Bytes → Hash) (db : SubstateDB) (order : List Bytes) (block tx : Uint64)
    (b : BerlinSubstateRLP) : Prop :=
  (∃ substate, db.getSubstate keccak block tx = .ok substate ∧ b.message.Kept (db.getCode keccak) substate.message) ∧
    ∃ txSubstate substate, db.getBlockSubstates keccak order block = .ok txSubstate ∧
      txSubstate.lookup tx = some substate ∧ b.message.Kept (db.getCode keccak) substate.message

theorem setBerlinRLP_kept_iff {getCode : Hash → Except Panic Bytes} {bmsgRLP : BerlinSubstateMessageRLP}
    {msg : SubstateMessage}
    (read : SubstateMessage.setRLP getCode (SubstateMessageRLP.zero.setBerlinRLP bmsgRLP) = .ok msg) :
    bmsgRLP.Kept getCode msg ↔ bmsgRLP.accessList = [] := by
  obtain ⟨data, found, result⟩ := Machine.bind_ok.mp read
  cases result
  constructor
  · intro kept
    exact kept.accessList.symm
  · intro empty
    refine ⟨rfl, rfl, rfl, rfl, rfl, rfl, rfl, found, empty.symm, rfl, rfl, ?_⟩
    intro data' found' isHomestead isEIP2028
    cases found.symm.trans found'
    rw [empty]
    rfl

/-- A stored Berlin substate is read back exactly when it has no access list and its code hashes are resolved. -/
theorem keepsBerlin_iff {keccak : Bytes → Hash} {db : SubstateDB} {block tx : Uint64} {b : BerlinSubstateRLP}
    {value : Bytes} {order : List Bytes} (encoded : (StoredRLP.berlin b).encodeToBytes = .ok value)
    (iterates : (db.write (.put (stage1SubstateKey block tx) value)).Iterates block order)
    (others : ∀ key ∈ order, key ≠ stage1SubstateKey block tx → ∃ tx' substate,
      key = stage1SubstateKey block tx' ∧ db.getSubstate keccak block tx' = .ok substate) :
    (db.write (.put (stage1SubstateKey block tx) value)).KeepsBerlin keccak order block tx b ↔
      b.message.accessList = [] ∧ (StoredRLP.berlin b).current.Readable (db.Resolves keccak) := by
  have resolves := SubstateDB.getCode_isOk_eq keccak db
  have code := SubstateDB.getCode_putSubstate keccak db block tx value
  have read := getSubstate_stored keccak db block tx encoded
  rw [SubstateDB.KeepsBerlin, read, code, ← resolves]
  constructor
  · rintro ⟨⟨substate, set, kept⟩, -⟩
    have message := (setRLP_ok_iff.mp set).2.2.1
    exact ⟨(setBerlinRLP_kept_iff message).mp kept, setRLP_isOk_iff.mp ⟨substate, set⟩⟩
  · rintro ⟨empty, readable⟩
    obtain ⟨substate, set⟩ := setRLP_isOk_iff.mpr readable
    have kept := (setBerlinRLP_kept_iff (setRLP_ok_iff.mp set).2.2.1).mpr empty
    refine ⟨⟨substate, set, kept⟩, ?_⟩
    have readable : ∀ key ∈ order, ∃ tx' s, key = stage1SubstateKey block tx' ∧
        (db.write (.put (stage1SubstateKey block tx) value)).getSubstate keccak block tx' = .ok s := by
      intro key member
      by_cases own : key = stage1SubstateKey block tx
      · exact ⟨tx, substate, own, read.trans set⟩
      · obtain ⟨tx', s, rfl, readOther⟩ := others key member own
        obtain ⟨value', stored', decoded⟩ := SubstateDB.getSubstate_ok readOther
        refine ⟨tx', s, rfl, ?_⟩
        have kept : (db.write (.put (stage1SubstateKey block tx) value)).backend.lookup
            (stage1SubstateKey block tx') = some value' := by
          rw [← stored']
          exact Go.Map.lookup_set_of_ne _ _ own
        rw [SubstateDB.getSubstate_eq kept, SubstateDB.readSubstate, code]
        exact decoded
    obtain ⟨txSubstate, collected, entries⟩ := SubstateDB.collectSubstates_ok .empty readable
    have inside : stage1SubstateKey block tx ∈ order := by
      apply (iterates.mem_iff _).mpr
      exact ⟨Finset.mem_insert_self _ _, blockPrefix_substateKey block tx⟩
    refine ⟨txSubstate, substate, collected, ?_, kept⟩
    rw [entries, if_pos inside]
    exact read.trans set

def plainCall : BerlinSubstateRLP :=
  { berlinCall with message := { berlinCall.message with accessList := [] } }

theorem plainCall_encodes : ∃ value, (StoredRLP.berlin plainCall).encodeToBytes = .ok value := by
  have encodes : (StoredRLP.berlin plainCall).encodeToBytes.toOption.isSome = true := by decide +kernel
  exact Machine.toOption_isSome encodes

theorem iterates_single (block tx : Uint64) (value : Bytes) :
    (SubstateDB.write ⟨.empty⟩ (.put (stage1SubstateKey block tx) value)).Iterates block
      [stage1SubstateKey block tx] := by
  constructor
  · exact List.nodup_singleton _
  · intro key
    simp only [List.mem_singleton, SubstateDB.write, Go.Map.keys_set, Go.Map.keys_empty, Finset.mem_insert,
      Finset.notMem_empty, or_false]
    constructor
    · rintro rfl
      exact ⟨rfl, blockPrefix_substateKey block tx⟩
    · rintro ⟨same, -⟩
      exact same

theorem keepsBerlin_plainCall :
    ∃ value, (StoredRLP.berlin plainCall).encodeToBytes = .ok value ∧
      (SubstateDB.write ⟨.empty⟩ (.put (stage1SubstateKey 12244000 0) value)).KeepsBerlin (fun _ => emptyCodeHash)
        [stage1SubstateKey 12244000 0] 12244000 0 plainCall := by
  obtain ⟨value, encoded⟩ := plainCall_encodes
  refine ⟨value, encoded, ?_⟩
  refine (keepsBerlin_iff encoded (iterates_single 12244000 0 value) ?_).mpr ⟨rfl, ⟨?_, ?_⟩, ⟨?_, ?_⟩, ?_⟩
  · intro key member different
    exact absurd (List.mem_singleton.mp member) different
  · decide
  · intro account member
    cases List.mem_singleton.mp member
    exact .inl rfl
  · decide
  · intro account member
    cases List.mem_singleton.mp member
    exact .inl rfl
  · intro creation
    cases creation

/-- A call recorded with one address and one storage key in its access list is
    replayed without them, for 4300 gas less. -/
theorem berlin_accessList_dropped :
    ∃ value substate, (StoredRLP.berlin berlinCall).encodeToBytes = .ok value ∧
      (SubstateDB.write ⟨.empty⟩ (.put (stage1SubstateKey 12244000 0) value)).getSubstate (fun _ => emptyCodeHash)
        12244000 0 = .ok substate ∧
      ¬ berlinCall.message.Kept
        ((SubstateDB.write ⟨.empty⟩ (.put (stage1SubstateKey 12244000 0) value)).getCode fun _ => emptyCodeHash)
        substate.message ∧
      substate.message.accessList = [] ∧ berlinCall.message.accessList = [⟨1, [3]⟩] ∧
      Core.intrinsicGas substate.message.data substate.message.accessList false true true = .ok 21032 ∧
      Core.intrinsicGas berlinCall.message.data berlinCall.message.accessList false true true = .ok 25332 := by
  obtain ⟨value, encoded⟩ := berlinCall_encodes
  have read := getSubstate_stored (fun _ => emptyCodeHash) ⟨.empty⟩ 12244000 0 encoded
  obtain ⟨substate, set⟩ : ∃ substate, Substate.setRLP (SubstateDB.getCode (fun _ => emptyCodeHash) ⟨.empty⟩)
      (StoredRLP.berlin berlinCall).current.var = .ok substate := ⟨_, rfl⟩
  have message := (setRLP_ok_iff.mp set).2.2.1
  have fields : substate.message = ⟨0, true, 10, 100000, 4, some 1, 0, [1, 2], none, [], 10, 10⟩ :=
    (Except.ok.inj message).symm
  refine ⟨value, substate, encoded, read.trans set, ?_, ?_, rfl, ?_, by decide +kernel⟩
  · rw [SubstateDB.getCode_putSubstate]
    intro kept
    cases (setBerlinRLP_kept_iff message).mp kept
  · rw [fields]
  · rw [fields]
    decide +kernel

end IDWDetector
