import IDWDetector.Research.SubstateJson
import IDWDetector.Research.Writing

namespace IDWDetector

open Go Machine

variable {s : Substate} {substateJSON : SubstateJSON} {t : Substate} {receiver : SubstatePointers}

structure Log.Indexed (l : Log) : Prop where
  natural : 0 ≤ l.txIndex
  txIndex : l.txIndex < 2 ^ 64
  index : l.index < 2 ^ 64

/-- The substates whose numbers the JSON text can hold. -/
structure Substate.Legible (s : Substate) : Prop extends s.WellFormed where
  logs : ∀ l ∈ s.result.logs, l.Indexed

theorem accountJSON_valid_iff (sa : SubstateAccount) :
    SubstateAccountJSON.codec.valid (newSubstateAccountJSON sa) ↔ IsWord sa.balance := by
  constructor
  · intro valid
    exact valid.2.2.1 sa.balance rfl
  · intro fits
    refine ⟨trivial, fun _ _ _ => trivial, ?_, trivial, trivial⟩
    rintro balance ⟨⟩
    exact fits

theorem envJSON_valid_iff (env : SubstateEnv) :
    SubstateEnvJSON.codec.valid (newSubstateEnvJSON env) ↔
      IsWord env.difficulty ∧ ∀ fee, env.baseFee = some fee → IsWord fee := by
  constructor
  · intro valid
    exact ⟨valid.2.1 env.difficulty rfl, valid.2.2.2.2.2.2.1⟩
  · rintro ⟨difficulty, baseFee⟩
    refine ⟨trivial, ?_, trivial, trivial, trivial, fun _ _ _ => trivial, baseFee, trivial⟩
    rintro _ ⟨⟩
    exact difficulty

theorem messageJSON_valid_iff (msg : SubstateMessage) :
    SubstateMessageJSON.codec.valid (newSubstateMessageJSON msg) ↔
      IsWord msg.gasPrice ∧ IsWord msg.value ∧ IsWord msg.gasFeeCap ∧ IsWord msg.gasTipCap := by
  constructor
  · rintro ⟨-, -, gasPrice, -, -, -, value, -, -, gasFeeCap, gasTipCap, -⟩
    exact ⟨gasPrice _ rfl, value _ rfl, gasFeeCap _ rfl, gasTipCap _ rfl⟩
  · rintro ⟨gasPrice, value, gasFeeCap, gasTipCap⟩
    have known {i : Int} (fits : IsWord i) : ∀ j, some i = some j → IsWord j := by
      rintro _ ⟨⟩
      exact fits
    exact ⟨trivial, trivial, known gasPrice, trivial, trivial, fun _ _ => trivial, known value, trivial,
      fun _ _ => ⟨trivial, fun _ _ => trivial, trivial⟩, known gasFeeCap, known gasTipCap, trivial⟩

theorem resultJSON_valid (result : SubstateResult) : SubstateResultJSON.codec.valid (newSubstateResultJSON result) :=
  ⟨trivial, trivial, fun _ _ => ⟨trivial, fun _ _ => trivial, trivial, trivial, trivial, trivial, trivial, trivial,
    trivial, trivial⟩, trivial, trivial, trivial⟩

theorem allocJSON_roundTrip {alloc back : SubstateAlloc} :
    (∃ allocJSON, newSubstateAllocJSON alloc = .ok allocJSON ∧ SubstateAllocJSON.codec.valid allocJSON ∧
      SubstateAlloc.setJSON allocJSON = .ok back) ↔ alloc.WellFormed ∧ back = alloc := by
  have restored : ((alloc.mapValues fun _ account => account.bind fun sa => some (newSubstateAccountJSON sa)).mapValues
      fun _ account => account.bind fun saJSON => (SubstateAccount.setJSON saJSON).toOption) = alloc := by
    ext1 addr
    rw [Map.lookup_mapValues, Map.lookup_mapValues]
    rcases alloc.lookup addr with _ | _ | sa
    all_goals rfl
  have listed {addr : Address} {account : Option SubstateAccount} (found : alloc.lookup addr = some account) :
      (alloc.mapValues fun _ account => account.bind fun sa => some (newSubstateAccountJSON sa)).lookup addr =
        some (account.bind fun sa => some (newSubstateAccountJSON sa)) := by
    rw [Map.lookup_mapValues, found]
    rfl
  constructor
  · rintro ⟨allocJSON, made, valid, set⟩
    obtain ⟨complete, rfl⟩ := convertAccounts_ok.mp made
    obtain ⟨-, rfl⟩ := convertAccounts_ok.mp set
    refine ⟨⟨fun addr found => complete addr none found rfl, ?_⟩, restored⟩
    intro addr sa found
    exact (accountJSON_valid_iff sa).mp (valid addr _ (listed found) _ rfl)
  · rintro ⟨wellFormed, rfl⟩
    have present {addr : Address} {account : Option SubstateAccount} (found : back.lookup addr = some account) :
        ∃ sa, account = some sa := by
      rw [← Option.ne_none_iff_exists']
      rintro rfl
      exact wellFormed.nonNil addr found
    refine ⟨_, convertAccounts_ok.mpr ⟨?_, rfl⟩, ?_, convertAccounts_ok.mpr ⟨?_, restored⟩⟩
    · intro addr account found
      obtain ⟨sa, rfl⟩ := present found
      exact nofun
    · intro addr accountJSON found saJSON same
      rw [Map.lookup_mapValues] at found
      obtain ⟨account, held, rfl⟩ := Option.map_eq_some_iff.mp found
      obtain ⟨sa, rfl⟩ := present held
      cases same
      exact (accountJSON_valid_iff sa).mpr (wellFormed.balance addr sa held)
    · intro addr accountJSON found
      rw [Map.lookup_mapValues] at found
      obtain ⟨account, held, rfl⟩ := Option.map_eq_some_iff.mp found
      obtain ⟨sa, rfl⟩ := present held
      exact nofun

theorem envJSON_set_iff (env : SubstateEnv) :
    SubstateEnv.setJSON (newSubstateEnvJSON env) = .ok env ↔ ∃ fee, env.baseFee = some fee ∧ fee ≠ 0 := by
  obtain ⟨coinbase, difficulty, gasLimit, number, timestamp, blockHashes, baseFee⟩ := env
  have copied : ((blockHashes.mapValues fun _ bhash => bhash).mapValues fun _ bhash => bhash) = blockHashes := by
    ext1 num64
    simp
  cases baseFee with
  | none => exact ⟨nofun, nofun⟩
  | some fee =>
    show Except.ok (SubstateEnv.mk _ _ _ _ _ _ _) = .ok _ ↔ _
    simp [copied, newSubstateEnvJSON]

theorem messageJSON_set_iff (receiver msg : SubstateMessage) :
    receiver.setJSON (newSubstateMessageJSON msg) = .ok { msg with dataHash := receiver.dataHash } ↔
      (msg.gasFeeCap = 0 → msg.gasPrice = 0) ∧ (msg.gasTipCap = 0 → msg.gasPrice = 0) := by
  have capped (cap : Int) : (if cap = 0 then msg.gasPrice else cap) = cap ↔ (cap = 0 → msg.gasPrice = 0) := by
    split
    · rename_i zero
      simp [zero]
    · rename_i nonzero
      simp [nonzero]
  rw [← capped, ← capped]
  show Except.ok (SubstateMessage.mk _ _ _ _ _ _ _ _ _ _ _ _) = .ok _ ↔ _
  simp [newSubstateMessageJSON]

theorem logJSON_roundTrip (l : Log) : Log.ofJSON (newLogJSON l) = l ↔ l.Indexed := by
  obtain ⟨address, topics, data, blockNumber, txHash, txIndex, blockHash, index, removed⟩ := l
  have txIndices : ((BitVec.ofInt 64 txIndex).toNat : Int) = txIndex ↔ 0 ≤ txIndex ∧ txIndex < 2 ^ 64 := by
    rw [BitVec.toNat_ofInt]
    omega
  have indices : (BitVec.ofNat 64 index).toNat = index ↔ index < 2 ^ 64 := by
    rw [BitVec.toNat_ofNat]
    omega
  constructor
  · intro same
    obtain ⟨natural, small⟩ := txIndices.mp (congrArg Log.txIndex same)
    exact ⟨natural, small, indices.mp (congrArg Log.index same)⟩
  · intro indexed
    rw [newLogJSON, Log.ofJSON, txIndices.mpr ⟨indexed.natural, indexed.txIndex⟩, indices.mpr indexed.index]

theorem resultJSON_set_iff (result : SubstateResult) :
    SubstateResult.setJSON (newSubstateResultJSON result) = result ↔ ∀ l ∈ result.logs, l.Indexed := by
  obtain ⟨status, bloom, logs, contractAddress, gasUsed⟩ := result
  have same : (logs.map newLogJSON).map Log.ofJSON = logs ↔ ∀ l ∈ logs, l.Indexed := by
    nth_rewrite 2 [← List.map_id logs]
    rw [List.map_map, List.map_inj_left]
    exact forall₂_congr fun l _ => logJSON_roundTrip l
  rw [← same]
  simp [SubstateResult.setJSON, newSubstateResultJSON]

theorem unmarshalJSON_of_valid (valid : SubstateJSON.codec.valid substateJSON) (receiver : SubstatePointers) :
    receiver.unmarshalJSON (SubstateJSON.codec.marshal substateJSON) =
      (receiver.setJSON substateJSON).mapError .panicked := by
  rw [SubstatePointers.unmarshalJSON, Json.Codec.unmarshal_marshal.mpr ⟨valid, rfl⟩]
  cases set : receiver.setJSON substateJSON with
  | error panic => simp only [set, Except.mapError]
  | ok read => simp only [set, Except.mapError]

theorem unmarshalJSON_marshal :
    receiver.unmarshalJSON (SubstateJSON.codec.marshal substateJSON) = .ok t ↔
      SubstateJSON.codec.valid substateJSON ∧ receiver.setJSON substateJSON = .ok t := by
  constructor
  · intro read
    rw [SubstatePointers.unmarshalJSON] at read
    split at read
    · cases read
    rename_i decoded unmarshalled
    obtain ⟨valid, rfl⟩ := Json.Codec.unmarshal_marshal.mp unmarshalled
    split at read
    · cases read
    · rename_i set
      exact ⟨valid, set.trans (congrArg _ (Except.ok.inj read))⟩
  · rintro ⟨valid, set⟩
    rw [unmarshalJSON_of_valid valid, set]
    rfl

theorem deref_ok {α : Type} {a : Option α} {b : α} : deref a = .ok b ↔ a = some b := by
  cases a with
  | none => exact ⟨nofun, nofun⟩
  | some a => exact ⟨fun same => congrArg some (Except.ok.inj same), fun same => congrArg _ (Option.some.inj same)⟩

def Substate.jsonWith (s : Substate) (inputAlloc outputAlloc : SubstateAllocJSON) : SubstateJSON where
  inputAlloc := inputAlloc
  outputAlloc := outputAlloc
  env := some (newSubstateEnvJSON s.env)
  message := some (newSubstateMessageJSON s.message)
  result := some (newSubstateResultJSON s.result)

theorem marshalJSON_ok {b : Bytes} :
    s.marshalJSON = .ok b ↔ ∃ inputAlloc outputAlloc, newSubstateAllocJSON s.inputAlloc = .ok inputAlloc ∧
      newSubstateAllocJSON s.outputAlloc = .ok outputAlloc ∧
      b = SubstateJSON.codec.marshal (s.jsonWith inputAlloc outputAlloc) := by
  constructor
  · intro marshalled
    obtain ⟨substateJSON, made, result⟩ := bind_ok.mp marshalled
    obtain ⟨inputAlloc, input, made⟩ := bind_ok.mp made
    obtain ⟨outputAlloc, output, made⟩ := bind_ok.mp made
    cases made
    cases result
    exact ⟨inputAlloc, outputAlloc, input, output, rfl⟩
  · rintro ⟨inputAlloc, outputAlloc, input, output, rfl⟩
    rw [Substate.marshalJSON, newSubstateJSON, input, output]
    rfl

theorem Substate.Legible.marshalled (legible : s.Legible) :
    ∃ inputAlloc outputAlloc, s.marshalJSON = .ok (SubstateJSON.codec.marshal (s.jsonWith inputAlloc outputAlloc)) ∧
      SubstateJSON.codec.valid (s.jsonWith inputAlloc outputAlloc) ∧
      SubstateAlloc.setJSON inputAlloc = .ok s.inputAlloc ∧ SubstateAlloc.setJSON outputAlloc = .ok s.outputAlloc := by
  obtain ⟨inputAlloc, madeInput, validInput, input⟩ := allocJSON_roundTrip.mpr ⟨legible.inputAlloc, rfl⟩
  obtain ⟨outputAlloc, madeOutput, validOutput, output⟩ := allocJSON_roundTrip.mpr ⟨legible.outputAlloc, rfl⟩
  refine ⟨inputAlloc, outputAlloc, marshalJSON_ok.mpr ⟨inputAlloc, outputAlloc, madeInput, madeOutput, rfl⟩,
    ⟨validInput, validOutput, ?_, ?_, ?_, trivial⟩, input, output⟩
  · rintro _ ⟨⟩
    exact (envJSON_valid_iff s.env).mpr ⟨legible.difficulty, legible.baseFee⟩
  · rintro _ ⟨⟩
    exact (messageJSON_valid_iff s.message).mpr ⟨legible.gasPrice, legible.value, legible.gasFeeCap, legible.gasTipCap⟩
  · rintro _ ⟨⟩
    exact resultJSON_valid s.result

theorem setJSON_ok {inputAlloc outputAlloc : SubstateAllocJSON} :
    receiver.setJSON (s.jsonWith inputAlloc outputAlloc) = .ok t ↔
      SubstateAlloc.setJSON inputAlloc = .ok t.inputAlloc ∧ SubstateAlloc.setJSON outputAlloc = .ok t.outputAlloc ∧
      receiver.env.isSome ∧ SubstateEnv.setJSON (newSubstateEnvJSON s.env) = .ok t.env ∧
      (∃ msg, receiver.message = some msg ∧ msg.setJSON (newSubstateMessageJSON s.message) = .ok t.message) ∧
      receiver.result.isSome ∧ SubstateResult.setJSON (newSubstateResultJSON s.result) = t.result := by
  constructor
  · intro set
    obtain ⟨_, input, set⟩ := bind_ok.mp set
    obtain ⟨_, output, set⟩ := bind_ok.mp set
    obtain ⟨_, hasEnv, set⟩ := bind_ok.mp set
    obtain ⟨_, ⟨⟩, set⟩ := bind_ok.mp set
    obtain ⟨_, env, set⟩ := bind_ok.mp set
    obtain ⟨msg, hasMessage, set⟩ := bind_ok.mp set
    obtain ⟨_, ⟨⟩, set⟩ := bind_ok.mp set
    obtain ⟨_, message, set⟩ := bind_ok.mp set
    obtain ⟨_, hasResult, set⟩ := bind_ok.mp set
    cases set
    exact ⟨input, output, Option.isSome_of_eq_some (deref_ok.mp hasEnv), env, ⟨msg, deref_ok.mp hasMessage, message⟩,
      Option.isSome_of_eq_some (deref_ok.mp hasResult), rfl⟩
  · rintro ⟨input, output, hasEnv, env, ⟨msg, hasMessage, message⟩, hasResult, result⟩
    obtain ⟨target, hasEnv⟩ := Option.isSome_iff_exists.mp hasEnv
    obtain ⟨outcome, hasResult⟩ := Option.isSome_iff_exists.mp hasResult
    have derefs {α : Type} (a : α) : deref (some a) = .ok a := rfl
    rw [SubstatePointers.setJSON, Substate.jsonWith, input, output, hasEnv, hasMessage, hasResult]
    simp only [derefs, env, message, result, Bind.bind, Except.bind]

/-- A substate is read back exactly when nothing it is read into is nil, its numbers fit, and neither a zero base
    fee nor a zero fee cap is lost. -/
theorem unmarshalJSON_marshalJSON_iff (receiver : SubstatePointers) (s : Substate) :
    (∃ b, s.marshalJSON = .ok b ∧ receiver.unmarshalJSON b =
      .ok { s with message := { s.message with dataHash := receiver.message.bind SubstateMessage.dataHash } }) ↔
    (receiver.env.isSome ∧ receiver.message.isSome ∧ receiver.result.isSome) ∧ s.Legible ∧
      (∃ fee, s.env.baseFee = some fee ∧ fee ≠ 0) ∧
      (s.message.gasFeeCap = 0 → s.message.gasPrice = 0) ∧ (s.message.gasTipCap = 0 → s.message.gasPrice = 0) := by
  constructor
  · rintro ⟨b, marshalled, read⟩
    obtain ⟨inputAlloc, outputAlloc, madeInput, madeOutput, rfl⟩ := marshalJSON_ok.mp marshalled
    obtain ⟨⟨validInput, validOutput, validEnv, validMessage, -⟩, set⟩ := unmarshalJSON_marshal.mp read
    obtain ⟨input, output, hasEnv, env, ⟨msg, hasMessage, message⟩, hasResult, result⟩ := setJSON_ok.mp set
    obtain ⟨wellFormedInput, -⟩ := allocJSON_roundTrip.mp ⟨_, madeInput, validInput, input⟩
    obtain ⟨wellFormedOutput, -⟩ := allocJSON_roundTrip.mp ⟨_, madeOutput, validOutput, output⟩
    obtain ⟨difficulty, baseFee⟩ := (envJSON_valid_iff s.env).mp (validEnv _ rfl)
    obtain ⟨gasPrice, value, gasFeeCap, gasTipCap⟩ := (messageJSON_valid_iff s.message).mp (validMessage _ rfl)
    have logs := (resultJSON_set_iff s.result).mp result
    rw [hasMessage] at message
    exact ⟨⟨hasEnv, Option.isSome_of_eq_some hasMessage, hasResult⟩,
      ⟨⟨wellFormedInput, wellFormedOutput, difficulty, baseFee, gasPrice, value, gasFeeCap, gasTipCap⟩, logs⟩,
      (envJSON_set_iff s.env).mp env, (messageJSON_set_iff msg s.message).mp message⟩
  · rintro ⟨⟨hasEnv, hasMessage, hasResult⟩, legible, baseFee, caps⟩
    obtain ⟨msg, hasMessage⟩ := Option.isSome_iff_exists.mp hasMessage
    obtain ⟨inputAlloc, outputAlloc, marshalled, valid, input, output⟩ := legible.marshalled
    refine ⟨_, marshalled, unmarshalJSON_marshal.mpr ⟨valid, setJSON_ok.mpr ?_⟩⟩
    refine ⟨input, output, hasEnv, (envJSON_set_iff s.env).mpr baseFee, ⟨msg, hasMessage, ?_⟩, hasResult,
      (resultJSON_set_iff s.result).mpr legible.logs⟩
    rw [hasMessage]
    exact (messageJSON_set_iff msg s.message).mpr caps

def Substate.pointers (s : Substate) : SubstatePointers := ⟨some s.env, some s.message, some s.result⟩

def legacyCreation : Substate := { stopCreation with env := { stopCreation.env with baseFee := none } }

def uncappedCreation : Substate := { stopCreation with message := { stopCreation.message with gasFeeCap := 0 } }

theorem stopCreation_legible : stopCreation.Legible :=
  { stopCreation_wellFormed with
    logs := by
      intro l member
      cases List.mem_singleton.mp member
      exact ⟨by decide, by decide, by decide⟩ }

theorem legacyCreation_legible : legacyCreation.Legible :=
  { stopCreation_legible with baseFee := nofun }

theorem uncappedCreation_legible : uncappedCreation.Legible :=
  { stopCreation_legible with gasFeeCap := ⟨by decide, by decide⟩ }

theorem creations_not_read_back :
    (∃ b, stopCreation.marshalJSON = .ok b ∧
      SubstatePointers.zero.unmarshalJSON b = .error (.panicked .nilDereference)) ∧
    (∃ b, legacyCreation.marshalJSON = .ok b ∧
      legacyCreation.pointers.unmarshalJSON b = .error (.panicked .nilDereference)) ∧
    (∃ b, uncappedCreation.marshalJSON = .ok b ∧ uncappedCreation.pointers.unmarshalJSON b = .ok stopCreation ∧
      stopCreation.message.gasFeeCap ≠ uncappedCreation.message.gasFeeCap) := by
  refine ⟨?_, ?_, ?_⟩
  · obtain ⟨inputAlloc, outputAlloc, marshalled, valid, input, output⟩ := stopCreation_legible.marshalled
    refine ⟨_, marshalled, ?_⟩
    rw [unmarshalJSON_of_valid valid, SubstatePointers.setJSON, Substate.jsonWith, input, output]
    rfl
  · obtain ⟨inputAlloc, outputAlloc, marshalled, valid, input, output⟩ := legacyCreation_legible.marshalled
    refine ⟨_, marshalled, ?_⟩
    rw [unmarshalJSON_of_valid valid, SubstatePointers.setJSON, Substate.jsonWith, input, output]
    rfl
  · obtain ⟨inputAlloc, outputAlloc, marshalled, valid, input, output⟩ := uncappedCreation_legible.marshalled
    refine ⟨_, marshalled, unmarshalJSON_marshal.mpr ⟨valid, setJSON_ok.mpr ?_⟩, by decide⟩
    exact ⟨input, output, rfl, (envJSON_set_iff stopCreation.env).mpr ⟨100, rfl, by decide⟩, ⟨_, rfl, rfl⟩, rfl,
      (resultJSON_set_iff stopCreation.result).mpr stopCreation_legible.logs⟩

end IDWDetector
