import IDWDetector.Hunter.Collectors
import IDWDetector.Hunter.History
import IDWDetector.Research.Equality
import IDWDetector.Research.JsonRoundTrip

namespace IDWDetector

def SubstateAlloc.marshalJSON (alloc : SubstateAlloc) : Except Panic Bytes := do
  let allocJSON ← newSubstateAllocJSON alloc
  .ok (SubstateAllocJSON.codec.marshal allocJSON)

def SubstateAlloc.unmarshalJSON (b : Bytes) : Except JsonFailure SubstateAlloc :=
  match SubstateAllocJSON.codec.unmarshal b with
  | .error err => .error (.returned err)
  | .ok allocJSON => (SubstateAlloc.setJSON allocJSON).mapError .panicked

theorem SubstateAlloc.WellFormed.marshalled {alloc : SubstateAlloc} (wellFormed : alloc.WellFormed) :
    ∃ b, alloc.marshalJSON = .ok b ∧ SubstateAlloc.unmarshalJSON b = .ok alloc := by
  obtain ⟨allocJSON, made, valid, set⟩ := allocJSON_roundTrip.mpr ⟨wellFormed, rfl⟩
  refine ⟨SubstateAllocJSON.codec.marshal allocJSON, ?_, ?_⟩
  · rw [SubstateAlloc.marshalJSON, made]
    rfl
  · rw [SubstateAlloc.unmarshalJSON, Json.Codec.unmarshal_marshal.mpr ⟨valid, rfl⟩]
    simp only [set, Except.mapError]

end IDWDetector

namespace IDWDetector.Hunter

open Vm

/-- The files in the directories `statedb/output` of the dapps, by dapp and name. -/
abbrev EnvFiles := Go.Map (String × Bytes) Bytes

/-- The writes of `CollectEnv`: every dapp gets the same text, which is only made where there is a dapp. -/
def EnvCollector.writeAllocs (maps : DappMaps) (dumpBool : Bool) (inTxs : List InternalTx) (name : Bytes)
    (outputAlloc : SubstateAlloc) (files : EnvFiles) : Except Panic EnvFiles :=
  let dapps := EnvCollector.collectEnv maps dumpBool inTxs
  if dapps = ∅ then .ok files
  else do
    let b ← outputAlloc.marshalJSON
    .ok (files.overwrite (dapps.image fun dapp => (dapp, name)) fun _ => some b)

/-- The errors are only printed, and leave a nil alloc. -/
def loadAlloc (files : EnvFiles) (path : String × Bytes) : Except Panic SubstateAlloc :=
  match SubstateAlloc.unmarshalJSON (files.getD path []) with
  | .ok alloc => .ok alloc
  | .error (.returned _) => .ok .empty
  | .error (.panicked panic) => .error panic

/-- Every alloc that `CollectEnv` writes is read back. -/
theorem loadAlloc_writeAllocs {alloc : SubstateAlloc} (wellFormed : alloc.WellFormed) (maps : DappMaps)
    (inTxs : List InternalTx) (record : Nat ×ₗ Nat) (files : EnvFiles) :
    ∃ written, EnvCollector.writeAllocs maps true inTxs (recordName record) alloc files = .ok written ∧
      ∀ dapp ∈ EnvCollector.collectEnv maps true inTxs, ∃ back,
        loadAlloc written (dapp, recordName record) = .ok back ∧ SubstateAlloc.equal back alloc = true := by
  obtain ⟨b, marshalled, unmarshalled⟩ := wellFormed.marshalled
  rw [EnvCollector.writeAllocs]
  split
  · rename_i none
    refine ⟨files, rfl, fun dapp member => ?_⟩
    rw [none] at member
    cases member
  · rw [marshalled]
    refine ⟨_, rfl, fun dapp member => ⟨alloc, ?_, SubstateAlloc.equal_refl alloc⟩⟩
    have written : (dapp, recordName record) ∈
        (EnvCollector.collectEnv maps true inTxs).image fun dapp => (dapp, recordName record) :=
      Finset.mem_image_of_mem _ member
    rw [loadAlloc, Go.Map.getD, Go.Map.lookup_overwrite, if_pos written, Option.getD_some, unmarshalled]

/-- The alloc of a creation, written for the dapp whose proxy the transaction calls. -/
theorem loadAlloc_stopCreation :
    "dapp" ∈ EnvCollector.collectEnv ⟨Go.Map.empty.set 0xa0 "dapp", .empty⟩ true
      [{ fromAddr := 1, toAddr := 0xa0, callType := .call }] ∧
    ∃ written, EnvCollector.writeAllocs ⟨Go.Map.empty.set 0xa0 "dapp", .empty⟩ true
        [{ fromAddr := 1, toAddr := 0xa0, callType := .call }] (recordName (toLex (5, 0))) stopCreation.outputAlloc
        .empty = .ok written ∧
      ∃ back, loadAlloc written ("dapp", recordName (toLex (5, 0))) = .ok back ∧
        SubstateAlloc.equal back stopCreation.outputAlloc = true := by
  have dumped : "dapp" ∈ EnvCollector.collectEnv ⟨Go.Map.empty.set 0xa0 "dapp", .empty⟩ true
      [{ fromAddr := 1, toAddr := 0xa0, callType := .call }] := by decide +kernel
  obtain ⟨written, wrote, reads⟩ := loadAlloc_writeAllocs stopCreation_wellFormed.outputAlloc _ _ _ _
  exact ⟨dumped, written, wrote, reads "dapp" dumped⟩

end IDWDetector.Hunter
