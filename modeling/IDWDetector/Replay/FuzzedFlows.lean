import IDWDetector.Replay.Fuzzing

namespace IDWDetector.Replay

open Vm Hunter Go Machine

section Ordered

variable (initial z : TxExtractor)

end Ordered

namespace TestTask

variable (task : TestTask)

/-- An extractor as it may be right after the initialisation. -/
def Starts (initial : TxExtractor) : Prop :=
  ∃ addresses infoOrder x, task.history addresses = .ok x ∧ Map.Enumerates addresses x.addressCountMap ∧
    Map.Enumerates infoOrder x.actionInfoList ∧ task.initialised addresses infoOrder = .ok initial

end TestTask

section Keeping

variable {World Message : Type} {evm : Interpreter World Message} {classify : Address → Bytes → Action}
  {number : Uint64} {initial z : TxExtractor} {s after : FuzzState World Message} {messages : List Message}
  {infoOrder : List Nat}

/-- What no epoch changes in an extractor. -/
structure Kept (initial x : TxExtractor) : Prop where
  proxyABI : x.proxyABI = initial.proxyABI
  commonAddressMap : x.commonAddressMap = initial.commonAddressMap
  relatedToken : x.relatedToken.isSome = initial.relatedToken.isSome
  stableTokenMap : x.stableTokenMap = initial.stableTokenMap
  tokenSwapMap : x.tokenSwapMap = initial.tokenSwapMap

theorem Kept.fuzzMessages (kept : Kept initial s.extractor)
    (ran : fuzzMessages evm classify number initial s messages = .ok after) : Kept initial after.extractor := by
  obtain ⟨infos, -, -, whole⟩ := fuzzMessages_ok ran
  rw [whole, foldl_addAction_eq]
  exact ⟨kept.proxyABI, kept.commonAddressMap, kept.relatedToken, kept.stableTokenMap, kept.tokenSwapMap⟩

theorem Kept.extractActionInfoList {x : TxExtractor} (kept : Kept initial x)
    (extracted : x.extractActionInfoList infoOrder = .ok z) : Kept initial z := by
  obtain ⟨frame, made⟩ := TxExtractor.extractActionInfoList_frame extracted
  rw [frame]
  exact ⟨kept.proxyABI, kept.commonAddressMap, made.trans kept.relatedToken, kept.stableTokenMap, kept.tokenSwapMap⟩

theorem Kept.fuzzEpochs {world : World} {epochs : List (Epoch Message)}
    (ran : fuzzEpochs evm classify number initial world epochs = .ok s) : Kept initial s.extractor := by
  refine foldlM_kept (fun s : FuzzState World Message => Kept initial s.extractor) ?_ ⟨rfl, rfl, rfl, rfl, rfl⟩ ran
  intro s epoch after kept ran
  obtain ⟨middle, messages, rest⟩ := bind_ok.mp ran
  obtain ⟨z, extracted, same⟩ := bind_ok.mp rest
  cases same
  exact (kept.fuzzMessages messages).extractActionInfoList extracted

end Keeping

end IDWDetector.Replay
