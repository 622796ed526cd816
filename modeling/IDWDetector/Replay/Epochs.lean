import IDWDetector.Hunter.Generation
import IDWDetector.Replay.FuzzedFlows

namespace IDWDetector.Replay

open Vm Hunter Machine

def userTokenAttackMap (run : Run) (users : List Address) (z : TxExtractor) : Go.Map Address TokenAttackMap :=
  users.foldl (fun attacks user =>
    let (tokenAttackMap, isAttack) :=
      z.checkAttack (run.tokens user) (run.arrangements user) (z.generateUserFlow run.sort run.order) user
    if isAttack then attacks.set user tokenAttackMap else attacks) .empty

/-- The users whom an epoch may report, after its messages. -/
def Reports {World Message : Type} (after : FuzzState World Message) (attackers : Finset Address) : Prop :=
  ∃ (run : Run) (users : List Address) (z : TxExtractor), run.Fits after.extractor ∧
    after.extractor.extractActionInfoList run.infoOrder = .ok z ∧
    Go.Map.Enumerates users (z.generateUserFlow run.sort run.order) ∧ (userTokenAttackMap run users z).keys = attackers

/-- Two extractors differ only in what no attack map depends on. -/
def Alike (x y : TxExtractor) : Prop :=
  ∃ counts related mode, x = { y with addressCountMap := counts, relatedToken := related, flowMergeMode := mode } ∧
    related.isSome = y.relatedToken.isSome

section Independence

variable {World Message : Type} (evm : Interpreter World Message) (initial : TxExtractor) (world : World)

/-- What earlier epochs left is not seen by an epoch: its messages succeed and call as from the world at the start,
    and no token of the application was added. -/
structure Undisturbed (s : FuzzState World Message) (epoch : Epoch Message) : Prop where
  trees : evm.trees s.world epoch.messages.zipIdx = evm.trees world epoch.messages.zipIdx
  tokens : s.extractor.lpTokenMap = initial.lpTokenMap

/-- Two epochs find the same attacks and record the same messages. -/
def SameVerdict (epoch : Epoch Message) (after alone : FuzzState World Message) : Prop :=
  userTokenAttackMap epoch.run epoch.users after.extractor = userTokenAttackMap epoch.run epoch.users alone.extractor ∧
    after.recordMsgList = alone.recordMsgList

end Independence

theorem Kept.alike {initial x : TxExtractor} (kept : Kept initial x) (tokens : x.lpTokenMap = initial.lpTokenMap) :
    Alike (restart initial x) (restart initial initial) := by
  refine ⟨x.addressCountMap, x.relatedToken, x.flowMergeMode, ?_, kept.relatedToken⟩
  simp only [restart, kept.proxyABI, kept.commonAddressMap, kept.stableTokenMap, kept.tokenSwapMap, tokens]

section Agreeing

variable {x y : TxExtractor} (alike : Alike x y)
include alike

theorem Alike.extractMessage (classify : Address → Bytes → Action) (exTx : ExternalTx) :
    Both Alike (extractMessage classify x exTx) (extractMessage classify y exTx) := by
  obtain ⟨counts, related, mode, rfl, made⟩ := alike
  rw [extractMessage_eq, extractMessage_eq]
  cases actionsOf classify y.proxyABI exTx with
  | error panic => trivial
  | ok infos =>
    cases stakesOf exTx with
    | error panic => trivial
    | ok stakes =>
      show Alike (stakes.foldl applyStake _) (stakes.foldl applyStake _)
      simp only [foldl_applyStake_eq, foldl_addAction_eq]
      exact ⟨_, _, _, rfl, made⟩

theorem Alike.extractActionInfoList (infoOrder : List Nat) :
    Both Alike (x.extractActionInfoList infoOrder) (y.extractActionInfoList infoOrder) := by
  obtain ⟨counts, related, mode, rfl, made⟩ := alike
  have steady : Steady y.relatedToken.isSome y.lpTokenMap y.commonAddressMap y := ⟨rfl, rfl, rfl⟩
  rw [extractActionInfoList_eq steady, extractActionInfoList_eq ⟨made, rfl, rfl⟩]
  cases gather (effectsOf y.relatedToken.isSome y.lpTokenMap y.commonAddressMap)
      (infoOrder.filterMap y.actionInfoList.lookup) with
  | error panic => trivial
  | ok effects =>
    show Alike { effects.foldl applyEffect _ with flowMergeMode := _ }
      { effects.foldl applyEffect _ with flowMergeMode := _ }
    simp only [foldl_applyEffect_eq]
    refine ⟨_, _, _, rfl, ?_⟩
    rw [Option.isSome_map, Option.isSome_map, made]

theorem Alike.userTokenAttackMap (run : Run) (users : List Address) :
    userTokenAttackMap run users x = userTokenAttackMap run users y := by
  obtain ⟨counts, related, mode, rfl, made⟩ := alike
  rfl

end Agreeing

section Epochs

variable {World Message : Type} {evm : Interpreter World Message} {classify : Address → Bytes → Action}
  {number : Uint64} {initial : TxExtractor} {world : World} {s : FuzzState World Message} {epoch : Epoch Message}

theorem Undisturbed.fuzzMessages (undisturbed : Undisturbed evm initial world s epoch)
    (kept : Kept initial s.extractor) :
    Both (fun after alone => Alike after.extractor alone.extractor ∧ after.recordMsgList = alone.recordMsgList)
      (fuzzMessages evm classify number initial s epoch.messages)
      (fuzzMessages evm classify number initial ⟨world, initial, []⟩ epoch.messages) := by
  rw [fuzzMessages_eq, fuzzMessages_eq, Interpreter.fuzzTxs, Interpreter.fuzzTxs, undisturbed.trees]
  refine (Both.foldlM (fun _ _ exTx alike => Alike.extractMessage alike classify exTx)
    (kept.alike undisturbed.tokens) _).map fun x y alike => ?_
  exact ⟨alike, rfl⟩

/-- An epoch that does not see what earlier ones left panics, or finds and records what it would on its own. -/
theorem epochs_independent (evm : Interpreter World Message) (classify : Address → Bytes → Action) (number : Uint64)
    (initial : TxExtractor) (world : World) (epochs : List (Epoch Message)) (s : FuzzState World Message)
    (ran : fuzzEpochs evm classify number initial world epochs = .ok s) (epoch : Epoch Message)
    (undisturbed : Undisturbed evm initial world s epoch) :
    Machine.Both (SameVerdict epoch) (fuzzEpoch evm classify number initial s epoch)
      (fuzzEpoch evm classify number initial ⟨world, initial, []⟩ epoch) := by
  refine (undisturbed.fuzzMessages (.fuzzEpochs ran)).bind fun after alone _ same => ?_
  refine (same.1.extractActionInfoList epoch.run.infoOrder).bind fun z z' _ alike => ?_
  exact ⟨alike.userTokenAttackMap epoch.run epoch.users, same.2⟩

end Epochs

section Gate

/-- A contract that takes deposits while it is open, and the balance of its user. -/
structure Gate where
  isOpen : Bool
  balance : Int
deriving DecidableEq

def openSelector : Bytes := [0xfc, 0xff, 0xf1, 0x6f]
def closeSelector : Bytes := [0x43, 0xd7, 0x26, 0xd6]
def depositSelector : Bytes := [0xd0, 0xe3, 0x0d, 0xb0]

def callTree (msg : FuzzMessage) : List InternalTx :=
  [⟨msg.fromAddr, msg.toAddr, true, msg.amount, .call, msg.data, [], []⟩]

def gate : Interpreter Gate FuzzMessage where
  fund := fun world _ => { world with balance := world.balance + 10 ^ 21 }
  applyMessageTest := fun world msg =>
    let amount := msg.amount.getD 0
    if msg.data = closeSelector then ({ world with isOpen := false }, some (callTree msg))
    else if msg.data = depositSelector ∧ world.isOpen ∧ amount ≤ world.balance then
      ({ world with balance := world.balance - amount }, some (callTree msg))
    else (world, none)

/-- In the only transaction of the history, 0x20 opens the contract. -/
def gateTask : TestTask where
  classify := fun _ input => if input = depositSelector then .deposit else .none
  proxyInfo := ⟨[0x10], []⟩
  block := 7
  proxyFiles := [recordName (toLex (5, 0))]
  loadProxyTx := fun _ => ⟨5, 0, [⟨0x20, 0x10, true, some 0, .call, openSelector, [], []⟩]⟩

def gateStart : TxExtractor := { proxyABI := {0x10}, commonAddressMap := {0x10}, flowMergeMode := .mix }

def closeMsg : FuzzMessage := { fromAddr := 0x20, toAddr := 0x10, amount := some 0, data := closeSelector }
def depositMsg : FuzzMessage := { fromAddr := 0x20, toAddr := 0x10, amount := some 1, data := depositSelector }

def closing : Epoch FuzzMessage where
  messages := List.replicate limit closeMsg
  length_messages := List.length_replicate
  run := Run.stable gateStart []
  users := []

theorem gateTask_starts : gateTask.Starts gateStart :=
  ⟨[], [], _, rfl, .of_keys List.nodup_nil rfl, .of_keys List.nodup_nil rfl, rfl⟩

theorem gate_trees_closing (world world' : Gate) (count offset : Nat) :
    gate.trees world ((List.replicate count closeMsg).zipIdx offset) =
      gate.trees world' ((List.replicate count closeMsg).zipIdx offset) := by
  induction count generalizing world world' offset with
  | zero => rfl
  | succ count ih =>
    rw [List.replicate_succ, List.zipIdx_cons]
    exact congrArg _ (ih _ _ (offset + 1))

/-- The world is another one after the first epoch, but a call that closes the contract does not see it. -/
theorem gate_independent : ∃ s, fuzzEpochs gate gateTask.classify 7 gateStart ⟨true, 0⟩ [closing] = .ok s ∧
    gateTask.Starts gateStart ∧ s.world ≠ ⟨true, 0⟩ ∧
    Machine.Both (SameVerdict closing) (fuzzEpoch gate gateTask.classify 7 gateStart s closing)
      (fuzzEpoch gate gateTask.classify 7 gateStart ⟨⟨true, 0⟩, gateStart, []⟩ closing) := by
  obtain ⟨s, ran, here⟩ := toOption_any (show (fuzzEpochs gate gateTask.classify 7 gateStart ⟨true, 0⟩
      [closing]).toOption.any (fun s => decide (s.world ≠ ⟨true, 0⟩ ∧ s.extractor.lpTokenMap = ∅)) = true by
    decide +kernel)
  obtain ⟨moved, tokens⟩ := of_decide_eq_true here
  exact ⟨s, ran, gateTask_starts, moved, epochs_independent gate gateTask.classify 7 gateStart ⟨true, 0⟩ [closing] s ran
    closing ⟨gate_trees_closing _ _ limit 0, tokens⟩⟩

/-- The deposit fails after an epoch that closed the contract; on its own it succeeds and makes the extractor
    panic. -/
theorem gate_carriesOver : ∃ s after alone, gateTask.Starts gateStart ∧
    fuzzEpochs gate gateTask.classify 7 gateStart ⟨true, 0⟩ [closing] = .ok s ∧
    fuzzMessages gate gateTask.classify 7 gateStart s (depositMsg :: List.replicate 49 closeMsg) = .ok after ∧
    Reports after ∅ ∧
    fuzzMessages gate gateTask.classify 7 gateStart ⟨⟨true, 0⟩, gateStart, []⟩
      (depositMsg :: List.replicate 49 closeMsg) = .ok alone ∧
    Go.Map.Enumerates [0] alone.extractor.actionInfoList ∧
    alone.extractor.extractActionInfoList [0] = .error .nilMapWrite := by
  obtain ⟨s, ran, here⟩ := toOption_any (show (fuzzEpochs gate gateTask.classify 7 gateStart ⟨true, 0⟩
      [closing]).toOption.any (fun s =>
        (fuzzMessages gate gateTask.classify 7 gateStart s
          (depositMsg :: List.replicate 49 closeMsg)).toOption.any fun after =>
          decide (after.extractor.actionInfoList.keys = [].toFinset) &&
            (after.extractor.extractActionInfoList []).toOption.any fun z =>
              let run := Run.stable after.extractor []
              decide ((z.generateUserFlow run.sort run.order).keys = [].toFinset)) = true by decide +kernel)
  obtain ⟨alone, ranAlone, there⟩ := toOption_any (show (fuzzMessages gate gateTask.classify 7 gateStart
      ⟨⟨true, 0⟩, gateStart, []⟩ (depositMsg :: List.replicate 49 closeMsg)).toOption.any (fun alone =>
        decide (alone.extractor.actionInfoList.keys = [0].toFinset) &&
          !(alone.extractor.extractActionInfoList [0]).toOption.isSome) = true by decide +kernel)
  obtain ⟨after, ranAfter, here⟩ := toOption_any here
  simp only [Bool.and_eq_true, decide_eq_true_eq, Bool.not_eq_true'] at here there
  obtain ⟨infos, here⟩ := here
  obtain ⟨z, extracted, users⟩ := toOption_any here
  refine ⟨s, after, alone, gateTask_starts, ran, ranAfter, ?_, ranAlone, .of_keys (by decide) there.1, ?_⟩
  · exact ⟨_, [], z, Run.stable_fits (.of_keys (by decide) infos), extracted, .of_keys (by decide)
      (of_decide_eq_true users), rfl⟩
  · rcases extractActionInfoList_cases alone.extractor [0] with ⟨⟨z, extracted⟩, -⟩ | ⟨failed, -⟩
    · rw [extracted] at there
      cases there.2
    · exact failed

end Gate

end IDWDetector.Replay
