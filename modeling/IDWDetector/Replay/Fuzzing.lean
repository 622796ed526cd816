import IDWDetector.Replay.TestHunter

namespace IDWDetector.Replay

open Vm Hunter Machine

/-- The EVM under the fuzzer. A world is the `StateDB` with the gas pool; a message that fails leaves no call tree. -/
structure Interpreter (World Message : Type) where
  fund : World → Message → World
  applyMessageTest : World → Message → World × Option (List InternalTx)

def Interpreter.apply {World Message : Type} (evm : Interpreter World Message) (world : World) (message : Message) :
    World × Option (List InternalTx) :=
  evm.applyMessageTest (evm.fund world message) message

def limit : Nat := 50

def stamp (number : Uint64) (step : Nat) : Int := (number + BitVec.ofNat 64 step).toNat

structure FuzzState (World Message : Type) where
  world : World
  extractor : TxExtractor
  recordMsgList : List Message := []

/-- The messages of an epoch, and the orders in which its maps are iterated. -/
structure Epoch (Message : Type) where
  messages : List Message
  length_messages : messages.length = limit
  run : Run
  users : List Address

/-- The extractor at the start of an epoch: the actions are gone, the flows and the relations are those of the
    history. -/
def restart (initial x : TxExtractor) : TxExtractor :=
  { x with
    actionInfoList := .empty
    userTokenTxMap := initial.userTokenTxMap
    userRelatedMap := initial.userRelatedMap }

def extractMessage (classify : Address → Bytes → Action) (x : TxExtractor) (exTx : ExternalTx) :
    Except Panic TxExtractor := do
  let x ← x.extractTokenTx classify exTx
  x.extractStakeTokenTx exTx

section Loop

variable {World Message : Type} (evm : Interpreter World Message) (classify : Address → Bytes → Action)
  (number : Uint64) (initial : TxExtractor)

def fuzzStep (s : FuzzState World Message) (input : Message × Nat) : Except Panic (FuzzState World Message) :=
  match evm.apply s.world input.1 with
  | (world, none) => .ok { s with world := world }
  | (world, some inTxs) => do
    let x ← extractMessage classify s.extractor ⟨stamp number input.2, 0, inTxs⟩
    .ok ⟨world, x, s.recordMsgList ++ [input.1]⟩

def fuzzMessages (s : FuzzState World Message) (messages : List Message) : Except Panic (FuzzState World Message) :=
  messages.zipIdx.foldlM (fuzzStep evm classify number) ⟨s.world, restart initial s.extractor, []⟩

def fuzzEpoch (s : FuzzState World Message) (epoch : Epoch Message) : Except Panic (FuzzState World Message) := do
  let s ← fuzzMessages evm classify number initial s epoch.messages
  let z ← s.extractor.extractActionInfoList epoch.run.infoOrder
  .ok { s with extractor := z }

/-- Epochs one after the other, from the state after the initialisation. -/
def fuzzEpochs (world : World) (epochs : List (Epoch Message)) : Except Panic (FuzzState World Message) :=
  epochs.foldlM (fuzzEpoch evm classify number initial) ⟨world, initial, []⟩

end Loop

namespace Interpreter

variable {World Message : Type} (evm : Interpreter World Message)

def worldAfter (world : World) (messages : List Message) : World :=
  messages.foldl (fun world message => (evm.apply world message).1) world

def trees (world : World) : List (Message × Nat) → List (Message × Nat × List InternalTx)
  | [] => []
  | (message, step) :: rest =>
    ((evm.apply world message).2.map fun inTxs => (message, step, inTxs)).toList ++
      trees (evm.apply world message).1 rest

def fuzzTxs (number : Uint64) (world : World) (inputs : List (Message × Nat)) : List ExternalTx :=
  (evm.trees world inputs).map fun tree => ⟨stamp number tree.2.1, 0, tree.2.2⟩

end Interpreter

section Messages

variable {classify : Address → Bytes → Action} {x y : TxExtractor}

theorem foldl_addAction_related (infos : List ActionInfo) (x : TxExtractor) (related : UserRelatedMap) :
    infos.foldl TxExtractor.addAction { x with userRelatedMap := related } =
      { infos.foldl TxExtractor.addAction x with userRelatedMap := related } := by
  simp only [foldl_addAction_eq]

theorem extractMessage_eq (exTx : ExternalTx) : extractMessage classify x exTx = (do
    let infos ← actionsOf classify x.proxyABI exTx
    let stakes ← stakesOf exTx
    .ok (stakes.foldl applyStake (infos.foldl TxExtractor.addAction x))) := by
  rw [extractMessage, extractTokenTx_eq]
  cases actionsOf classify x.proxyABI exTx with
  | error panic => rfl
  | ok infos => exact extractStakeTokenTx_eq _ exTx

theorem foldlM_extractMessage_ok {txs : List ExternalTx} (extracted : txs.foldlM (extractMessage classify) x = .ok y) :
    ∃ infos, gather (actionsOf classify x.proxyABI) txs = .ok infos ∧
      y = { infos.foldl TxExtractor.addAction x with userRelatedMap := y.userRelatedMap } := by
  induction txs generalizing x with
  | nil =>
    cases extracted
    exact ⟨[], rfl, rfl⟩
  | cons exTx rest ih =>
    rw [List.foldlM_cons] at extracted
    obtain ⟨middle, here, later⟩ := bind_ok.mp extracted
    rw [extractMessage_eq] at here
    obtain ⟨first, found, here⟩ := bind_ok.mp here
    obtain ⟨stakes, -, same⟩ := bind_ok.mp here
    cases same
    obtain ⟨second, found', whole⟩ := ih later
    rw [foldl_applyStake_eq] at found' whole
    rw [TxExtractor.foldl_addAction_proxyABI] at found'
    refine ⟨first ++ second, gather_cons_ok.mpr ⟨first, second, found, found', rfl⟩, ?_⟩
    rw [foldl_addAction_related] at whole
    rw [List.foldl_append]
    exact whole

end Messages

section Extraction

variable {World Message : Type} {evm : Interpreter World Message} {classify : Address → Bytes → Action}
  {number : Uint64} {initial : TxExtractor}

theorem foldlM_fuzzStep_eq (s : FuzzState World Message) (inputs : List (Message × Nat)) :
    inputs.foldlM (fuzzStep evm classify number) s =
      ((evm.fuzzTxs number s.world inputs).foldlM (extractMessage classify) s.extractor).map fun x =>
        ⟨evm.worldAfter s.world (inputs.map Prod.fst), x,
          s.recordMsgList ++ (evm.trees s.world inputs).map Prod.fst⟩ := by
  induction inputs generalizing s with
  | nil => simp [Interpreter.fuzzTxs, Interpreter.trees, Interpreter.worldAfter, Except.map, pure, Except.pure]
  | cons input rest ih =>
    obtain ⟨message, step⟩ := input
    rw [List.foldlM_cons, fuzzStep, Interpreter.fuzzTxs, Interpreter.trees]
    cases ran : evm.apply s.world message with
    | mk world outcome =>
      have after : evm.worldAfter s.world (message :: rest.map Prod.fst) =
        evm.worldAfter world (rest.map Prod.fst) := by
        rw [Interpreter.worldAfter, List.foldl_cons, ran]
        rfl
      rw [List.map_cons, after]
      cases outcome with
      | none => exact ih _
      | some inTxs =>
        simp only [Option.map_some, Option.toList_some, List.singleton_append, List.map_cons, List.foldlM_cons]
        cases extractMessage classify s.extractor ⟨stamp number step, 0, inTxs⟩ with
        | error panic => rfl
        | ok x =>
          have later := ih ⟨world, x, s.recordMsgList ++ [message]⟩
          rw [List.append_assoc] at later
          exact later

theorem fuzzMessages_eq (s : FuzzState World Message) (messages : List Message) :
    fuzzMessages evm classify number initial s messages =
      ((evm.fuzzTxs number s.world messages.zipIdx).foldlM (extractMessage classify) (restart initial s.extractor)).map
        fun x => ⟨evm.worldAfter s.world messages, x, (evm.trees s.world messages.zipIdx).map Prod.fst⟩ := by
  rw [fuzzMessages, foldlM_fuzzStep_eq, List.zipIdx_map_fst]
  rfl

theorem fuzzMessages_ok {s after : FuzzState World Message} {messages : List Message}
    (ran : fuzzMessages evm classify number initial s messages = .ok after) :
    ∃ infos, gather (actionsOf classify s.extractor.proxyABI) (evm.fuzzTxs number s.world messages.zipIdx) =
        .ok infos ∧ after.extractor.actionInfoList.values = infos ∧
      after.extractor = { infos.foldl TxExtractor.addAction (restart initial s.extractor) with
        userRelatedMap := after.extractor.userRelatedMap } := by
  rw [fuzzMessages_eq] at ran
  obtain ⟨y, extracted, rfl⟩ := map_ok.mp ran
  obtain ⟨infos, gathered, whole⟩ := foldlM_extractMessage_ok extracted
  refine ⟨infos, gathered, ?_, whole⟩
  have indexed : (restart initial s.extractor).Indexed := rfl
  have values := (indexed.foldl_addAction infos).2
  rw [show (restart initial s.extractor).actionInfoList = .empty from rfl, Go.Map.values_empty, zero_add] at values
  rw [whole]
  exact values

end Extraction

end IDWDetector.Replay
