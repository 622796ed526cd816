import IDWDetector.Hunter.Calldata
import IDWDetector.Replay.Fuzzing

namespace IDWDetector.Replay

open Vm Abi Hunter Go

variable {messages : List FuzzMessage} {seed : Seed}

/-- The target and the message of a step of an epoch. -/
def nextMsg (seed : Seed) (attacker : Address) : Random Panic FuzzMessage := do
  let target ← seed.selectTo
  seed.generateMsg attacker target

/-- The messages of an epoch. -/
def epochMessages (seed : Seed) : Random Panic (List FuzzMessage) := do
  let (attacker, _) ← seed.selectSender
  (List.range limit).mapM fun _ => nextMsg seed attacker

/-- The variables of the epoch loop of `TestTask`, with the random numbers to come. -/
structure Campaign (World : Type) where
  seed : Seed
  fuzz : FuzzState World FuzzMessage
  source : Source
  existAttack : Bool := false

section Loop

variable {World : Type} (evm : Interpreter World FuzzMessage) (classify : Address → Bytes → Action) (number : Uint64)
  (initial : TxExtractor)

/-- An epoch after its messages. -/
def closeEpoch (s : Campaign World) (orders : Run × List Address) (index : Nat) (fuzz : FuzzState World FuzzMessage)
    (source : Source) : Except Panic (Unit × Campaign World) := do
  let z ← fuzz.extractor.extractActionInfoList orders.1.infoOrder
  .ok ((), {
    seed := if fuzz.recordMsgList.isEmpty then s.seed.removeSender index else s.seed
    fuzz := { fuzz with extractor := z }
    source := source
    existAttack := orders.2.any (flags orders.1 z) })

/-- An epoch, with the orders in which its maps are iterated; there is none after an attack. -/
def campaignEpoch (s : Campaign World) (orders : Run × List Address) : Except Panic (Unit × Campaign World) :=
  if s.existAttack then .ok ((), s)
  else do
    let ((attacker, index), source) ← s.seed.selectSender s.source
    let (fuzz, source) ← (List.range limit).foldlM (Random.drawThen (nextMsg s.seed attacker)
      (fuzzStep evm classify number)) ⟨s.fuzz.world, restart initial s.fuzz.extractor, []⟩ source
    closeEpoch s orders index fuzz source

/-- All lists of which the seed draws have elements. -/
structure Drawable (seed : Seed) : Prop where
  senders : seed.senderSeedList ≠ []
  pools : ∀ sender ∈ seed.senderSeedList, ∃ pool, seed.seedPoolMap.lookup sender = some pool ∧
    pool.intSeedList ≠ [] ∧ pool.uintSeedList ≠ [] ∧ pool.addressSeedList ≠ [] ∧ pool.etherAmountSeedList ≠ []
  targets : seed.toSeedList ≠ []
  methods : ∀ target ∈ seed.toSeedList, ∃ contract, seed.contracts.lookup target = some contract ∧
    contract.methodList ≠ []

/-- No epoch draws from an empty list, and all lists have elements when it ends. -/
def NeverDrawsEmpty (s : Campaign World) (epochs : List (Run × List Address)) : Prop :=
  ∀ k, Machine.Ends (· ≠ .emptyDraw) (fun result => Drawable result.2.seed)
    (Machine.run (campaignEpoch evm classify number initial) s (epochs.take k))

/-- If a single sender is left, the EVM accepts one of the messages that are drawn for it. -/
def Lasts (s : Campaign World) : Prop :=
  s.existAttack = true ∨ 2 ≤ s.seed.senderSeedList.length ∨
    ∀ messages rest, epochMessages s.seed s.source = .ok (messages, rest) →
      evm.trees s.fuzz.world messages.zipIdx ≠ []

end Loop

section Extracted

def KeepsInputs (contracts : Map Address Contract) : Prop :=
  ∀ addr contract name, contracts.lookup addr = some contract → contract.methodCallMap.lookup name ≠ some []

/-- The senders have their pools, and the stored inputs are of calls. -/
structure Sound (seed : Seed) : Prop where
  stocked : ∀ sender ∈ seed.senderSeedList, (seed.seedPoolMap.lookup sender).isSome ∧ (seed.poolOf sender).Stocked
  inputs : KeepsInputs seed.contracts

theorem KeepsInputs.parseNode {state state' : SeedPool × Map Address Contract} {node : InternalTx × List Entry}
    (keeps : KeepsInputs state.2) (parsed : parseNode state node = .ok state') : KeepsInputs state'.2 := by
  unfold Hunter.parseNode parseCall at parsed
  cases found : state.2.lookup node.1.toAddr with
  | none =>
    rw [found] at parsed
    cases parsed
    exact keeps
  | some contract =>
    rw [found] at parsed
    obtain ⟨⟨pool, contract'⟩, here, result⟩ := Machine.bind_ok.mp parsed
    cases result
    intro addr other name known
    rcases Map.of_lookup_set known with ⟨-, rfl⟩ | known
    · unfold parseMethodArgs at here
      split at here
      · cases here
        exact keeps _ _ name found
      · obtain ⟨_, -, result⟩ := Machine.bind_ok.mp here
        cases result
        rw [Map.lookup_upsert]
        split
        · simp
        · exact keeps _ _ name found
    · exact keeps addr other name known

variable {seed' : Seed} {txList : List ExternalTx}

theorem parseTxs_senders (keeps : KeepsInputs seed.contracts)
    (parsed : txList.foldlM Seed.parseTxForSeed seed = .ok seed') :
    (KeepsInputs seed'.contracts ∧ seed'.toSeedList = seed.toSeedList ∧ seed'.senderSeedList = seed.senderSeedList) ∧
      ∀ sender, sender ∈ seed'.senderSeedMap.keys ↔ sender ∈ seed.senderSeedMap.keys ∨
        ∃ exTx ∈ txList, (rootOf exTx).map InternalTx.fromAddr = some sender := by
  refine Machine.foldlM_view (fun s => KeepsInputs s.contracts ∧ s.toSeedList = seed.toSeedList ∧
    s.senderSeedList = seed.senderSeedList) (fun s sender => sender ∈ s.senderSeedMap.keys)
    (fun exTx sender => (rootOf exTx).map InternalTx.fromAddr = some sender) ?_ ⟨keeps, rfl, rfl⟩ parsed
  rintro s exTx s' ⟨keeps, same, same'⟩ parsed
  cases found : rootOf exTx with
  | none =>
    rw [parseTxForSeed_none found] at parsed
    cases parsed
    exact ⟨⟨keeps, same, same'⟩, fun sender => by simp⟩
  | some root =>
    rw [parseTxForSeed_some found] at parsed
    obtain ⟨state, walked, rfl⟩ := Machine.map_ok.mp parsed
    have kept := Machine.foldlM_kept (fun state : SeedPool × Map Address Contract => KeepsInputs state.2)
      (fun _ _ _ keeps parsed => keeps.parseNode parsed) keeps walked
    refine ⟨⟨kept, same, same'⟩, fun sender => ?_⟩
    rw [mem_keys_seen]
    simp [eq_comm]

end Extracted

section Messages

/-- The computation draws from no empty list. -/
abbrev Positive {α : Type} (m : Random Panic α) : Prop := Random.Ends (· ≠ .emptyDraw) (fun _ => True) m

theorem positive_of_total {α : Type} {m : Random Panic α} {good : α → Prop}
    (ends : Random.Ends (fun _ => False) good m) : Positive m :=
  ends.imp (fun _ => False.elim) fun _ _ => trivial

theorem positive_lift {α : Type} {result : Except Panic α} (other : result ≠ .error .emptyDraw) :
    Positive (Random.lift result) := by
  apply Random.Ends.lift
  cases result with
  | error panic => exact fun same => other (same ▸ rfl)
  | ok a => trivial

theorem packed_ne (contract : Contract) (name : String) (args : List (Option Value)) :
    packed contract name args ≠ .error .emptyDraw := by
  unfold packed
  split
  all_goals simp

variable {sender : Address} {contract : Contract} {name : String}

theorem generateInputData_positive (stocked : (seed.poolOf sender).Stocked) :
    Positive (seed.generateInputData contract name sender) := by
  refine (Random.Ends.length_mapM fun t _ => ?_).bind fun args _ => positive_lift (packed_ne contract name args)
  exact positive_of_total (generateTypeInput_ends sender stocked t)

theorem mutateInputData_positive (stocked : (seed.poolOf sender).Stocked) (data : Bytes) :
    Positive (seed.mutateInputData contract name data sender) := by
  refine (Random.Ends.length_mapM fun input _ => ?_).bind fun args _ => positive_lift (packed_ne contract name args)
  have generated (t : AbiType) := positive_of_total (generateTypeInput_ends sender stocked t)
  split
  · exact generated _
  · exact generated _
  · exact generated _
  · exact generated _
  · split
    · exact .pure trivial
    · exact positive_lift (by simp)

theorem nextMsg_positive (sound : Sound seed) (drawable : Drawable seed) (member : sender ∈ seed.senderSeedList) :
    Positive (nextMsg seed sender) := by
  obtain ⟨pool, found, -, -, -, ethers⟩ := drawable.pools sender member
  have stocked := (sound.stocked sender member).2
  refine (Random.Ends.pick drawable.targets _ _).bind fun target listed => ?_
  obtain ⟨contract, known, methods⟩ := drawable.methods target listed
  have value (name : String) : Positive (seed.msgValue contract name sender) := by
    unfold Seed.msgValue
    split
    · rw [Seed.poolOf, found]
      refine (Random.Ends.int (List.length_pos_iff.mpr ethers) _).bind fun n _ => positive_lift ?_
      unfold SeedPool.selectEtherAmount
      split
      all_goals simp
    · exact .pure trivial
  have data (name : String) : Positive (seed.msgData contract name sender) := by
    unfold Seed.msgData
    split
    · rename_i inputs stored
      have nonempty : inputs ≠ [] := by
        rintro rfl
        exact sound.inputs target contract name known stored
      exact (Random.Ends.pick nonempty _ _).bind fun data _ => mutateInputData_positive stocked data
    · exact generateInputData_positive stocked
  have fetched : Random.Ends (· ≠ .emptyDraw) (· = contract) (Random.lift (deref (some contract))) := fun _ => rfl
  rw [Seed.generateMsg, known]
  refine fetched.bind ?_
  rintro _ rfl
  exact (Random.Ends.pick methods _ _).bind fun name _ => (value name).bind fun _ _ => (data name).bind fun _ _ =>
    .pure trivial

end Messages

section Epoch

variable {World : Type} {evm : Interpreter World FuzzMessage} {classify : Address → Bytes → Action} {number : Uint64}
  {initial : TxExtractor} {s : Campaign World} {attacker : Address} {index : Nat} {source rest : Source}
  {fuzz : FuzzState World FuzzMessage}

theorem fuzzStep_ne (fuzz : FuzzState World FuzzMessage) (input : FuzzMessage × Nat) :
    fuzzStep evm classify number fuzz input ≠ .error .emptyDraw := by
  have indexes : Indexes (fuzzStep evm classify number fuzz input) := by
    unfold fuzzStep
    split
    · trivial
    · exact ((extractTokenTx_indexes classify _ _).bind fun x => extractStakeTokenTx_indexes x _).bind fun _ => trivial
  intro failed
  rw [failed] at indexes
  cases indexes

theorem exists_selected (senders : seed.senderSeedList ≠ []) (source : Source) :
    ∃ attacker index rest, seed.selectSender source = .ok ((attacker, index), rest) ∧
      attacker ∈ seed.senderSeedList ∧ index < seed.senderSeedList.length := by
  have ends : Random.Ends (fun _ => False) (· ∈ seed.senderSeedList.zipIdx) seed.selectSender :=
    Random.Ends.pick (by simpa using senders) _ _
  cases selected : seed.selectSender source with
  | error panic => exact (ends.of_error selected).elim
  | ok drawn =>
    obtain ⟨⟨attacker, index⟩, rest⟩ := drawn
    obtain ⟨inside, here⟩ := List.getElem?_eq_some_iff.mp (List.mem_zipIdx_iff_getElem?.mp (ends.of_ok selected))
    have member := List.getElem_mem inside
    rw [here] at member
    exact ⟨attacker, index, rest, rfl, member, inside⟩

theorem removeSender_drawable_iff (drawable : Drawable seed) (inside : index < seed.senderSeedList.length) :
    Drawable (seed.removeSender index) ↔ 2 ≤ seed.senderSeedList.length := by
  have length : (seed.removeSender index).senderSeedList.length = seed.senderSeedList.length - 1 :=
    List.length_eraseIdx_of_lt inside
  constructor
  · intro left
    have positive := List.length_pos_iff.mpr left.senders
    omega
  · intro several
    refine ⟨List.length_pos_iff.mp (by omega), fun sender member => ?_, drawable.targets, drawable.methods⟩
    exact drawable.pools sender (List.mem_of_mem_eraseIdx member)

theorem length_drawn (drawn : (List.range limit).mapM (fun _ => nextMsg seed attacker) source = .ok (messages, rest)) :
    messages.length = limit := by
  have any : ∀ i ∈ List.range limit, Random.Ends (fun _ => True) (fun _ => True) (nextMsg seed attacker) := by
    intro _ _ source
    cases nextMsg seed attacker source
    all_goals trivial
  rw [(Random.Ends.length_mapM any).of_ok drawn, List.length_range]

theorem steps_ok :
    (List.range limit).foldlM (Random.drawThen (nextMsg s.seed attacker) (fuzzStep evm classify number))
        ⟨s.fuzz.world, restart initial s.fuzz.extractor, []⟩ source = .ok (fuzz, rest) ↔
      ∃ messages, (List.range limit).mapM (fun _ => nextMsg s.seed attacker) source = .ok (messages, rest) ∧
        fuzzMessages evm classify number initial s.fuzz messages = .ok fuzz := by
  rw [Random.foldlM_drawThen_ok]
  refine exists_congr fun messages => and_congr_right fun drawn => ?_
  rw [fuzzMessages, List.zipIdx_eq_zip_range', length_drawn drawn, List.range_eq_range']

theorem epochMessages_ok (selected : s.seed.selectSender s.source = .ok ((attacker, index), source)) :
    epochMessages s.seed s.source = .ok (messages, rest) ↔
      (List.range limit).mapM (fun _ => nextMsg s.seed attacker) source = .ok (messages, rest) := by
  rw [epochMessages, Random.bind_apply, selected]
  rfl

theorem fuzzMessages_rejected (rejected : evm.trees s.fuzz.world messages.zipIdx = []) :
    fuzzMessages evm classify number initial s.fuzz messages =
      .ok ⟨evm.worldAfter s.fuzz.world messages, restart initial s.fuzz.extractor, []⟩ := by
  rw [fuzzMessages_eq, Interpreter.fuzzTxs, rejected]
  rfl

theorem fuzzMessages_recorded {messages : List FuzzMessage}
    (ran : fuzzMessages evm classify number initial s.fuzz messages = .ok fuzz) :
    fuzz.recordMsgList = (evm.trees s.fuzz.world messages.zipIdx).map Prod.fst := by
  rw [fuzzMessages_eq] at ran
  obtain ⟨x, -, rfl⟩ := Machine.map_ok.mp ran
  rfl

theorem campaignEpoch_eq (quiet : s.existAttack = false)
    (selected : s.seed.selectSender s.source = .ok ((attacker, index), source)) (orders : Run × List Address) :
    campaignEpoch evm classify number initial s orders =
      ((List.range limit).foldlM (Random.drawThen (nextMsg s.seed attacker) (fuzzStep evm classify number))
        ⟨s.fuzz.world, restart initial s.fuzz.extractor, []⟩ source).bind fun result =>
          closeEpoch s orders index result.1 result.2 := by
  rw [campaignEpoch, if_neg (by simp [quiet]), selected]
  rfl

theorem campaignEpoch_empty (quiet : s.existAttack = false) (none : s.seed.senderSeedList = [])
    (orders : Run × List Address) : campaignEpoch evm classify number initial s orders = .error .emptyDraw := by
  rw [campaignEpoch, if_neg (by simp [quiet]), Seed.selectSender, none]
  rfl

theorem campaignEpoch_rejected (quiet : s.existAttack = false)
    (selected : s.seed.selectSender s.source = .ok ((attacker, index), source)) {messages : List FuzzMessage}
    (drawn : (List.range limit).mapM (fun _ => nextMsg s.seed attacker) source = .ok (messages, rest))
    (rejected : evm.trees s.fuzz.world messages.zipIdx = []) (orders : Run × List Address) :
    ∃ z, campaignEpoch evm classify number initial s orders = .ok ((), {
      seed := s.seed.removeSender index
      fuzz := ⟨evm.worldAfter s.fuzz.world messages, z, []⟩
      source := rest
      existAttack := orders.2.any (flags orders.1 z) }) := by
  rw [campaignEpoch_eq quiet selected, steps_ok.mpr ⟨messages, drawn, fuzzMessages_rejected rejected⟩]
  rcases extractActionInfoList_cases (restart initial s.fuzz.extractor) orders.1.infoOrder with
    ⟨⟨z, extracted⟩, -⟩ | ⟨-, -, info, known, -⟩
  · exact ⟨z, by simp only [Except.bind, closeEpoch, extracted]; rfl⟩
  · obtain ⟨_, -, found⟩ := List.mem_filterMap.mp known
    cases found

theorem closeEpoch_ends_iff (drawable : Drawable s.seed) (inside : index < s.seed.senderSeedList.length)
    (idle : fuzz.recordMsgList = [] → fuzz.extractor.actionInfoList = .empty) (orders : Run × List Address)
    (source : Source) :
    Machine.Ends (· ≠ .emptyDraw) (fun answer => Drawable answer.2.seed) (closeEpoch s orders index fuzz source) ↔
      2 ≤ s.seed.senderSeedList.length ∨ fuzz.recordMsgList ≠ [] := by
  unfold closeEpoch
  rcases extractActionInfoList_cases fuzz.extractor orders.1.infoOrder with
    ⟨⟨z, extracted⟩, -⟩ | ⟨failed, -, info, known, -⟩
  · rw [extracted]
    show Drawable (if fuzz.recordMsgList.isEmpty then s.seed.removeSender index else s.seed) ↔ _
    cases fuzz.recordMsgList with
    | nil => simpa using removeSender_drawable_iff drawable inside
    | cons first others => exact iff_of_true drawable (.inr (List.cons_ne_nil first others))
  · rw [failed]
    refine iff_of_true (by simp [bind, Except.bind, Machine.Ends]) (.inr fun none => ?_)
    obtain ⟨_, -, found⟩ := List.mem_filterMap.mp known
    rw [idle none] at found
    cases found

theorem campaignEpoch_ends_iff (sound : Sound s.seed) (drawable : Drawable s.seed) (orders : Run × List Address) :
    Machine.Ends (· ≠ .emptyDraw) (fun answer => Drawable answer.2.seed)
      (campaignEpoch evm classify number initial s orders) ↔ Lasts evm s := by
  unfold Lasts
  cases quiet : s.existAttack with
  | true =>
    rw [campaignEpoch, if_pos quiet]
    exact iff_of_true drawable (.inl rfl)
  | false =>
    obtain ⟨attacker, index, source, selected, member, inside⟩ := exists_selected drawable.senders s.source
    have positive : Positive ((List.range limit).foldlM (Random.drawThen (nextMsg s.seed attacker)
        (fuzzStep evm classify number)) ⟨s.fuzz.world, restart initial s.fuzz.extractor, []⟩) := by
      refine Random.Ends.foldlM (fun fuzz step _ _ => ?_) trivial
      exact (nextMsg_positive sound drawable member).bind fun msg _ => positive_lift (fuzzStep_ne fuzz (msg, step))
    simp only [campaignEpoch_eq quiet selected, Bool.false_eq_true, false_or, epochMessages_ok selected]
    cases ran : (List.range limit).foldlM (Random.drawThen (nextMsg s.seed attacker) (fuzzStep evm classify number))
      ⟨s.fuzz.world, restart initial s.fuzz.extractor, []⟩ source with
    | error panic =>
      refine iff_of_true (positive.of_error ran) (.inr fun messages rest drawn rejected => ?_)
      rw [steps_ok.mpr ⟨messages, drawn, fuzzMessages_rejected rejected⟩] at ran
      cases ran
    | ok result =>
      obtain ⟨fuzz, rest⟩ := result
      obtain ⟨messages, drawn, ran⟩ := steps_ok.mp ran
      have recorded : fuzz.recordMsgList = [] ↔ evm.trees s.fuzz.world messages.zipIdx = [] := by
        rw [fuzzMessages_recorded ran, List.map_eq_nil_iff]
      have idle (none : fuzz.recordMsgList = []) : fuzz.extractor.actionInfoList = .empty := by
        rw [fuzzMessages_rejected (recorded.mp none)] at ran
        cases ran
        rfl
      refine (closeEpoch_ends_iff drawable inside idle orders rest).trans (or_congr_right ?_)
      rw [ne_eq, recorded]
      constructor
      · intro accepted messages' rest' drawn'
        rw [drawn] at drawn'
        cases drawn'
        exact accepted
      · intro accepts
        exact accepts messages rest drawn

theorem Sound.campaignEpoch (sound : Sound s.seed) {orders : Run × List Address} {answer : Unit} {s' : Campaign World}
    (ran : campaignEpoch evm classify number initial s orders = .ok (answer, s')) : Sound s'.seed := by
  unfold Replay.campaignEpoch at ran
  split at ran
  · cases ran
    exact sound
  · obtain ⟨⟨⟨attacker, index⟩, source⟩, -, ran⟩ := Machine.bind_ok.mp ran
    obtain ⟨⟨fuzz, source⟩, -, ran⟩ := Machine.bind_ok.mp ran
    obtain ⟨z, -, result⟩ := Machine.bind_ok.mp ran
    cases result
    show Sound (if fuzz.recordMsgList.isEmpty then s.seed.removeSender index else s.seed)
    split
    · exact ⟨fun sender member => sound.stocked sender (List.mem_of_mem_eraseIdx member), sound.inputs⟩
    · exact sound

end Epoch

section Start

variable {loadABI : Address → ABI} {proxyInfo : ProxyInfo} {order : SeedOrder} {txList : List ExternalTx} {seed' : Seed}

/-- The list of the senders is made of the map when all transactions are parsed. -/
def FitsSenders (order : SeedOrder) (seed : Seed) (txList : List ExternalTx) : Prop :=
  ∀ parsed, txList.foldlM Seed.parseTxForSeed seed = .ok parsed →
    Map.Enumerates order.senders parsed.senderSeedMap

theorem initSeed_unused : (Seed.initSeed loadABI proxyInfo).senderSeedList = [] ∧
    (Seed.initSeed loadABI proxyInfo).senderSeedMap = .empty ∧
    KeepsInputs (Seed.initSeed loadABI proxyInfo).contracts := by
  refine Seed.initSeed_rec (motive := fun seed => seed.senderSeedList = [] ∧ seed.senderSeedMap = .empty ∧
    KeepsInputs seed.contracts) ⟨rfl, rfl, nofun⟩ ?_ proxyInfo
  rintro seed contract ⟨idle, unseen, keeps⟩
  refine ⟨idle, unseen, fun addr other name known => ?_⟩
  rcases Map.of_lookup_set known with ⟨-, rfl⟩ | known
  · exact nofun
  · exact keeps addr other name known

theorem methodList_ne_nil (contract : Contract) :
    contract.methodList ≠ [] ↔ ∃ method ∈ contract.abi.methods, method.stateMutability ≠ .view := by
  simp [Contract.methodList, List.filter_eq_nil_iff]

theorem extracted_seed (fits : order.Fits (Seed.initSeed loadABI proxyInfo) txList)
    (senders : FitsSenders order (Seed.initSeed loadABI proxyInfo) txList)
    (extracted : (Seed.initSeed loadABI proxyInfo).initSeedFromFrontTxs order txList = .ok seed') :
    Sound seed' ∧ (Drawable seed' ↔ (∃ exTx ∈ txList, (rootOf exTx).isSome) ∧
      (Seed.initSeed loadABI proxyInfo).toSeedList ≠ [] ∧
      ∀ target ∈ (Seed.initSeed loadABI proxyInfo).toSeedList, ∃ abi,
        (Seed.initSeed loadABI proxyInfo).abis target = some abi ∧
          ∃ method ∈ abi.methods, method.stateMutability ≠ .view) := by
  have fresh := Seed.initSeed_fresh loadABI proxyInfo
  obtain ⟨idle, unseen, keeps⟩ := @initSeed_unused loadABI proxyInfo
  obtain ⟨parsed, here, result⟩ := Machine.bind_ok.mp (id extracted)
  obtain ⟨⟨kept, targets, list⟩, seen⟩ := parseTxs_senders keeps here
  have interfaces := (parseTxs_view fresh.opened here).2.1
  have listed (sender : Address) : sender ∈ seed'.senderSeedList ↔
      ∃ exTx ∈ txList, (rootOf exTx).map InternalTx.fromAddr = some sender := by
    cases result
    rw [list, idle, List.nil_append, (senders parsed here).mem_iff, seen, unseen]
    simp
  have pooled {sender : Address} (member : sender ∈ seed'.senderSeedList) :=
    lookup_of_sends extracted fresh ((listed sender).mp member)
  have same : seed'.toSeedList = (Seed.initSeed loadABI proxyInfo).toSeedList ∧ seed'.contracts = parsed.contracts := by
    cases result
    exact ⟨targets, rfl⟩
  have stocked {sender : Address} (member : sender ∈ seed'.senderSeedList) : (seed'.poolOf sender).Stocked :=
    stocked_of_found fits extracted (pooled member) fresh
  refine ⟨⟨fun sender member => ⟨by rw [pooled member]; rfl, stocked member⟩, same.2 ▸ kept⟩, ?_, ?_⟩
  · rintro ⟨nonempty, -, targets, methods⟩
    obtain ⟨sender, member⟩ := List.exists_mem_of_ne_nil _ nonempty
    obtain ⟨exTx, inside, sent⟩ := (listed sender).mp member
    rw [same.1, same.2] at methods
    refine ⟨⟨exTx, inside, ?_⟩, same.1 ▸ targets, fun target member => ?_⟩
    · obtain ⟨root, found, -⟩ := Option.map_eq_some_iff.mp sent
      rw [found]
      rfl
    · obtain ⟨contract, known, nonempty⟩ := methods target member
      exact ⟨contract.abi, by rw [← interfaces, known]; rfl, (methodList_ne_nil contract).mp nonempty⟩
  · rintro ⟨⟨exTx, inside, single⟩, targets, methods⟩
    obtain ⟨root, found⟩ := Option.isSome_iff_exists.mp single
    refine ⟨List.ne_nil_of_mem ((listed root.fromAddr).mpr ⟨exTx, inside, by rw [found]; rfl⟩), ?_,
      same.1 ▸ targets, ?_⟩
    · intro sender member
      have nonempty := (stocked member).nonempty
      rw [Seed.poolOf, pooled member] at nonempty
      exact ⟨_, pooled member, nonempty⟩
    · rw [same.1, same.2]
      intro target member
      obtain ⟨abi, known, method⟩ := methods target member
      rw [← interfaces] at known
      obtain ⟨contract, found, rfl⟩ := Option.map_eq_some_iff.mp known
      exact ⟨contract, found, (methodList_ne_nil contract).mpr method⟩

/-- A campaign draws from no empty list exactly if there are senders and targets with methods, and the last sender
    has no epoch without an accepted message. -/
theorem neverDrawsEmpty_iff {World : Type} (evm : Interpreter World FuzzMessage) (classify : Address → Bytes → Action)
    (number : Uint64) (initial : TxExtractor) (world : World) (source : Source) (epochs : List (Run × List Address))
    (fits : order.Fits (Seed.initSeed loadABI proxyInfo) txList)
    (senders : FitsSenders order (Seed.initSeed loadABI proxyInfo) txList)
    (extracted : (Seed.initSeed loadABI proxyInfo).initSeedFromFrontTxs order txList = .ok seed') :
    NeverDrawsEmpty evm classify number initial ⟨seed', ⟨world, initial, []⟩, source, false⟩ epochs ↔
      ((∃ exTx ∈ txList, (rootOf exTx).isSome) ∧ (Seed.initSeed loadABI proxyInfo).toSeedList ≠ [] ∧
        ∀ target ∈ (Seed.initSeed loadABI proxyInfo).toSeedList, ∃ abi,
          (Seed.initSeed loadABI proxyInfo).abis target = some abi ∧
            ∃ method ∈ abi.methods, method.stateMutability ≠ .view) ∧
      Machine.Along (campaignEpoch evm classify number initial) (fun s _ => Lasts evm s)
        ⟨seed', ⟨world, initial, []⟩, source, false⟩ epochs := by
  obtain ⟨sound, drawable⟩ := extracted_seed fits senders extracted
  have ends (s : Campaign World) (orders : Run × List Address) (sound : Sound s.seed) (drawable : Drawable s.seed) :
      Machine.Ends (· ≠ .emptyDraw) (fun answer => Drawable answer.2.seed)
        (campaignEpoch evm classify number initial s orders) ↔ Lasts evm s :=
    campaignEpoch_ends_iff sound drawable orders
  rw [← drawable]
  exact Machine.run_safe_iff ends (fun _ _ _ _ sound => sound.campaignEpoch) sound epochs

end Start

def stubborn (accepts : Bool) : Interpreter Unit FuzzMessage where
  fund := fun world _ => world
  applyMessageTest := fun world _ => (world, if accepts then some [] else none)

theorem reaching_extracts : ∃ (order : SeedOrder) (seed' : Seed),
    order.Fits payableSeed [reaching .call (some 5)] ∧ FitsSenders order payableSeed [reaching .call (some 5)] ∧
    payableSeed.initSeedFromFrontTxs order [reaching .call (some 5)] = .ok seed' ∧ seed'.senderSeedList = [0x20] ∧
    seed'.toSeedList = [0x10] ∧ seed'.contracts.lookup 0x10 = some { abi := payableABI } := by
  obtain ⟨order, fits⟩ := exists_fits payableSeed [reaching .call (some 5)]
  have keys : (seen payableSeed.senderSeedMap 0x20).keys = [0x20].toFinset := by decide
  refine ⟨⟨order.pools, [0x20]⟩, _, fits, fun parsed here => ?_, rfl, rfl, rfl, rfl⟩
  cases here
  exact .of_keys (List.nodup_singleton _) keys

theorem neverDrawsEmpty_reaching : ∃ (order : SeedOrder) (seed' : Seed),
    order.Fits payableSeed [reaching .call (some 5)] ∧ FitsSenders order payableSeed [reaching .call (some 5)] ∧
    payableSeed.initSeedFromFrontTxs order [reaching .call (some 5)] = .ok seed' ∧
    ∀ source epochs, NeverDrawsEmpty (stubborn true) (fun _ _ => .none) 1 { proxyABI := ∅ }
      ⟨seed', ⟨(), { proxyABI := ∅ }, []⟩, source, false⟩ epochs := by
  obtain ⟨order, seed', fits, senders, extracted, -⟩ := reaching_extracts
  refine ⟨order, seed', fits, senders, extracted, fun source epochs => ?_⟩
  refine (neverDrawsEmpty_iff _ _ _ _ _ source epochs fits senders extracted).mpr ⟨⟨?_, ?_, ?_⟩, ?_⟩
  · exact ⟨_, List.mem_singleton_self _, rfl⟩
  · exact List.cons_ne_nil _ _
  · intro target member
    cases List.mem_singleton.mp member
    exact ⟨payableABI, rfl, payableMethod, List.mem_singleton_self _, by decide⟩
  · refine Machine.Along.of_forall (fun orders _ s => .inr (.inr fun messages rest drawn => ?_)) _
    obtain ⟨⟨attacker, index⟩, source, -, drawn⟩ := Random.bind_ok.mp drawn
    have length := length_drawn drawn
    cases messages with
    | nil => cases length
    | cons message messages => exact List.cons_ne_nil _ _

/-- The only sender is removed when the EVM accepts none of its messages, and the next epoch draws from no senders. -/
theorem lastSender_removed : ∃ (order : SeedOrder) (seed' : Seed),
    order.Fits payableSeed [reaching .call (some 5)] ∧ FitsSenders order payableSeed [reaching .call (some 5)] ∧
    payableSeed.initSeedFromFrontTxs order [reaching .call (some 5)] = .ok seed' ∧
    ∀ run : Run, ∃ source, Machine.run (campaignEpoch (stubborn false) (fun _ _ => .none) 1 { proxyABI := ∅ })
      ⟨seed', ⟨(), { proxyABI := ∅ }, []⟩, source, false⟩ [(run, []), (run, [])] = .error .emptyDraw := by
  obtain ⟨order, seed', fits, senders, extracted, listed, targets, known⟩ := reaching_extracts
  refine ⟨order, seed', fits, senders, extracted, fun run => ?_⟩
  have fresh := Seed.initSeed_fresh (fun _ => payableABI) ⟨[0x10], []⟩
  have found := lookup_of_sends extracted fresh ⟨_, List.mem_singleton_self _, rfl⟩
  obtain ⟨n, inside, selected⟩ := selectEtherAmount_of_mem
    (lists_constant fits extracted found fresh (constant_ether List.mem_cons_self))
  have next : Random.CanReturn (nextMsg seed' 0x20) _ :=
    (Random.CanReturn.pick (targets ▸ List.mem_cons_self) _ _).bind (payable_canReturn known found inside selected)
  obtain ⟨middle, drawn⟩ := Random.CanReturn.mapM (List.forall₂_map_right_iff.mpr (List.forall₂_same.mpr
    fun _ (_ : _ ∈ List.range limit) => next)) fun _ => 0
  have first : Random.CanReturn seed'.selectSender (0x20, 0) :=
    .pick (List.mem_zipIdx_iff_getElem?.mpr (by rw [listed]; rfl)) _ _
  obtain ⟨source, selected⟩ := first middle
  have rejected (inputs : List (FuzzMessage × Nat)) : (stubborn false).trees () inputs = [] := by
    induction inputs with
    | nil => rfl
    | cons input rest ih => exact ih
  refine ⟨source, ?_⟩
  obtain ⟨z, epoch⟩ := @campaignEpoch_rejected Unit (stubborn false) (fun _ _ => .none) 1 { proxyABI := ∅ }
    ⟨seed', ⟨(), { proxyABI := ∅ }, []⟩, source, false⟩ _ _ _ _ rfl selected _ drawn (rejected _) (run, [])
  have none : (seed'.removeSender 0).senderSeedList = [] := by rw [Seed.removeSender, listed]; rfl
  simp only [Machine.run, epoch, bind, Except.bind]
  rw [campaignEpoch_empty rfl none]

end IDWDetector.Replay
