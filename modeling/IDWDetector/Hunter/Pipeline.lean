import IDWDetector.Hunter.Check
import IDWDetector.Hunter.Phases

namespace IDWDetector.Hunter

open Vm Machine

variable {α β : Type}

def HasFlow (lpTokenMap commonAddressMap : Finset Address) (info : ActionInfo) : Prop :=
  ∃ tokenTx ∈ info.tokenTxListWithoutLP lpTokenMap, flowUser commonAddressMap tokenTx ≠ none

/-- The maps of an extractor other than `RelatedToken`, whose absence the extractor itself shows,
    and those that are only read. -/
inductive MapField
  | proxyABI
  | userTokenTxMap
  | userRelatedMap
  | actionInfoList
  | addressCountMap
  | commonAddressMap
  | methodCountMap
  | lpTokenMap
deriving DecidableEq

/-- An extractor, and which of its maps were made. -/
structure Pipeline where
  extractor : TxExtractor
  made : Finset MapField

structure ProxyInfo where
  proxyContracts : List Address
  lpTokens : List Address

inductive PipelineStep
  | extractTokenTx (exTx : ExternalTx)
  | extractStakeTokenTx (exTx : ExternalTx)
  | updateCommonAddressMap (order : List Address)
  | extractActionInfoList (order : List Nat)
  | generateUserFlow (sort : List TokenTx → List TokenTx) (order : Address → List Address)
  | checkAttack (tokens : List Address) (arrangements : Address → Nat → Arrangement)
      (userTokenFlowMap : UserTokenFlowMap) (user : Address)
  /-- The assignments at the start of an epoch, with the copies that were made after the history. -/
  | resetEpoch (userTokenTxMap : UserTokenTxMap) (userRelatedMap : UserRelatedMap)

inductive PipelineOutput
  | nothing
  | flows (userTokenFlowMap : UserTokenFlowMap)
  | attacks (found : TokenAttackMap × Bool)

namespace Pipeline

def init (p : Pipeline) (info : ProxyInfo) : Pipeline where
  extractor := { p.extractor with proxyABI := info.proxyContracts.toFinset, lpTokenMap := info.lpTokens.toFinset }
  made := insert .proxyABI (insert .lpTokenMap p.made)

def testTask : Pipeline where
  extractor := { proxyABI := ∅ }
  made := {.userTokenTxMap, .userRelatedMap, .addressCountMap, .actionInfoList, .methodCountMap}

def hunterMain (stableTokenMap : Go.Map Address StableToken) (tokenSwapMap : Go.Map Address TokenSwap) : Pipeline where
  extractor := { proxyABI := ∅, relatedToken := some .empty, stableTokenMap, tokenSwapMap }
  made := {.userTokenTxMap, .userRelatedMap, .addressCountMap, .actionInfoList, .methodCountMap}

def assign (p : Pipeline) (fields : List MapField) : Except Panic Unit :=
  if ∀ field ∈ fields, field ∈ p.made then .ok () else .error .nilMapWrite

variable (classify : Address → Bytes → Action)

/-- `UpdateCommonAddressMap` makes its map. `GenerateUserFlow` and `CheckAttack` assign only to maps that
    they make. -/
def step (p : Pipeline) : PipelineStep → Except Panic (PipelineOutput × Pipeline)
  | .extractTokenTx exTx => do
    p.assign [.methodCountMap, .lpTokenMap, .addressCountMap, .actionInfoList]
    let x ← p.extractor.extractTokenTx classify exTx
    .ok (.nothing, { p with extractor := x })
  | .extractStakeTokenTx exTx => do
    p.assign [.userRelatedMap]
    let x ← p.extractor.extractStakeTokenTx exTx
    .ok (.nothing, { p with extractor := x })
  | .updateCommonAddressMap order =>
    .ok (.nothing, { extractor := p.extractor.updateCommonAddressMap order, made := insert .commonAddressMap p.made })
  | .extractActionInfoList order => do
    p.assign [.userTokenTxMap, .userRelatedMap]
    let x ← p.extractor.extractActionInfoList order
    .ok (.nothing, { p with extractor := x })
  | .generateUserFlow sort order => .ok (.flows (p.extractor.generateUserFlow sort order), p)
  | .checkAttack tokens arrangements userTokenFlowMap user =>
    .ok (.attacks (p.extractor.checkAttack tokens arrangements userTokenFlowMap user), p)
  | .resetEpoch userTokenTxMap userRelatedMap =>
    .ok (.nothing, {
      extractor := { p.extractor with actionInfoList := .empty, userTokenTxMap, userRelatedMap }
      made := insert .actionInfoList (insert .userTokenTxMap (insert .userRelatedMap p.made)) })

def Flowless (p : Pipeline) : PipelineStep → Prop
  | .extractActionInfoList order => ∀ info ∈ order.filterMap p.extractor.actionInfoList.lookup,
      ¬ HasFlow p.extractor.lpTokenMap p.extractor.commonAddressMap info
  | _ => True

end Pipeline

variable {computation : Except Panic α}

def IsNil (panic : Panic) : Prop := panic = .nilMapWrite ∨ panic = .nilDereference

def NilSafe {α : Type} (computation : Except Panic α) : Prop :=
  Ends (fun panic => ¬ IsNil panic) (fun _ => True) computation

def Indexes {α : Type} (computation : Except Panic α) : Prop :=
  Ends (fun panic => panic = .indexOutOfRange) (fun _ => True) computation

theorem Indexes.nilSafe (indexes : Indexes computation) : NilSafe computation := by
  refine Ends.imp indexes ?_ fun _ _ => trivial
  rintro panic rfl (missing | missing)
  all_goals cases missing

theorem Indexes.bind {next : α → Except Panic β} (indexes : Indexes computation) (later : ∀ a, Indexes (next a)) :
    Indexes (computation >>= next) :=
  Ends.bind indexes fun a _ _ => later a

theorem Indexes.map (indexes : Indexes computation) (f : α → β) :
    Indexes (computation.map f) := by
  cases computation with
  | error panic => exact indexes
  | ok a => exact trivial

theorem extractEvent_indexes (event : Event) : Indexes (extractEvent event) := by
  unfold extractEvent
  split
  · split
    · split
      · rfl
      · trivial
    · trivial
  · trivial

theorem extractEvents_indexes (events : List Event) : Indexes (extractEvents events) := by
  induction events with
  | nil => exact trivial
  | cons event rest ih => exact (extractEvent_indexes event).bind fun _ => ih.bind fun _ => trivial

section Trees

variable (classify : Address → Bytes → Action) (proxies : Finset Address) (blockNumber txIndex : Int)

mutual

theorem collect_indexes (tx : InternalTx) : Indexes (collect classify proxies blockNumber txIndex tx) := by
  obtain ⟨_, _, _, _, _, _, events, inTxs⟩ := tx
  rw [collect]
  refine (collectAll_indexes inTxs).bind fun _ => (extractEvents_indexes events).bind fun _ => ?_
  split
  all_goals trivial

theorem collectAll_indexes (txs : List InternalTx) :
    Indexes (collectAll classify proxies blockNumber txIndex txs) := by
  cases txs with
  | nil => exact trivial
  | cons tx rest =>
    rw [collectAll]
    exact (collect_indexes tx).bind fun _ => (collectAll_indexes rest).bind fun _ => trivial

end

mutual

theorem transfers_indexes (tx : InternalTx) : Indexes (transfers tx) := by
  obtain ⟨_, _, _, _, _, _, events, inTxs⟩ := tx
  rw [transfers]
  exact (transfersAll_indexes inTxs).bind fun _ => (extractEvents_indexes events).bind fun _ => trivial

theorem transfersAll_indexes (txs : List InternalTx) : Indexes (transfersAll txs) := by
  cases txs with
  | nil => exact trivial
  | cons tx rest =>
    rw [transfersAll]
    exact (transfers_indexes tx).bind fun _ => (transfersAll_indexes rest).bind fun _ => trivial

end

theorem extractTokenTx_indexes (x : TxExtractor) (exTx : ExternalTx) : Indexes (x.extractTokenTx classify exTx) := by
  rw [extractTokenTx_eq]
  apply Indexes.map
  unfold actionsOf
  split
  · exact (collect_indexes _ _ _ _ _).map _
  · trivial

theorem extractStakeTokenTx_indexes (x : TxExtractor) (exTx : ExternalTx) : Indexes (x.extractStakeTokenTx exTx) := by
  rw [extractStakeTokenTx_eq]
  apply Indexes.map
  unfold stakesOf
  split
  · exact (transfers_indexes _).map _
  · trivial

end Trees

namespace Pipeline

/-- All maps were made that entries are assigned of, except perhaps `RelatedToken`. -/
structure Made (related : Bool) (p : Pipeline) : Prop where
  fields : ∀ field, field ≠ .commonAddressMap → field ∈ p.made
  relatedToken : p.extractor.relatedToken.isSome = related

variable {related : Bool} {p : Pipeline}

theorem Made.assign (made : p.Made related) {fields : List MapField} (assigned : .commonAddressMap ∉ fields) :
    p.assign fields = .ok () := by
  refine if_pos ?_
  rintro field member
  exact made.fields field fun common => assigned (common ▸ member)

theorem Made.init (made : ∀ field, field ∉ [MapField.proxyABI, .lpTokenMap, .commonAddressMap] → field ∈ p.made)
    (info : ProxyInfo) : (p.init info).Made p.extractor.relatedToken.isSome := by
  refine ⟨?_, rfl⟩
  intro field other
  by_cases known : field ∈ [MapField.proxyABI, .lpTokenMap, .commonAddressMap]
  · simp only [List.mem_cons, List.not_mem_nil, or_false] at known
    rcases known with rfl | rfl | rfl
    · exact Finset.mem_insert_self _ _
    · exact Finset.mem_insert_of_mem (Finset.mem_insert_self _ _)
    · exact absurd rfl other
  · exact Finset.mem_insert_of_mem (Finset.mem_insert_of_mem (made field known))

end Pipeline

section Flows

variable {lpTokenMap commonAddressMap : Finset Address}

theorem effectsOf_made (info : ActionInfo) :
    ∃ effects, effectsOf true lpTokenMap commonAddressMap info = .ok effects := by
  apply gather_total
  intro tokenTx _
  unfold effectOf
  split
  · exact ⟨_, rfl⟩
  · exact ⟨_, rfl⟩

theorem effectsOf_nil (info : ActionInfo) :
    HasFlow lpTokenMap commonAddressMap info ∧ effectsOf false lpTokenMap commonAddressMap info = .error .nilMapWrite ∨
      ¬ HasFlow lpTokenMap commonAddressMap info ∧ effectsOf false lpTokenMap commonAddressMap info = .ok [] := by
  have failing (tokenTx : TokenTx) (flows : flowUser commonAddressMap tokenTx ≠ none) :
      effectOf false commonAddressMap (info.depositTo lpTokenMap) (info.withdrawFrom lpTokenMap) tokenTx =
        .error .nilMapWrite := by
    obtain ⟨user, found⟩ := Option.ne_none_iff_exists'.mp flows
    rw [effectOf, found]
    rfl
  have silent (tokenTx : TokenTx) (flowless : ¬ flowUser commonAddressMap tokenTx ≠ none) :
      effectOf false commonAddressMap (info.depositTo lpTokenMap) (info.withdrawFrom lpTokenMap) tokenTx = .ok [] := by
    rw [effectOf, not_ne_iff.mp flowless]
  refine (gather_silent failing silent (info.tokenTxListWithoutLP lpTokenMap)).imp_right ?_
  rintro ⟨none, result⟩
  refine ⟨?_, result⟩
  rintro ⟨tokenTx, member, flows⟩
  exact none tokenTx member flows

theorem extractActionInfoList_made {x : TxExtractor} (made : x.relatedToken.isSome = true) (order : List Nat) :
    ∃ z, x.extractActionInfoList order = .ok z := by
  have steady : Steady true x.lpTokenMap x.commonAddressMap x := ⟨made, rfl, rfl⟩
  obtain ⟨effects, found⟩ : ∃ effects, gather (effectsOf true x.lpTokenMap x.commonAddressMap)
      (order.filterMap x.actionInfoList.lookup) = .ok effects := gather_total fun info _ => effectsOf_made info
  rw [extractActionInfoList_eq steady, found]
  exact ⟨_, rfl⟩

theorem extractActionInfoList_unmade {x : TxExtractor} (unmade : x.relatedToken.isSome = false) (order : List Nat) :
    x.extractActionInfoList order = .ok { x with flowMergeMode := x.mode } ∧
        (∀ info ∈ order.filterMap x.actionInfoList.lookup, ¬ HasFlow x.lpTokenMap x.commonAddressMap info) ∨
      x.extractActionInfoList order = .error .nilMapWrite ∧
        ∃ info ∈ order.filterMap x.actionInfoList.lookup, HasFlow x.lpTokenMap x.commonAddressMap info := by
  have steady : Steady false x.lpTokenMap x.commonAddressMap x := ⟨unmade, rfl, rfl⟩
  rw [extractActionInfoList_eq steady]
  have failing (info : ActionInfo) (flows : HasFlow x.lpTokenMap x.commonAddressMap info) :
      effectsOf false x.lpTokenMap x.commonAddressMap info = .error .nilMapWrite :=
    (effectsOf_nil info).resolve_right (fun flowless => flowless.1 flows) |>.2
  have silent (info : ActionInfo) (flowless : ¬ HasFlow x.lpTokenMap x.commonAddressMap info) :
      effectsOf false x.lpTokenMap x.commonAddressMap info = .ok [] :=
    (effectsOf_nil info).resolve_left (fun flows => flowless flows.1) |>.2
  rcases gather_silent failing silent (order.filterMap x.actionInfoList.lookup) with ⟨flows, result⟩ | ⟨none, result⟩
  · rw [result]
    exact .inr ⟨rfl, flows⟩
  · rw [result]
    exact .inl ⟨rfl, none⟩

theorem extractActionInfoList_cases (x : TxExtractor) (order : List Nat) :
    (∃ z, x.extractActionInfoList order = .ok z) ∧ (x.relatedToken.isSome = true ∨
        ∀ info ∈ order.filterMap x.actionInfoList.lookup, ¬ HasFlow x.lpTokenMap x.commonAddressMap info) ∨
      x.extractActionInfoList order = .error .nilMapWrite ∧ ¬x.relatedToken.isSome = true ∧
        ∃ info ∈ order.filterMap x.actionInfoList.lookup, HasFlow x.lpTokenMap x.commonAddressMap info := by
  cases made : x.relatedToken.isSome with
  | true => exact .inl ⟨extractActionInfoList_made made order, .inl rfl⟩
  | false =>
    rcases extractActionInfoList_unmade made order with ⟨result, none⟩ | ⟨result, flows⟩
    · exact .inl ⟨⟨_, result⟩, .inr none⟩
    · exact .inr ⟨result, Bool.false_ne_true, flows⟩

theorem extractActionInfoList_nilSafe_iff (x : TxExtractor) (order : List Nat) :
    NilSafe (x.extractActionInfoList order) ↔ x.relatedToken.isSome = true ∨
      ∀ info ∈ order.filterMap x.actionInfoList.lookup, ¬ HasFlow x.lpTokenMap x.commonAddressMap info := by
  rcases extractActionInfoList_cases x order with ⟨⟨z, extracted⟩, smooth⟩ | ⟨failed, missing, info, member, flows⟩
  · rw [extracted]
    exact iff_of_true trivial smooth
  · rw [failed]
    refine iff_of_false (fun safe => absurd (.inl rfl) safe) ?_
    rintro (made | flowless)
    · exact missing made
    · exact flowless info member flows

end Flows

namespace Pipeline

variable {classify : Address → Bytes → Action} {related : Bool} {p : Pipeline}

theorem nilSafe_bind_iff {computation : Except Panic α} (f : α → β) :
    NilSafe (computation >>= fun a => Except.ok (f a)) ↔ NilSafe computation := by
  cases computation with
  | error panic => exact Iff.rfl
  | ok a => exact Iff.rfl

theorem Made.step_nilSafe_iff (made : p.Made related) (s : PipelineStep) :
    NilSafe (p.step classify s) ↔ related = true ∨ p.Flowless s := by
  cases s with
  | extractTokenTx exTx =>
    rw [step, made.assign (by decide)]
    exact iff_of_true ((nilSafe_bind_iff _).mpr (extractTokenTx_indexes classify _ exTx).nilSafe) (.inr trivial)
  | extractStakeTokenTx exTx =>
    rw [step, made.assign (by decide)]
    exact iff_of_true ((nilSafe_bind_iff _).mpr (extractStakeTokenTx_indexes _ exTx).nilSafe) (.inr trivial)
  | extractActionInfoList order =>
    rw [step, made.assign (by decide), ← made.relatedToken]
    exact (nilSafe_bind_iff _).trans (extractActionInfoList_nilSafe_iff p.extractor order)
  | updateCommonAddressMap order => exact iff_of_true trivial (.inr trivial)
  | generateUserFlow sort order => exact iff_of_true trivial (.inr trivial)
  | checkAttack tokens arrangements userTokenFlowMap user => exact iff_of_true trivial (.inr trivial)
  | resetEpoch userTokenTxMap userRelatedMap => exact iff_of_true trivial (.inr trivial)

theorem Made.step (made : p.Made related) (s : PipelineStep) {value : PipelineOutput} {p' : Pipeline}
    (executed : p.step classify s = .ok (value, p')) : p'.Made related := by
  cases s with
  | extractTokenTx exTx =>
    obtain ⟨_, -, executed⟩ := bind_ok.mp executed
    obtain ⟨x, extracted, result⟩ := bind_ok.mp executed
    cases result
    rw [extractTokenTx_eq] at extracted
    obtain ⟨infos, -, rfl⟩ := map_ok.mp extracted
    refine ⟨made.fields, ?_⟩
    rw [foldl_addAction_eq]
    exact made.relatedToken
  | extractStakeTokenTx exTx =>
    obtain ⟨_, -, executed⟩ := bind_ok.mp executed
    obtain ⟨x, extracted, result⟩ := bind_ok.mp executed
    cases result
    rw [extractStakeTokenTx_eq] at extracted
    obtain ⟨stakes, -, rfl⟩ := map_ok.mp extracted
    refine ⟨made.fields, ?_⟩
    rw [foldl_applyStake_eq]
    exact made.relatedToken
  | extractActionInfoList order =>
    obtain ⟨_, -, executed⟩ := bind_ok.mp executed
    obtain ⟨x, extracted, result⟩ := bind_ok.mp executed
    cases result
    exact ⟨made.fields, (TxExtractor.extractActionInfoList_frame extracted).2.trans made.relatedToken⟩
  | updateCommonAddressMap order =>
    cases executed
    exact ⟨fun field other => Finset.mem_insert_of_mem (made.fields field other), made.relatedToken⟩
  | generateUserFlow sort order =>
    cases executed
    exact made
  | checkAttack tokens arrangements userTokenFlowMap user =>
    cases executed
    exact made
  | resetEpoch userTokenTxMap userRelatedMap =>
    cases executed
    exact ⟨fun field other => Finset.mem_insert_of_mem (Finset.mem_insert_of_mem (Finset.mem_insert_of_mem
      (made.fields field other))), made.relatedToken⟩

theorem Made.run_nilSafe_iff (made : p.Made related) (steps : List PipelineStep) :
    NilSafe (run (Pipeline.step classify) p steps) ↔
      Along (Pipeline.step classify) (fun p s => related = true ∨ p.Flowless s) p steps :=
  run_ends_iff (fun _ s made => made.step_nilSafe_iff s) (fun _ s _ _ made => made.step s) made steps

/-- The pipeline of `main` never writes to a nil map; that of `TestTask` does exactly when the actions have a flow. -/
theorem pipeline_nilSafe_iff (classify : Address → Bytes → Action) (info : ProxyInfo) (steps : List PipelineStep) :
    (∀ stableTokenMap tokenSwapMap,
      NilSafe (run (Pipeline.step classify) ((hunterMain stableTokenMap tokenSwapMap).init info) steps)) ∧
    (NilSafe (run (Pipeline.step classify) (testTask.init info) steps) ↔
      Along (Pipeline.step classify) Flowless (testTask.init info) steps) := by
  have literal : ∀ field, field ∉ [MapField.proxyABI, .lpTokenMap, .commonAddressMap] → field ∈ testTask.made := by
    intro field other
    cases field with
    | proxyABI => exact absurd (by decide) other
    | lpTokenMap => exact absurd (by decide) other
    | commonAddressMap => exact absurd (by decide) other
    | _ => decide
  constructor
  · intro stableTokenMap tokenSwapMap
    have made : ((hunterMain stableTokenMap tokenSwapMap).init info).Made true :=
      Made.init (p := hunterMain stableTokenMap tokenSwapMap) literal info
    exact (made.run_nilSafe_iff steps).mpr (Along.of_forall (fun _ _ _ => .inl rfl) _)
  · have made : (testTask.init info).Made false := Made.init literal info
    refine (made.run_nilSafe_iff steps).trans ?_
    have same : (fun (p : Pipeline) s => false = true ∨ p.Flowless s) = Flowless := by
      funext p s
      simp
    rw [same]

def etherDeposit : ExternalTx := ⟨7, 0, [⟨0x20, 0x10, true, some 1, .call, [1, 2, 3, 4], [], []⟩]⟩

theorem testTask_writes_nil_map :
    run (Pipeline.step fun _ _ => .deposit) (testTask.init ⟨[0x10], []⟩)
      [.extractTokenTx etherDeposit, .updateCommonAddressMap [0x20, 0x10], .extractActionInfoList [0]] =
        .error .nilMapWrite := by
  rfl

end Pipeline

end IDWDetector.Hunter
