import IDWDetector.Research.Clone

namespace IDWDetector.Replay

open IDWDetector

structure ReplayForkStat where
  count : Int
  errStr : String
deriving DecidableEq

/-- What applying the message under the rules of the fork gave: an error of `ApplyMessage`, or a result. -/
inductive ForkRun
  | rejected (err : String)
  | ran (vmErr : Option String) (evmResult : SubstateResult) (evmAlloc : SubstateAlloc)
  | panicked (panic : Panic)

def receiptStatusSuccessful : Uint64 := 1

def receiptStatusFailed : Uint64 := 0

def errReplayForkInvalidAlloc : String := "invalid alloc in replay-fork"

def errReplayForkMoreGas : String := "more gas in replay-fork"

def errReplayForkLessGas : String := "less gas in replay-fork"

def errReplayForkMisc : String := "misc in replay-fork"

def errorHead (err : String) : String := String.ofList (err.toList.takeWhile (· ≠ ':'))

def sameAccount : Option SubstateAccount → Option SubstateAccount → Bool
  | some account1, some account2 =>
    decide (account1.nonce = account2.nonce ∧ account1.code = account2.code ∧
        account1.storage.len = account2.storage.len) &&
      !Go.Map.anyKey account1.storage.keys fun k => account2.storage.lookup k ≠ account1.storage.lookup k
  | _, _ => false

/-- The error string with which `replayForkTask` counts a transaction whose outcome changed. -/
def assess (output : SubstateResult) (outputAlloc : SubstateAlloc) (vmErr : Option String) (evmResult : SubstateResult)
    (evmAlloc : SubstateAlloc) : Option String :=
  if output.equal evmResult && SubstateAlloc.equal outputAlloc evmAlloc then none
  else if output.status = receiptStatusSuccessful ∧ evmResult.status = receiptStatusSuccessful then
    if outputAlloc.len ≠ evmAlloc.len then some errReplayForkInvalidAlloc
    else if Go.Map.anyKey outputAlloc.keys fun addr =>
        sameAccount (outputAlloc.getD addr none) (evmAlloc.getD addr none) = false then some errReplayForkInvalidAlloc
    else if output.gasUsed < evmResult.gasUsed then some errReplayForkMoreGas
    else if evmResult.gasUsed < output.gasUsed then some errReplayForkLessGas
    else some errReplayForkMisc
  else if output.status = receiptStatusSuccessful ∧ evmResult.status = receiptStatusFailed then
    some (vmErr.getD "<nil>")
  else some errReplayForkMisc

def forkErrStr (substate : Substate) : ForkRun → Option String
  | .rejected err => some (errorHead err)
  | .ran vmErr evmResult evmAlloc => assess substate.result substate.outputAlloc vmErr evmResult evmAlloc
  | .panicked _ => none

def replayForkTask (run : Uint64 → Uint64 → Substate → ForkRun) (block tx : Uint64) (substate : Substate) :
    Task ReplayForkStat String where
  actions := (forkErrStr substate (run block tx substate)).toList.map fun errStr => ⟨1, errStr⟩
  ending :=
    match run block tx substate with
    | .panicked panic => .error panic
    | _ => .ok none

structure Stats where
  statChan : List ReplayForkStat
  statMap : Go.Map String ReplayForkStat

def Stats.send (stat : ReplayForkStat) (stats : Stats) : Option Stats :=
  if stats.statChan.length < 1000000 then some { stats with statChan := stats.statChan ++ [stat] } else none

def Stats.aggregate (stats : Stats) : Option Stats :=
  match stats.statChan with
  | [] => none
  | stat :: rest =>
    let entry := (stats.statMap.lookup stat.errStr).getD ⟨0, stat.errStr⟩
    some ⟨rest, stats.statMap.set stat.errStr { entry with count := entry.count + stat.count }⟩

/-- The command removes the underscores from its arguments. -/
def forkRange (firstArg lastArg : Bytes) : Except CloneError (Uint64 × Uint64) :=
  cloneRange (firstArg.filter (· ≠ 0x5f)) (lastArg.filter (· ≠ 0x5f))

/-- What the command runs on: the substates, the iteration orders, the flags and what the messages do. -/
structure ForkCommand where
  keccak : Bytes → Hash
  db : SubstateDB
  orders : BlockOrders
  flags : SkipFlags
  run : Uint64 → Uint64 → Substate → ForkRun
  first : Uint64
  last : Uint64
  workers : Nat

namespace ForkCommand

variable (c : ForkCommand)

def block : Uint64 → Task ReplayForkStat BlockError :=
  readAndExecute c.keccak c.db c.orders "substate-cli replay-fork" c.flags (replayForkTask c.run)

def pool : SubstateTaskPool (Task ReplayForkStat BlockError) Stats BlockError :=
  .ofTasks c.first c.last c.workers c.block Stats.send Stats.aggregate

/-- `replayForkAction`: the pool, whether the channel is closed, whether `statWg.Done` was called, and whether
    `statWg.Wait` has returned. -/
structure State where
  pool : c.pool.State
  closed : Bool
  drained : Bool
  waited : Bool

def init : c.State := ⟨c.pool.init ⟨[], .empty⟩, false, false, false⟩

inductive Step (s : c.State) : c.State → Prop
  | pool {t} (step : c.pool.Step s.pool t) : Step s { s with pool := t }
  | close (returned : s.pool.main = .returned none) (unclosed : s.closed = false) : Step s { s with closed := true }
  | drain (closed : s.closed = true) (empty : s.pool.shared.statChan = []) : Step s { s with drained := true }
  | wait {err} (returned : s.pool.main = .returned err) (closed : err = none → s.closed = true)
      (drained : s.drained = true) : Step s { s with waited := true }

abbrev Reaches (s : c.State) : Prop := Relation.ReflTransGen c.Step c.init s

def replayed : List (Uint64 × Uint64 × Substate) :=
  (c.pool.blocks c.pool.numBlocks).flatMap fun block =>
    match c.db.getBlockSubstates c.keccak (c.orders.iterator block) block with
    | .error _ => []
    | .ok txSubstate =>
      (c.flags.counted ((c.orders.tx block).filterMap fun tx => (txSubstate.lookup tx).map (tx, ·))).map (block, ·)

def statCount (errStr : String) : Nat :=
  c.replayed.countP fun (block, tx, substate) => forkErrStr substate (c.run block tx substate) = some errStr

end ForkCommand

def entryFor (n : Nat) (errStr : String) : Option ReplayForkStat := if n = 0 then none else some ⟨n, errStr⟩

theorem performed_stats {log : List ReplayForkStat} {stats : Stats} (single : ∀ stat ∈ log, stat.count = 1)
    (performed : SubstateTaskPool.Performed Stats.send Stats.aggregate ⟨[], .empty⟩ log stats) :
    ∃ handled, log = handled ++ stats.statChan ∧ ∀ errStr,
      stats.statMap.lookup errStr = entryFor (handled.countP fun stat => stat.errStr = errStr) errStr := by
  induction performed with
  | start => exact ⟨[], rfl, fun _ => rfl⟩
  | @act log s t stat _ sent ih =>
    obtain ⟨handled, rfl, entries⟩ := ih fun stat member => single stat (List.mem_append_left _ member)
    unfold Stats.send at sent
    split at sent
    · cases sent
      exact ⟨handled, List.append_assoc _ _ _, entries⟩
    · cases sent
  | @other log s t _ moved ih =>
    obtain ⟨handled, rfl, entries⟩ := ih single
    unfold Stats.aggregate at moved
    split at moved
    · cases moved
    · rename_i stat rest queue
      cases moved
      refine ⟨handled ++ [stat], by simp [queue], fun errStr => ?_⟩
      have one : stat.count = 1 := single stat (by simp [queue])
      rw [Go.Map.lookup_set, List.countP_append]
      by_cases same : errStr = stat.errStr
      · subst same
        simp only [if_true, entries, entryFor, one]
        split <;> simp_all
      · have other : ¬ stat.errStr = errStr := fun equal => same equal.symm
        simp [same, other, entries]

theorem replayForkTask_single {run : Uint64 → Uint64 → Substate → ForkRun} {block tx : Uint64} {substate : Substate}
    {stat : ReplayForkStat} (member : stat ∈ (replayForkTask run block tx substate).actions) : stat.count = 1 := by
  obtain ⟨errStr, -, rfl⟩ := List.mem_map.mp member
  rfl

theorem countP_replayForkTask (run : Uint64 → Uint64 → Substate → ForkRun) (block : Uint64)
    (entries : List (Uint64 × Substate)) (errStr : String) :
    (entries.flatMap fun entry => (replayForkTask run block entry.1 entry.2).actions).countP
        (fun stat => stat.errStr = errStr) =
      entries.countP fun entry => forkErrStr entry.2 (run block entry.1 entry.2) = some errStr := by
  induction entries with
  | nil => rfl
  | cons entry rest ih =>
    rw [List.flatMap_cons, List.countP_append, ih, List.countP_cons, Nat.add_comm]
    congr 1
    simp only [replayForkTask]
    cases forkErrStr entry.2 (run block entry.1 entry.2) with
    | none => rfl
    | some err => simp [List.countP_cons]

namespace ForkCommand

variable {c : ForkCommand}

theorem block_done {block : Uint64} (done : (c.block block).ending = .ok none) :
    ∃ txSubstate, c.db.getBlockSubstates c.keccak (c.orders.iterator block) block = .ok txSubstate ∧
      (c.block block).actions = (c.flags.counted ((c.orders.tx block).filterMap fun tx =>
        (txSubstate.lookup tx).map (tx, ·))).flatMap
          fun entry => (replayForkTask c.run block entry.1 entry.2).actions := by
  unfold ForkCommand.block readAndExecute at done ⊢
  cases collected : c.db.getBlockSubstates c.keccak (c.orders.iterator block) block with
  | error panic =>
    rw [collected] at done
    cases done
  | ok txSubstate =>
    simp only [collected] at done ⊢
    exact ⟨txSubstate, rfl, (executeBlock_done done).1⟩

theorem countP_blocks {blocks : List Uint64} (done : ∀ block ∈ blocks, (c.block block).ending = .ok none)
    (errStr : String) :
    (blocks.flatMap fun block => (c.block block).actions).countP (fun stat => stat.errStr = errStr) =
      (blocks.flatMap fun block =>
        match c.db.getBlockSubstates c.keccak (c.orders.iterator block) block with
        | .error _ => []
        | .ok txSubstate => (c.flags.counted ((c.orders.tx block).filterMap fun tx =>
            (txSubstate.lookup tx).map (tx, ·))).map (block, ·)).countP
        fun (block, tx, substate) => forkErrStr substate (c.run block tx substate) = some errStr := by
  induction blocks with
  | nil => rfl
  | cons block rest ih =>
    obtain ⟨txSubstate, collected, actions⟩ := block_done (done block List.mem_cons_self)
    rw [List.flatMap_cons, List.flatMap_cons, List.countP_append, List.countP_append,
      ih fun block member => done block (List.mem_cons_of_mem _ member), actions, countP_replayForkTask]
    simp only [collected, List.countP_map]
    rfl

/-- The pool is in one of its own states; the channel is closed after `Execute` has returned nil, and
    the aggregating goroutine ends after that. -/
structure Ordered (s : c.State) : Prop where
  pool : c.pool.Reaches ⟨[], .empty⟩ s.pool
  closed : s.closed = true → s.pool.main = .returned none
  drained : s.drained = true → s.closed = true ∧ s.pool.shared.statChan = []
  waited : s.waited = true → s.drained = true

theorem returned_step {p t : c.pool.State} (reached : c.pool.Reaches ⟨[], .empty⟩ p) (step : c.pool.Step p t)
    {err : Option BlockError} (returned : p.main = .returned err) :
    t.main = .returned err ∧ (p.shared.statChan = [] → t.shared.statChan = []) := by
  have stopped := reached.stopped returned
  cases step.move with
  | take i phase | act i phase | finish i phase | send i phase | stopWorker i phase =>
    have still := stopped i
    rw [phase] at still
    cases still
  | count phase | receive phase | fail phase | leave phase | sendStop phase | wait phase =>
    rw [returned] at phase
    cases phase
  | other moved =>
    refine ⟨returned, fun empty => ?_⟩
    have impossible : Stats.aggregate p.shared = some _ := moved
    rw [Stats.aggregate, empty] at impossible
    cases impossible
  | produce | stopProducer | endProducer => exact ⟨returned, id⟩

theorem Step.ordered {s t : c.State} (step : c.Step s t) (before : Ordered s) : Ordered t := by
  cases step with
  | pool step =>
    refine ⟨before.pool.tail step, fun closed => ?_, fun drained => ?_, before.waited⟩
    · exact (returned_step before.pool step (before.closed closed)).1
    · obtain ⟨closed, empty⟩ := before.drained drained
      exact ⟨closed, (returned_step before.pool step (before.closed closed)).2 empty⟩
  | close returned unclosed =>
    exact ⟨before.pool, fun _ => returned, fun drained => ⟨rfl, (before.drained drained).2⟩, before.waited⟩
  | drain closed empty => exact ⟨before.pool, before.closed, fun _ => ⟨closed, empty⟩, fun _ => rfl⟩
  | wait returned closed drained => exact ⟨before.pool, before.closed, before.drained, fun _ => drained⟩

theorem Reaches.ordered {s : c.State} (reached : c.Reaches s) : Ordered s := by
  refine Machine.reaches_invariant Ordered ?_ (fun _ _ before step => step.ordered before) reached
  refine ⟨.refl, fun closed => ?_, fun drained => ?_, fun waited => ?_⟩
  · cases closed
  · cases drained
  · cases waited

end ForkCommand

/-- No task sends a stat after the channel is closed, and after `statWg.Wait` the map holds under every error string
    the number of replayed transactions with it. -/
theorem no_stat_lost (c : ForkCommand) {firstArg lastArg : Bytes}
    (parsed : forkRange firstArg lastArg = .ok (c.first, c.last)) {s : c.State} (reached : c.Reaches s) :
    (s.closed = true → ∀ i block task, s.pool.worker i ≠ .executing block task) ∧
    (s.waited = true → s.pool.main = .returned none → ∀ errStr,
      s.pool.shared.statMap.lookup errStr = entryFor (c.statCount errStr) errStr) := by
  have ordered := reached.ordered
  constructor
  · intro closed i block task executing
    have stopped := ordered.pool.stopped (ordered.closed closed) i
    rw [executing] at stopped
    cases stopped
  · intro waited returned errStr
    have empty := (ordered.drained (ordered.waited waited)).2
    have bounded : c.last < BitVec.allOnes 64 := cloneRange_ok parsed
    obtain ⟨log, performed, perm, members, endings⟩ :=
      SubstateTaskPool.Reaches.completed bounded ordered.pool returned
    have done : ∀ block ∈ c.pool.blocks c.pool.numBlocks, (c.block block).ending = .ok none := by
      intro block member
      have range := (SubstateTaskPool.mem_blocks (p := c.pool) (SubstateTaskPool.bounded_of_lt bounded)).mp member
      exact endings block range.1 range.2
    have single : ∀ stat ∈ log, stat.count = 1 := by
      intro stat member
      obtain ⟨block, lower, upper, sent⟩ := (members stat).mp member
      obtain ⟨txSubstate, -, actions⟩ := ForkCommand.block_done (endings block lower upper)
      rw [actions, List.mem_flatMap] at sent
      obtain ⟨entry, -, sent⟩ := sent
      exact replayForkTask_single sent
    obtain ⟨handled, split, entries⟩ := performed_stats single performed
    rw [empty, List.append_nil] at split
    rw [entries, ← split, perm.countP_eq, ForkCommand.statCount, ForkCommand.replayed,
      ← ForkCommand.countP_blocks done]
    rfl

def rejecting : ForkCommand where
  keccak := stopKeccak
  db := oneSubstate
  orders := oneOrders.toBlockOrders
  flags := ⟨false, false, false⟩
  run := fun _ _ _ => .rejected "insufficient funds"
  first := 5
  last := 5
  workers := 1

theorem rejecting_statCount : rejecting.statCount (errorHead "insufficient funds") = 1 := by
  have start : SubstateDB.NoDangling stopKeccak ⟨.empty⟩ := by
    rintro key value ⟨⟩
  have noDangling : oneSubstate.NoDangling stopKeccak := DbOp.run_noDangling start onePut_valid 4
  obtain ⟨txSubstate, collected, -, entries⟩ :=
    SubstateDB.getBlockSubstates_agrees (oneOrders_iterates 5) (noDangling.legible.readable (oneOrders_iterates 5))
  obtain ⟨substate, found⟩ : ∃ substate, txSubstate.lookup 0 = some substate :=
    ⟨_, (entries 0 _).mpr oneSubstate_getSubstate⟩
  have blocks : rejecting.pool.blocks rejecting.pool.numBlocks = [5] := by decide
  have counted : SkipFlags.counted ⟨false, false, false⟩ ((oneOrders.tx 5).filterMap fun tx =>
      (txSubstate.lookup tx).map (tx, ·)) = [(0, substate)] := by
    have order : oneOrders.tx 5 = [0] := rfl
    rw [order]
    simp only [List.filterMap_cons, found, Option.map_some, List.filterMap_nil, SkipFlags.counted, List.filter_cons,
      skips_never, decide_true, if_true, List.filter_nil]
  rw [ForkCommand.statCount, ForkCommand.replayed, blocks]
  simp only [List.flatMap_cons, List.flatMap_nil, List.append_nil, rejecting, collected, counted, List.map_cons,
    List.map_nil, List.countP_singleton, forkErrStr, decide_true, if_true]

theorem no_stat_lost_rejecting :
    ∃ s : rejecting.State, rejecting.Reaches s ∧ s.waited = true ∧ s.pool.main = .returned none ∧
      s.pool.shared.statMap.lookup (errorHead "insufficient funds") =
        some ⟨1, errorHead "insufficient funds"⟩ := by
  have returns : ((rejecting.pool.schedule (rejecting.pool.init ⟨[], .empty⟩)
      ([.produce, .take 0, .act 0, .act 0, .send 0, .other, .endProducer, .receive, .count, .leave, .sendStop,
        .stopWorker 0, .sendStop, .wait] : List (Choice 1))).any
      fun s => s.main = .returned none ∧ s.shared.statChan = []) = true := by
    decide +kernel
  obtain ⟨p, ran, state⟩ := (Option.any_eq_true _ _).mp returns
  obtain ⟨returned, empty⟩ := of_decide_eq_true state
  have executed : rejecting.Reaches ⟨p, false, false, false⟩ :=
    (SubstateTaskPool.schedule_reaches ran).lift (fun p => (⟨p, false, false, false⟩ : rejecting.State))
      fun _ _ step => .pool step
  have reached : rejecting.Reaches ⟨p, true, true, true⟩ :=
    ((executed.tail (.close returned rfl)).tail (.drain rfl empty)).tail (.wait returned (fun _ => rfl) rfl)
  have parsed : forkRange [0x35] [0x35] = .ok (rejecting.first, rejecting.last) := by decide
  refine ⟨_, reached, rfl, returned, ?_⟩
  rw [(no_stat_lost rejecting parsed reached).2 rfl returned, rejecting_statCount]
  rfl

end IDWDetector.Replay
