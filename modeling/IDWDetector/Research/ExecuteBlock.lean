import IDWDetector.Research.ExactlyOnce
import IDWDetector.Research.SubstateDB

namespace IDWDetector

open Machine

open Machine (total total_update)

/-- What a function does to the state that the goroutines share, and how it ends. -/
structure Task (α ε : Type) where
  actions : List α
  ending : Except Panic (Option ε)

structure BlockError where
  name : String
  block : Uint64
  tx : Uint64
  err : String
deriving DecidableEq

structure SkipFlags where
  skipTransferTxs : Bool
  skipCallTxs : Bool
  skipCreateTxs : Bool

def accountCode (alloc : SubstateAlloc) (addr : Address) : Except Panic (Option Bytes) :=
  match alloc.lookup addr with
  | none => .ok none
  | some none => .error .nilDereference
  | some (some account) => .ok (some account.code)

def SkipFlags.skips (flags : SkipFlags) (substate : Substate) : Except Panic Bool :=
  match substate.message.toAddr with
  | none => .ok flags.skipCreateTxs
  | some toAddr =>
    if flags.skipTransferTxs || flags.skipCallTxs then do
      let code ← accountCode substate.inputAlloc toAddr
      if code.getD [] = [] then .ok flags.skipTransferTxs else .ok flags.skipCallTxs
    else
      .ok false

section

variable {α : Type}

/-- The loop goes on after a task without an error and after the error "not inner"; every other
    error ends it. -/
def Task.followedBy (task : Task α String) (blockError : String → BlockError) (later : Task α BlockError) :
    Task α BlockError :=
  match task.ending with
  | .error panic => ⟨task.actions, .error panic⟩
  | .ok none => ⟨task.actions ++ later.actions, later.ending⟩
  | .ok (some err) =>
    if err = "not inner" then ⟨task.actions ++ later.actions, later.ending⟩
    else ⟨task.actions, .ok (some (blockError err))⟩

def executeBlock (name : String) (flags : SkipFlags) (taskFunc : Uint64 → Uint64 → Substate → Task α String)
    (block : Uint64) : List (Uint64 × Substate) → Task α BlockError
  | [] => ⟨[], .ok none⟩
  | (tx, substate) :: rest =>
    let later := executeBlock name flags taskFunc block rest
    match flags.skips substate with
    | .error panic => ⟨[], .error panic⟩
    | .ok true => later
    | .ok false => (taskFunc block tx substate).followedBy (fun err => ⟨name, block, tx, err⟩) later

theorem Task.followedBy_done {task : Task α String} {blockError : String → BlockError} {later : Task α BlockError}
    (done : (task.followedBy blockError later).ending = .ok none) :
    (∃ err, task.ending = .ok err) ∧ later.ending = .ok none ∧
      (task.followedBy blockError later).actions = task.actions ++ later.actions := by
  unfold followedBy at done ⊢
  split at done
  · cases done
  · rename_i ending
    exact ⟨⟨_, ending⟩, done, rfl⟩
  · rename_i ending
    split at done
    · rename_i inner
      exact ⟨⟨_, ending⟩, done, by rw [if_pos inner]⟩
    · cases done

def SkipFlags.counted (flags : SkipFlags) (substates : List (Uint64 × Substate)) : List (Uint64 × Substate) :=
  substates.filter fun entry => flags.skips entry.2 = .ok false

theorem executeBlock_done {name : String} {flags : SkipFlags} {taskFunc : Uint64 → Uint64 → Substate → Task α String}
    {block : Uint64} {substates : List (Uint64 × Substate)}
    (done : (executeBlock name flags taskFunc block substates).ending = .ok none) :
    (executeBlock name flags taskFunc block substates).actions =
        (flags.counted substates).flatMap (fun entry => (taskFunc block entry.1 entry.2).actions) ∧
      ∀ entry ∈ flags.counted substates, ∃ err, (taskFunc block entry.1 entry.2).ending = .ok err := by
  induction substates with
  | nil => exact ⟨rfl, fun _ member => absurd member List.not_mem_nil⟩
  | cons entry rest ih =>
    obtain ⟨tx, substate⟩ := entry
    unfold executeBlock at done ⊢
    cases skipped : flags.skips substate with
    | error panic =>
      rw [skipped] at done
      cases done
    | ok skip =>
      rw [skipped] at done
      cases skip with
      | true =>
        have same : flags.counted ((tx, substate) :: rest) = flags.counted rest := by
          simp [SkipFlags.counted, skipped]
        rw [same]
        exact ih done
      | false =>
        have same : flags.counted ((tx, substate) :: rest) = (tx, substate) :: flags.counted rest := by
          simp [SkipFlags.counted, skipped]
        obtain ⟨ending, later, actions⟩ := Task.followedBy_done done
        obtain ⟨others, endings⟩ := ih later
        rw [same, List.flatMap_cons, ← others]
        refine ⟨actions, fun entry member => ?_⟩
        rcases List.mem_cons.mp member with rfl | member
        · exact ending
        · exact endings entry member

structure BlockOrders where
  iterator : Uint64 → List Bytes
  tx : Uint64 → List Uint64

def readAndExecute (keccak : Bytes → Hash) (db : SubstateDB) (orders : BlockOrders) (name : String) (flags : SkipFlags)
    (taskFunc : Uint64 → Uint64 → Substate → Task α String) (block : Uint64) : Task α BlockError :=
  match db.getBlockSubstates keccak (orders.iterator block) block with
  | .error panic => ⟨[], .error panic⟩
  | .ok txSubstate => executeBlock name flags taskFunc block
      ((orders.tx block).filterMap fun tx => (txSubstate.lookup tx).map (tx, ·))

end

namespace SubstateTaskPool

variable {α σ ε : Type}

/-- A pool whose blocks are tasks. A task that panics ends the program, so its worker never goes on. -/
def ofTasks (first last : Uint64) (workers : Nat) (task : Uint64 → Task α ε) (perform : α → σ → Option σ)
    (others : σ → Option σ) : SubstateTaskPool (Task α ε) σ ε where
  first := first
  last := last
  workers := workers
  start := task
  advance := fun task shared =>
    match task.actions with
    | action :: rest => (perform action shared).map fun shared => (shared, .inl ⟨rest, task.ending⟩)
    | [] =>
      match task.ending with
      | .ok err => some (shared, .inr err)
      | .error _ => none
  others := others

inductive Performed (perform : α → σ → Option σ) (others : σ → Option σ) (start : σ) : List α → σ → Prop
  | start : Performed perform others start [] start
  | act {log s t} (action : α) : Performed perform others start log s → perform action s = some t →
      Performed perform others start (log ++ [action]) t
  | other {log s t} : Performed perform others start log s → others s = some t → Performed perform others start log t

def remaining : Worker (Task α ε) ε → Multiset α
  | .executing _ task => task.actions
  | _ => 0

def Keeps (task : Uint64 → Task α ε) : Worker (Task α ε) ε → Prop
  | .executing block left => left.ending = (task block).ending
  | .sending block err => (task block).ending = .ok err
  | _ => True

section

variable {first last : Uint64} {workers : Nat} {task : Uint64 → Task α ε} {perform : α → σ → Option σ}
  {others : σ → Option σ} {start : σ}

/-- Every action of a block that a worker took has been performed once or is still to be performed. -/
structure Logged (start : σ) (s : (ofTasks first last workers task perform others).State) (log : List α) : Prop where
  performed : Performed perform others start log s.shared
  balance : (log : Multiset α) + total remaining s.worker = s.called.flatMap fun block => (task block).actions
  keeps : ∀ i, Keeps task (s.worker i)
  results : ∀ result ∈ s.results, (task result.1).ending = .ok result.2

variable {s : (ofTasks first last workers task perform others).State}

theorem Logged.update {log : List α} (before : Logged start s log) (i : Fin workers) {after : Worker (Task α ε) ε}
    (keeps : Keeps task after) :
    ∀ j, Keeps task (Function.update s.worker i after j) :=
  (Function.forall_update_iff s.worker fun _ w => Keeps task w).mpr ⟨keeps, fun j _ => before.keeps j⟩

theorem Move.logged {s t : (ofTasks first last workers task perform others).State} (move : Move _ s t) {log : List α}
    (before : Logged start s log) : ∃ log, Logged start t log := by
  have balance := before.balance
  cases move with
  | @take i block rest idle queue =>
    obtain ⟨left, was, becomes⟩ := total_update remaining s.worker i
    refine ⟨log, before.performed, ?_, before.update i rfl, before.results⟩
    rw [was, idle] at balance
    rw [becomes, List.flatMap_append, ← Multiset.coe_add, ← balance, List.flatMap_singleton]
    simp only [remaining, ofTasks]
    abel
  | @act i block left shared left' executing advanced =>
    obtain ⟨others, was, becomes⟩ := total_update remaining s.worker i
    have own := before.keeps i
    rw [executing] at own
    rw [was, executing] at balance
    obtain ⟨actions, ending⟩ := left
    cases actions with
    | nil =>
      simp only [ofTasks] at advanced
      split at advanced <;> cases advanced
    | cons action rest =>
      simp only [ofTasks, Option.map_eq_some_iff, Prod.mk.injEq, Sum.inl.injEq] at advanced
      obtain ⟨_, done, rfl, rfl⟩ := advanced
      refine ⟨log ++ [action], .act action before.performed done, ?_, before.update i own, before.results⟩
      rw [← balance, becomes, ← Multiset.coe_add, Multiset.coe_singleton]
      simp only [remaining, ← Multiset.cons_coe, ← Multiset.singleton_add]
      abel
  | @finish i block left shared err executing finished =>
    obtain ⟨others, was, becomes⟩ := total_update remaining s.worker i
    have own := before.keeps i
    rw [executing] at own
    rw [was, executing] at balance
    obtain ⟨actions, ending⟩ := left
    cases actions with
    | cons action rest => simp [ofTasks] at finished
    | nil =>
      cases ending with
      | error panic => simp [ofTasks] at finished
      | ok result =>
        simp only [ofTasks, Option.some.injEq, Prod.mk.injEq, Sum.inr.injEq] at finished
        obtain ⟨rfl, rfl⟩ := finished
        refine ⟨log, before.performed, ?_, before.update i own.symm, fun result member => ?_⟩
        · rw [← balance, becomes]
          rfl
        · rcases List.mem_append.mp member with member | member
          · exact before.results result member
          · rw [List.mem_singleton.mp member]
            exact own.symm
  | @send i block err sending room =>
    refine ⟨log, before.performed, ?_, before.update i trivial, before.results⟩
    rw [← balance, total_update_same (by rw [sending]; rfl)]
  | stopWorker i idle token =>
    refine ⟨log, before.performed, ?_, before.update i trivial, before.results⟩
    rw [← balance, total_update_same (by rw [idle]; rfl)]
  | other moved => exact ⟨log, .other before.performed moved, balance, before.keeps, before.results⟩
  | produce | stopProducer | endProducer | count | receive | fail | leave | sendStop | wait =>
    exact ⟨log, before.performed, balance, before.keeps, before.results⟩

theorem Reaches.logged (reached : Reaches _ start s) : ∃ log, Logged start s log := by
  refine reaches_invariant (fun s => ∃ log, Logged start s log) ?_ (fun s t before step => ?_) reached
  · refine ⟨[], .start, ?_, fun _ => trivial, nofun⟩
    exact (zero_add _).trans (total_eq_zero fun _ => rfl)
  · obtain ⟨log, before⟩ := before
    exact step.move.logged before

theorem Reaches.completed (bounded : last < BitVec.allOnes 64) (reached : Reaches _ start s)
    (returned : s.main = .returned none) :
    ∃ log, Performed perform others start log s.shared ∧
      log.Perm ((blocks (ofTasks first last workers task perform others)
        (numBlocks (ofTasks first last workers task perform others))).flatMap fun block => (task block).actions) ∧
      (∀ action, action ∈ log ↔ ∃ block, first ≤ block ∧ block ≤ last ∧ action ∈ (task block).actions) ∧
      ∀ block, first ≤ block → block ≤ last → (task block).ending = .ok none := by
  have bounded : (ofTasks first last workers task perform others).Bounded := bounded_of_lt bounded
  have tallied := Reaches.tallied bounded reached
  obtain ⟨received, taken, counted⟩ := tallied.counted
  rw [returned] at counted
  obtain ⟨called, results⟩ := tallied.complete bounded taken counted
  obtain ⟨log, logged⟩ := reached.logged
  have ended : total remaining s.worker = 0 := by
    have calls := tallied.balanced.calls
    have same : (s.called : Multiset Uint64) = s.results.map Prod.fst :=
      Multiset.coe_eq_coe.mpr (called.trans (counted.2.symm.trans (results.map _).symm))
    rw [← same, left_eq_add] at calls
    refine total_eq_zero fun i => ?_
    cases phase : s.worker i with
    | executing block left =>
      have member : block ∈ total Worker.runs s.worker := mem_total.mpr ⟨i, by simp [phase, Worker.runs]⟩
      rw [calls] at member
      exact absurd member (Multiset.notMem_zero block)
    | idle | sending | stopped => rfl
  have balance := logged.balance
  rw [ended, add_zero, Multiset.coe_eq_coe] at balance
  have perm := balance.trans (called.flatMap_right _)
  refine ⟨log, logged.performed, perm, fun action => ?_, fun block lower upper => ?_⟩
  · rw [perm.mem_iff, List.mem_flatMap]
    simp only [mem_blocks bounded, and_assoc]
    rfl
  · have inside := (mem_blocks bounded).mpr ⟨lower, upper⟩
    obtain ⟨result, member, rfl⟩ := List.mem_map.mp (counted.2.mem_iff.mpr inside)
    rw [logged.results result (results.mem_iff.mpr member), counted.1 result member]

end

end SubstateTaskPool

end IDWDetector
