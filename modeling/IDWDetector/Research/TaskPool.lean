import IDWDetector.Common.Types
import IDWDetector.Machine.Parties
import Mathlib.Data.Finset.Basic
import Mathlib.Data.BitVec

namespace IDWDetector

/-- A worker goroutine of `Execute`; `task` is what is left of its `ExecuteBlock` call. -/
inductive Worker (τ ε : Type)
  | idle
  | executing (block : Uint64) (task : τ)
  | sending (block : Uint64) (err : Option ε)
  | stopped
  deriving DecidableEq

def Worker.isStopped {τ ε : Type} : Worker τ ε → Bool
  | .stopped => true
  | _ => false

inductive Producer
  | producing (block : Uint64)
  | stopped
  deriving DecidableEq

/-- `Execute` itself: its counting loop, then the deferred shutdown with the stop tokens that are
    still to be sent, then its result. -/
inductive MainLoop (ε : Type)
  | counting (block : Uint64) (waitMap : Finset Uint64)
  | stopping (err : Option ε) (tokens : Nat)
  | returned (err : Option ε)
  deriving DecidableEq

/-- `start` and `advance` run one `ExecuteBlock` call in atomic steps; a step that blocks is `none`. `others` is a
    goroutine of the caller that runs beside the pool. -/
structure SubstateTaskPool (τ σ ε : Type) where
  first : Uint64
  last : Uint64
  workers : Nat
  start : Uint64 → τ
  advance : τ → σ → Option (σ × (τ ⊕ Option ε))
  others : σ → Option σ

/-- `called`, `results` and `sent` record the calls of `ExecuteBlock` and their results; no goroutine reads them. -/
structure PoolState (workers : Nat) (τ σ ε : Type) where
  workChan : List Uint64
  doneChan : List (Except ε Uint64)
  stopChan : Nat
  producer : Producer
  worker : Fin workers → Worker τ ε
  main : MainLoop ε
  shared : σ
  called : List Uint64
  results : List (Uint64 × Option ε)
  sent : List (Uint64 × Option ε)

def report {ε : Type} (result : Uint64 × Option ε) : Except ε Uint64 :=
  match result.2 with
  | some err => .error err
  | none => .ok result.1

inductive Choice (workers : Nat)
  | produce
  | stopProducer
  | endProducer
  | take (i : Fin workers)
  | act (i : Fin workers)
  | send (i : Fin workers)
  | stopWorker (i : Fin workers)
  | count
  | receive
  | leave
  | sendStop
  | wait
  | other

namespace SubstateTaskPool

variable {τ σ ε : Type} (p : SubstateTaskPool τ σ ε)

abbrev State (p : SubstateTaskPool τ σ ε) : Type := PoolState p.workers τ σ ε

def init (shared : σ) : p.State where
  workChan := []
  doneChan := []
  stopChan := 0
  producer := .producing p.first
  worker := fun _ => .idle
  main := .counting p.first ∅
  shared := shared
  called := []
  results := []
  sent := []

/-- One atomic step of the goroutine that the choice names. The channels hold 10 values a worker,
    and one stop token a worker. -/
def fire (s : p.State) : Choice p.workers → Option p.State
  | .produce =>
    match s.producer with
    | .producing block =>
      if block ≤ p.last ∧ s.workChan.length < p.workers * 10 then
        some { s with workChan := s.workChan ++ [block], producer := .producing (block + 1) }
      else
        none
    | .stopped => none
  | .stopProducer =>
    match s.producer, s.stopChan with
    | .producing block, tokens + 1 =>
      if block ≤ p.last then
        some { s with stopChan := tokens, producer := .stopped }
      else
        none
    | _, _ => none
  | .endProducer =>
    match s.producer with
    | .producing block =>
      if block ≤ p.last then
        none
      else
        some { s with producer := .stopped }
    | .stopped => none
  | .take i =>
    match s.worker i, s.workChan with
    | .idle, block :: rest =>
      some { s with
        workChan := rest
        worker := Function.update s.worker i (.executing block (p.start block))
        called := s.called ++ [block] }
    | _, _ => none
  | .act i =>
    match s.worker i with
    | .executing block task =>
      match p.advance task s.shared with
      | some (shared, .inl task) =>
        some { s with shared := shared, worker := Function.update s.worker i (.executing block task) }
      | some (shared, .inr err) =>
        some { s with
          shared := shared
          worker := Function.update s.worker i (.sending block err)
          results := s.results ++ [(block, err)] }
      | none => none
    | _ => none
  | .send i =>
    match s.worker i with
    | .sending block err =>
      if s.doneChan.length < p.workers * 10 then
        some { s with
          doneChan := s.doneChan ++ [report (block, err)]
          worker := Function.update s.worker i .idle
          sent := s.sent ++ [(block, err)] }
      else
        none
    | _ => none
  | .stopWorker i =>
    match s.worker i, s.stopChan with
    | .idle, tokens + 1 => some { s with stopChan := tokens, worker := Function.update s.worker i .stopped }
    | _, _ => none
  | .count =>
    match s.main with
    | .counting block waitMap =>
      if block ≤ p.last ∧ block ∈ waitMap then
        some { s with main := .counting (block + 1) (waitMap.erase block) }
      else
        none
    | _ => none
  | .receive =>
    match s.main, s.doneChan with
    | .counting block waitMap, data :: rest =>
      if block ≤ p.last ∧ block ∉ waitMap then
        match data with
        | .ok done => some { s with doneChan := rest, main := .counting block (insert done waitMap) }
        | .error err => some { s with doneChan := rest, main := .stopping (some err) (p.workers + 1) }
      else
        none
    | _, _ => none
  | .leave =>
    match s.main with
    | .counting block _ =>
      if block ≤ p.last then
        none
      else
        some { s with main := .stopping none (p.workers + 1) }
    | _ => none
  | .sendStop =>
    match s.main with
    | .stopping err (tokens + 1) =>
      if s.stopChan < p.workers then
        some { s with stopChan := s.stopChan + 1, main := .stopping err tokens }
      else
        none
    | _ => none
  | .wait =>
    match s.main with
    | .stopping err 0 =>
      if s.producer = .stopped ∧ ∀ i, (s.worker i).isStopped then
        some { s with main := .returned err }
      else
        none
    | _ => none
  | .other => (p.others s.shared).map fun shared => { s with shared := shared }

def Step (s t : p.State) : Prop := ∃ choice, p.fire s choice = some t

abbrev Reaches (shared : σ) (s : p.State) : Prop := Relation.ReflTransGen p.Step (p.init shared) s

/-- What a step can do, by the goroutine that makes it. -/
inductive Move (s : p.State) : p.State → Prop
  | produce {block} (producing : s.producer = .producing block) (more : block ≤ p.last)
      (room : s.workChan.length < p.workers * 10) :
      Move s { s with workChan := s.workChan ++ [block], producer := .producing (block + 1) }
  | stopProducer {block tokens} (producing : s.producer = .producing block) (more : block ≤ p.last)
      (token : s.stopChan = tokens + 1) : Move s { s with stopChan := tokens, producer := .stopped }
  | endProducer {block} (producing : s.producer = .producing block) (ended : ¬ block ≤ p.last) :
      Move s { s with producer := .stopped }
  | take (i) {block rest} (idle : s.worker i = .idle) (queue : s.workChan = block :: rest) :
      Move s { s with
        workChan := rest
        worker := Function.update s.worker i (.executing block (p.start block))
        called := s.called ++ [block] }
  | act (i) {block task shared task'} (executing : s.worker i = .executing block task)
      (advanced : p.advance task s.shared = some (shared, .inl task')) :
      Move s { s with shared := shared, worker := Function.update s.worker i (.executing block task') }
  | finish (i) {block task shared err} (executing : s.worker i = .executing block task)
      (finished : p.advance task s.shared = some (shared, .inr err)) :
      Move s { s with
        shared := shared
        worker := Function.update s.worker i (.sending block err)
        results := s.results ++ [(block, err)] }
  | send (i) {block err} (sending : s.worker i = .sending block err)
      (room : s.doneChan.length < p.workers * 10) :
      Move s { s with
        doneChan := s.doneChan ++ [report (block, err)]
        worker := Function.update s.worker i .idle
        sent := s.sent ++ [(block, err)] }
  | stopWorker (i) {tokens} (idle : s.worker i = .idle) (token : s.stopChan = tokens + 1) :
      Move s { s with stopChan := tokens, worker := Function.update s.worker i .stopped }
  | count {block waitMap} (counting : s.main = .counting block waitMap) (more : block ≤ p.last)
      (waiting : block ∈ waitMap) :
      Move s { s with main := .counting (block + 1) (waitMap.erase block) }
  | receive {block waitMap done rest} (counting : s.main = .counting block waitMap) (more : block ≤ p.last)
      (missing : block ∉ waitMap) (queue : s.doneChan = .ok done :: rest) :
      Move s { s with doneChan := rest, main := .counting block (insert done waitMap) }
  | fail {block waitMap err rest} (counting : s.main = .counting block waitMap) (more : block ≤ p.last)
      (missing : block ∉ waitMap) (queue : s.doneChan = .error err :: rest) :
      Move s { s with doneChan := rest, main := .stopping (some err) (p.workers + 1) }
  | leave {block waitMap} (counting : s.main = .counting block waitMap) (ended : ¬ block ≤ p.last) :
      Move s { s with main := .stopping none (p.workers + 1) }
  | sendStop {err tokens} (stopping : s.main = .stopping err (tokens + 1)) (room : s.stopChan < p.workers) :
      Move s { s with stopChan := s.stopChan + 1, main := .stopping err tokens }
  | wait {err} (stopping : s.main = .stopping err 0) (producer : s.producer = .stopped)
      (workers : ∀ i, (s.worker i).isStopped) : Move s { s with main := .returned err }
  | other {shared} (moved : p.others s.shared = some shared) : Move s { s with shared := shared }

theorem Step.move {p : SubstateTaskPool τ σ ε} {s t : p.State} (step : p.Step s t) : p.Move s t := by
  obtain ⟨choice, fired⟩ := step
  cases choice with
  | produce =>
    simp only [fire] at fired
    split at fired
    · split at fired
      · rename_i producing guard
        cases fired
        exact .produce producing guard.1 guard.2
      · cases fired
    · cases fired
  | stopProducer =>
    simp only [fire] at fired
    split at fired
    · split at fired
      · rename_i producing token more
        cases fired
        exact .stopProducer producing more token
      · cases fired
    · cases fired
  | endProducer =>
    simp only [fire] at fired
    split at fired
    · split at fired
      · cases fired
      · rename_i producing ended
        cases fired
        exact .endProducer producing ended
    · cases fired
  | take i =>
    simp only [fire] at fired
    split at fired
    · rename_i idle queue
      cases fired
      exact .take i idle queue
    · cases fired
  | act i =>
    simp only [fire] at fired
    split at fired
    · rename_i executing
      split at fired
      · rename_i advanced
        cases fired
        exact .act i executing advanced
      · rename_i finished
        cases fired
        exact .finish i executing finished
      · cases fired
    · cases fired
  | send i =>
    simp only [fire] at fired
    split at fired
    · split at fired
      · rename_i sending room
        cases fired
        exact .send i sending room
      · cases fired
    · cases fired
  | stopWorker i =>
    simp only [fire] at fired
    split at fired
    · rename_i idle token
      cases fired
      exact .stopWorker i idle token
    · cases fired
  | count =>
    simp only [fire] at fired
    split at fired
    · split at fired
      · rename_i counting guard
        cases fired
        exact .count counting guard.1 guard.2
      · cases fired
    · cases fired
  | receive =>
    simp only [fire] at fired
    split at fired
    · rename_i counting queue
      split at fired
      · rename_i guard
        split at fired
        · cases fired
          exact .receive counting guard.1 guard.2 queue
        · cases fired
          exact .fail counting guard.1 guard.2 queue
      · cases fired
    · cases fired
  | leave =>
    simp only [fire] at fired
    split at fired
    · split at fired
      · cases fired
      · rename_i counting ended
        cases fired
        exact .leave counting ended
    · cases fired
  | sendStop =>
    simp only [fire] at fired
    split at fired
    · split at fired
      · rename_i stopping room
        cases fired
        exact .sendStop stopping room
      · cases fired
    · cases fired
  | wait =>
    simp only [fire] at fired
    split at fired
    · split at fired
      · rename_i stopping ready
        cases fired
        exact .wait stopping ready.1 ready.2
      · cases fired
    · cases fired
  | other =>
    simp only [fire, Option.map_eq_some_iff] at fired
    obtain ⟨shared, moved, rfl⟩ := fired
    exact .other moved

def schedule (s : p.State) (choices : List (Choice p.workers)) : Option p.State :=
  choices.foldlM p.fire s

theorem schedule_reaches {p : SubstateTaskPool τ σ ε} {choices : List (Choice p.workers)} {s t : p.State}
    (ran : p.schedule s choices = some t) : Relation.ReflTransGen p.Step s t := by
  induction choices generalizing s with
  | nil =>
    cases ran
    exact .refl
  | cons choice rest ih =>
    rw [schedule, List.foldlM_cons, Option.bind_eq_bind, Option.bind_eq_some_iff] at ran
    obtain ⟨next, fired, ran⟩ := ran
    exact .head ⟨choice, fired⟩ (ih ran)

/-- A pool whose `ExecuteBlock` calls share nothing and end with the given errors. -/
def ofOutcome (first last : Uint64) (workers : Nat) (outcome : Uint64 → Option ε) :
    SubstateTaskPool Uint64 Unit ε where
  first := first
  last := last
  workers := workers
  start := id
  advance := fun block shared => some (shared, .inr (outcome block))
  others := fun _ => none

end SubstateTaskPool

end IDWDetector
