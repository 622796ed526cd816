import IDWDetector.Research.ExactlyOnce

namespace IDWDetector

open Machine

variable {block : Uint64} {τ σ ε : Type}

def Worker.stops : Worker τ ε → Nat
  | .stopped => 1
  | _ => 0

theorem Worker.stops_le (w : Worker τ ε) : w.stops ≤ 1 := by
  cases w <;> simp [Worker.stops]

theorem Worker.total_of_stopped {workers : Nat} {worker : Fin workers → Worker τ ε}
    (stopped : ∀ i, worker i = .stopped) : total Worker.stops worker = workers := by
  simp [total, stopped, Worker.stops]

theorem Worker.stopped_of_total {workers : Nat} {worker : Fin workers → Worker τ ε}
    (all : workers ≤ total Worker.stops worker) (i : Fin workers) : worker i = .stopped := by
  obtain ⟨rest, was, becomes⟩ := total_update Worker.stops worker i
  have most := total_le Worker.stops Worker.stops_le (Function.update worker i .stopped)
  rw [becomes, Fintype.card_fin] at most
  simp only [Worker.stops] at most
  cases phase : worker i with
  | stopped => rfl
  | idle | executing | sending =>
    rw [was, phase] at all
    simp only [Worker.stops] at all
    omega

def Producer.stops : Producer → Nat
  | .stopped => 1
  | .producing _ => 0

namespace SubstateTaskPool

variable {p : SubstateTaskPool τ σ ε}

/-- Where the stop tokens are: after the shutdown has begun each one is still to be sent, in `stopChan`, or was
    taken by a worker that has stopped or by the producer. -/
def Tokens (s : p.State) : Prop :=
  match s.main with
  | .counting _ _ => s.stopChan = 0 ∧ total Worker.stops s.worker = 0 ∧
      (s.producer = .stopped → ¬ p.nth (s.called ++ s.workChan).length ≤ p.last)
  | .stopping _ tokens => s.stopChan + total Worker.stops s.worker + tokens ≤ p.workers + 1 ∧
      p.workers + 1 ≤ s.stopChan + total Worker.stops s.worker + tokens + s.producer.stops
  | .returned _ => True

theorem Tokens.keep {s t : p.State} (before : Tokens s) (main : t.main = s.main) (stopChan : t.stopChan = s.stopChan)
    (stops : total Worker.stops t.worker = total Worker.stops s.worker) (producer : t.producer = s.producer)
    (queue : (t.called ++ t.workChan).length = (s.called ++ s.workChan).length) : Tokens t := by
  unfold Tokens at before ⊢
  rw [main, stopChan, stops, producer, queue]
  exact before

theorem Move.tokens {s t : p.State} (move : p.Move s t) (dispatched : ∃ n, Dispatched s n) (before : Tokens s) :
    Tokens t := by
  cases move with
  | produce producing more room =>
    unfold Tokens at before ⊢
    rw [producing] at before
    cases phase : s.main with
    | counting block waitMap =>
      rw [phase] at before
      exact ⟨before.1, before.2.1, nofun⟩
    | stopping err tokens =>
      rw [phase] at before
      exact before
    | returned err => trivial
  | stopProducer producing more token =>
    unfold Tokens at before ⊢
    rw [producing, token] at before
    cases phase : s.main with
    | counting block waitMap =>
      rw [phase] at before
      cases before.1
    | stopping err tokens =>
      rw [phase] at before
      simp only [Producer.stops] at before ⊢
      omega
    | returned err => trivial
  | @endProducer block producing ended =>
    unfold Tokens at before ⊢
    rw [producing] at before
    cases phase : s.main with
    | counting current waitMap =>
      rw [phase] at before
      obtain ⟨n, dispatched⟩ := dispatched
      refine ⟨before.1, before.2.1, fun _ => ?_⟩
      rw [dispatched.queue, p.blocks_length, ← dispatched.next block producing]
      exact ended
    | stopping err tokens =>
      rw [phase] at before
      simp only [Producer.stops] at before ⊢
      omega
    | returned err => trivial
  | take i idle queue =>
    refine before.keep rfl rfl (total_update_same (by rw [idle]; rfl)) rfl ?_
    simp [queue, Nat.add_assoc, Nat.add_comm]
  | act i executing advanced => exact before.keep rfl rfl (total_update_same (by rw [executing]; rfl)) rfl rfl
  | finish i executing finished => exact before.keep rfl rfl (total_update_same (by rw [executing]; rfl)) rfl rfl
  | send i sending room => exact before.keep rfl rfl (total_update_same (by rw [sending]; rfl)) rfl rfl
  | stopWorker i idle token =>
    unfold Tokens at before ⊢
    obtain ⟨rest, was, becomes⟩ := total_update Worker.stops s.worker i
    rw [was, idle, token] at before
    simp only [becomes]
    cases phase : s.main with
    | counting block waitMap =>
      rw [phase] at before
      cases before.1
    | stopping err tokens =>
      rw [phase] at before
      simp only [Worker.stops] at before ⊢
      omega
    | returned err => trivial
  | count counting more waiting | receive counting more missing queue =>
    unfold Tokens at before ⊢
    rw [counting] at before
    exact before
  | fail counting more missing queue | leave counting ended =>
    unfold Tokens at before ⊢
    rw [counting] at before
    obtain ⟨empty, running, -⟩ := before
    simp only [empty, running]
    omega
  | sendStop stopping room =>
    unfold Tokens at before ⊢
    rw [stopping] at before
    simp only at before ⊢
    omega
  | wait => trivial
  | other => exact before.keep rfl rfl rfl rfl rfl

variable {s : p.State}

theorem Balanced.in_flight (balanced : Balanced s) : s.called.length ≤ s.sent.length + p.workers := by
  have calls := congrArg Multiset.card balanced.calls
  have held := congrArg Multiset.card balanced.held
  simp only [Multiset.card_add, Multiset.coe_card, List.length_map, card_total] at calls held
  have busy := total_le (fun w : Worker τ ε => w.runs.card + w.holds.card)
    (fun w => by cases w <;> simp [Worker.runs, Worker.holds]) s.worker
  rw [← total_add, Fintype.card_fin] at busy
  omega

theorem Balanced.holds_called (balanced : Balanced s) {i : Fin p.workers} {err : Option ε}
    (sending : s.worker i = .sending block err) : block ∈ s.called := by
  have result : (block, err) ∈ s.results := by
    rw [← Multiset.mem_coe, balanced.held, Multiset.mem_add]
    exact .inr (mem_total.mpr ⟨i, by simp [sending, Worker.holds]⟩)
  rw [← Multiset.mem_coe, balanced.calls, Multiset.mem_add]
  exact .inl (Multiset.mem_coe.mpr (List.mem_map_of_mem result))

theorem Dispatched.mem_called {n : Nat} (dispatched : Dispatched s n) (member : block ∈ s.called) :
    ∃ i < s.called.length, block = p.nth i := by
  obtain ⟨i, small, rfl⟩ := List.mem_iff_getElem.mp member
  refine ⟨i, small, ?_⟩
  have same : (s.called ++ s.workChan)[i]? = (p.blocks n)[i]? := by rw [dispatched.queue]
  have inside : i < n := by
    have size := congrArg List.length dispatched.queue
    rw [List.length_append, p.blocks_length] at size
    omega
  rw [List.getElem?_append_left small, List.getElem?_eq_getElem small,
    List.getElem?_eq_getElem (by simpa using inside)] at same
  simpa [blocks] using same

/-- A result put into `doneChan` as number `k` is that of one of the first `k + workers` blocks. -/
def Ordered (s : p.State) : Prop :=
  ∀ k result, s.sent[k]? = some result → ∃ i < s.called.length, result.1 = p.nth i ∧ i + 1 ≤ k + p.workers

theorem Move.ordered {s t : p.State} (move : p.Move s t) (dispatched : ∃ n, Dispatched s n) (balanced : Balanced s)
    (before : Ordered s) : Ordered t := by
  cases move with
  | take i idle queue =>
    intro k result found
    obtain ⟨i, small, rest⟩ := before k result found
    exact ⟨i, by simpa using Nat.lt_succ_of_lt small, rest⟩
  | @send i block err sending room =>
    intro k result found
    rcases Nat.lt_or_ge k s.sent.length with earlier | later
    · rw [List.getElem?_append_left earlier] at found
      exact before k result found
    · rw [List.getElem?_append_right later, List.getElem?_singleton] at found
      split at found
      · cases found
        obtain ⟨n, dispatched⟩ := dispatched
        obtain ⟨j, small, same⟩ := dispatched.mem_called (balanced.holds_called sending)
        have flight := balanced.in_flight
        exact ⟨j, small, same, by omega⟩
      · cases found
  | produce | stopProducer | endProducer | act | finish | stopWorker | count | receive | fail | leave | sendStop
  | wait | other => exact before

theorem Tallied.received_room (bounded : p.Bounded) (tallied : Tallied s) {received : List (Uint64 × Option ε)}
    (taken : Received s received) {i : Fin p.workers} {err : Option ε} (sending : s.worker i = .sending block err) :
    received.length + s.doneChan.length + 1 ≤ p.numBlocks := by
  obtain ⟨pending, all, queue⟩ := taken
  have calls := congrArg Multiset.card tallied.balanced.calls
  have held := congrArg Multiset.card tallied.balanced.held
  have range := Multiset.card_le_card (tallied.called_le bounded)
  have own : 1 ≤ total (fun w : Worker τ ε => w.holds.card) s.worker := by
    refine le_trans ?_ (le_total _ s.worker i)
    rw [sending]
    rfl
  simp only [Multiset.card_add, Multiset.coe_card, List.length_map, card_total, blocks_length] at calls held range
  rw [all, List.length_append] at held
  rw [queue, List.length_map]
  omega

def Stuck (s : p.State) : Prop := ∀ t, ¬ p.Step s t

theorem Stuck.silent (stuck : Stuck s) (choice : Choice p.workers) : p.fire s choice = none := by
  cases fired : p.fire s choice with
  | none => rfl
  | some t => exact absurd ⟨choice, fired⟩ (stuck t)

section Stuck

variable (stuck : Stuck s)
include stuck

theorem Stuck.not_executing (runs : ∀ task shared, p.advance task shared ≠ none) (i : Fin p.workers) (block : Uint64)
    (task : τ) : s.worker i ≠ .executing block task := by
  intro executing
  have blocked := stuck.silent (.act i)
  simp only [fire, executing] at blocked
  split at blocked
  · cases blocked
  · cases blocked
  · exact runs _ _ ‹_›

variable {waitMap : Finset Uint64}

theorem Stuck.full {i : Fin p.workers} {err : Option ε} (sending : s.worker i = .sending block err) :
    p.workers * 10 ≤ s.doneChan.length := by
  have blocked := stuck.silent (.send i)
  simp only [fire, sending] at blocked
  split at blocked
  · cases blocked
  · omega

theorem Stuck.not_idle {i : Fin p.workers} (idle : s.worker i = .idle) : s.workChan = [] ∧ s.stopChan = 0 := by
  have blocked := stuck.silent (.take i)
  have blocked' := stuck.silent (.stopWorker i)
  constructor
  · cases queue : s.workChan with
    | nil => rfl
    | cons block rest => simp [fire, idle, queue] at blocked
  · cases token : s.stopChan with
    | zero => rfl
    | succ tokens => simp [fire, idle, token] at blocked'

theorem Stuck.producing (producing : s.producer = .producing block) :
    block ≤ p.last ∧ s.stopChan = 0 ∧ p.workers * 10 ≤ s.workChan.length := by
  have more : block ≤ p.last := by
    by_contra ended
    have blocked := stuck.silent .endProducer
    simp [fire, producing, ended] at blocked
  have blocked := stuck.silent .produce
  have blocked' := stuck.silent .stopProducer
  refine ⟨more, ?_, ?_⟩
  · cases token : s.stopChan with
    | zero => rfl
    | succ tokens => simp [fire, producing, token, more] at blocked'
  · by_contra room
    simp [fire, producing, more, Nat.lt_of_not_le room] at blocked

theorem Stuck.counting (counting : s.main = .counting block waitMap) :
    block ≤ p.last ∧ block ∉ waitMap ∧ s.doneChan = [] := by
  have more : block ≤ p.last := by
    by_contra ended
    have blocked := stuck.silent .leave
    simp [fire, counting, ended] at blocked
  have missing : block ∉ waitMap := by
    intro waiting
    have blocked := stuck.silent .count
    simp [fire, counting, more, waiting] at blocked
  have blocked := stuck.silent .receive
  refine ⟨more, missing, ?_⟩
  cases queue : s.doneChan with
  | nil => rfl
  | cons data rest => cases data <;> simp [fire, counting, queue, more, missing] at blocked

variable (workers : 0 < p.workers) (runs : ∀ task shared, p.advance task shared ≠ none)
include workers runs

theorem Stuck.counting_idle (tokens : Tokens s) (counting : s.main = .counting block waitMap) :
    (∀ i, s.worker i = .idle) ∧ s.workChan = [] ∧ s.producer = .stopped := by
  have empty := (stuck.counting counting).2.2
  simp only [Tokens, counting] at tokens
  have idle (i : Fin p.workers) : s.worker i = .idle := by
    cases phase : s.worker i with
    | idle => rfl
    | executing current task => exact absurd phase (stuck.not_executing runs i current task)
    | sending current err =>
      have full := stuck.full phase
      rw [empty, List.length_nil] at full
      omega
    | stopped =>
      have one := le_total Worker.stops s.worker i
      rw [tokens.2.1, phase] at one
      simp [Worker.stops] at one
  have taken := (stuck.not_idle (idle ⟨0, workers⟩)).1
  refine ⟨idle, taken, ?_⟩
  cases phase : s.producer with
  | stopped => rfl
  | producing next =>
    have full := (stuck.producing phase).2.2
    rw [taken, List.length_nil] at full
    omega

theorem Stuck.stopping_full (tokens : Tokens s) {err : Option ε} {left : Nat} (stopping : s.main = .stopping err left) :
    (∃ i block result, s.worker i = .sending block result) ∧ p.workers * 10 ≤ s.doneChan.length := by
  suffices sends : ∃ i block result, s.worker i = .sending block result by
    obtain ⟨i, block, result, sending⟩ := sends
    exact ⟨⟨i, block, result, sending⟩, stuck.full sending⟩
  by_contra nobody
  simp only [Tokens, stopping] at tokens
  have capacity := total_le Worker.stops Worker.stops_le s.worker
  rw [Fintype.card_fin] at capacity
  have stopped (token : s.stopChan ≠ 0) (i : Fin p.workers) : s.worker i = .stopped := by
    cases phase : s.worker i with
    | idle => exact absurd (stuck.not_idle phase).2 token
    | executing block task => exact absurd phase (stuck.not_executing runs i block task)
    | sending block result => exact absurd ⟨i, block, result, phase⟩ nobody
    | stopped => rfl
  have ended (token : s.stopChan ≠ 0) : s.producer = .stopped := by
    cases phase : s.producer with
    | producing block => exact absurd (stuck.producing phase).2.1 token
    | stopped => rfl
  cases left with
  | zero =>
    have all : s.producer = .stopped ∧ ∀ i, s.worker i = .stopped := by
      by_cases token : s.stopChan = 0
      · have most : s.producer.stops ≤ 1 := by cases s.producer <;> simp [Producer.stops]
        refine ⟨?_, fun i => Worker.stopped_of_total (by omega) i⟩
        cases phase : s.producer with
        | producing block =>
          rw [phase] at tokens
          simp only [Producer.stops] at tokens
          omega
        | stopped => rfl
      · exact ⟨ended token, stopped token⟩
    have blocked := stuck.silent .wait
    simp [fire, stopping, all.1, all.2, Worker.isStopped] at blocked
  | succ left =>
    have blocked := stuck.silent .sendStop
    have crowded : p.workers ≤ s.stopChan := by
      by_contra room
      simp [fire, stopping, Nat.lt_of_not_le room] at blocked
    have every := Worker.total_of_stopped (stopped (by omega))
    omega

theorem Stuck.not_counting (bounded : p.Bounded) (tokens : Tokens s) (tallied : Tallied s)
    (counting : s.main = .counting block waitMap) : False := by
  obtain ⟨more, missing, empty⟩ := stuck.counting counting
  obtain ⟨idle, taken, ended⟩ := stuck.counting_idle workers runs tokens counting
  simp only [Tokens, counting] at tokens
  obtain ⟨n, dispatched⟩ := tallied.dispatched
  have whole : n = p.numBlocks := by
    have exhausted := tokens.2.2 ended
    rw [dispatched.queue, p.blocks_length, nth_le_last bounded (dispatched.small bounded)] at exhausted
    exact le_antisymm (dispatched.small bounded) (Nat.le_of_not_lt exhausted)
  obtain ⟨received, ⟨pending, all, queue⟩, counted⟩ := tallied.counted
  rw [counting] at counted
  obtain ⟨-, k, small, rfl, blocks⟩ := counted
  have here : p.nth k ∈ received.map Prod.fst := by
    have calls := tallied.balanced.calls
    have held := tallied.balanced.held
    rw [total_eq_zero fun i => by rw [idle]; rfl, add_zero, Multiset.coe_eq_coe] at calls held
    rw [empty, eq_comm, List.map_eq_nil_iff] at queue
    have called := dispatched.queue
    rw [taken, List.append_nil, whole] at called
    rw [queue, List.append_nil] at all
    rw [← all, ← (held.map Prod.fst).mem_iff, ← calls.mem_iff, called]
    exact List.mem_map_of_mem (List.mem_range.mpr ((nth_le_last bounded small).mp more))
  rw [← Multiset.mem_coe, blocks, Multiset.mem_add] at here
  rcases here with counted | waiting
  · have distinct := blocks_nodup bounded ((nth_le_last bounded small).mp more)
    rw [p.blocks_succ, List.nodup_append] at distinct
    exact distinct.2.2 _ counted _ (List.mem_singleton_self _) rfl
  · exact missing waiting

end Stuck

section Outcome

variable {first last : Uint64} {workers : Nat} {outcome : Uint64 → Option ε}

def Follows (outcome : Uint64 → Option ε) : Worker Uint64 ε → Prop
  | .executing block task => task = block
  | .sending block err => err = outcome block
  | _ => True

structure Honest (s : (ofOutcome first last workers outcome).State) : Prop where
  worker : ∀ i, Follows outcome (s.worker i)
  results : ∀ result ∈ s.results, result.2 = outcome result.1
  reports : ∀ err, .error err ∈ s.doneChan → ∃ block, outcome block = some err

theorem Honest.update {s : (ofOutcome first last workers outcome).State} (before : Honest s) (i : Fin workers)
    {after : Worker Uint64 ε} (follows : Follows outcome after) :
    ∀ j, Follows outcome (Function.update s.worker i after j) :=
  (Function.forall_update_iff s.worker fun _ w => Follows outcome w).mpr ⟨follows, fun j _ => before.worker j⟩

theorem Move.honest {s t : (ofOutcome first last workers outcome).State} (move : Move _ s t) (before : Honest s) :
    Honest t := by
  cases move with
  | take i idle queue => exact ⟨before.update i rfl, before.results, before.reports⟩
  | act i executing advanced => cases advanced
  | @finish i block task shared err executing finished =>
    have own := before.worker i
    rw [executing] at own
    cases own
    cases finished
    refine ⟨before.update i rfl, fun result member => ?_, before.reports⟩
    rcases List.mem_append.mp member with member | member
    · exact before.results result member
    · rw [List.mem_singleton.mp member]
  | @send i block err sending room =>
    have own := before.worker i
    rw [sending] at own
    refine ⟨before.update i trivial, before.results, fun err member => ?_⟩
    rcases List.mem_append.mp member with member | member
    · exact before.reports err member
    · obtain ⟨_, failed⟩ := report_error (List.mem_singleton.mp member).symm
      cases failed
      exact ⟨block, own.symm⟩
  | stopWorker i idle token => exact ⟨before.update i trivial, before.results, before.reports⟩
  | receive counting more missing queue | fail counting more missing queue =>
    refine ⟨before.worker, before.results, fun err member => before.reports err ?_⟩
    rw [queue]
    exact List.mem_cons_of_mem _ member
  | produce | stopProducer | endProducer | count | leave | sendStop | wait | other =>
    exact ⟨before.worker, before.results, before.reports⟩

structure Running (s : (ofOutcome first last workers outcome).State) : Prop where
  dispatched : ∃ n, Dispatched s n
  balanced : Balanced s
  tokens : Tokens s
  ordered : Ordered s
  honest : Honest s

theorem Reaches.running {s : (ofOutcome first last workers outcome).State} (reached : Reaches _ () s) : Running s := by
  refine reaches_invariant Running ?_ (fun s t before step => ?_) reached
  · have tallied := init_tallied (p := ofOutcome first last workers outcome) ()
    refine ⟨tallied.dispatched, tallied.balanced, ⟨rfl, total_eq_zero fun _ => rfl, nofun⟩, ?_, ?_⟩
    · intro k result found
      simp [init] at found
    · exact ⟨fun _ => trivial, by simp [init], by simp [init]⟩
  · obtain ⟨n, dispatched⟩ := before.dispatched
    have move := step.move
    exact ⟨move.dispatched dispatched, move.balanced before.balanced, move.tokens before.dispatched before.tokens,
      move.ordered before.dispatched before.balanced before.ordered, move.honest before.honest⟩

theorem ofOutcome_runs (task : Uint64) (shared : Unit) :
    (ofOutcome first last workers outcome).advance task shared ≠ none := nofun

theorem le_allOnes (b : Uint64) : b ≤ BitVec.allOnes 64 := by
  rw [BitVec.le_def, BitVec.toNat_allOnes]
  omega

theorem Reaches.endless {s : (ofOutcome first (BitVec.allOnes 64) workers outcome).State}
    (succeeds : ∀ b, outcome b = none) (reached : Reaches _ () s) :
    ∃ block waitMap, s.main = .counting block waitMap := by
  induction reached with
  | refl => exact ⟨first, ∅, rfl⟩
  | @tail s t reached step ih =>
    obtain ⟨block, waitMap, counting⟩ := ih
    have honest := (Reaches.running reached).honest
    cases step.move with
    | count _ more waiting => exact ⟨_, _, rfl⟩
    | receive _ more missing queue => exact ⟨_, _, rfl⟩
    | @fail _ _ err rest _ more missing queue =>
      obtain ⟨failed, some⟩ := honest.reports err (by simp [queue])
      rw [succeeds] at some
      cases some
    | leave _ ended => exact absurd (le_allOnes _) ended
    | sendStop stopping => rw [stopping] at counting; cases counting
    | wait stopping => rw [stopping] at counting; cases counting
    | produce | stopProducer | endProducer | take | act | finish | send | stopWorker | other =>
      exact ⟨block, waitMap, counting⟩

/-- The blocks still to be executed when the first error is received fit into `doneChan`. -/
def Survivable (p : SubstateTaskPool Uint64 Unit ε) (outcome : Uint64 → Option ε) : Prop :=
  (p.last = BitVec.allOnes 64 ∧ ∀ b, outcome b = none) ∨
    (p.last < BitVec.allOnes 64 ∧ ∀ i < p.numBlocks, outcome (p.nth i) ≠ none →
      p.numBlocks ≤ p.workers * 10 + 1 + (i + 1 - p.workers))

/-- In every interleaving of a pool whose errors are survivable, some goroutine can move until
    `Execute` has returned. -/
theorem execute_never_stuck (first last : Uint64) (workers : Nat) (outcome : Uint64 → Option ε)
    (positive : 0 < workers) (survivable : Survivable (ofOutcome first last workers outcome) outcome)
    {s : (ofOutcome first last workers outcome).State} (reached : Reaches _ () s)
    (waiting : ∀ err, s.main ≠ .returned err) : ∃ t, Step _ s t := by
  by_contra none
  have stuck : Stuck s := fun t step => none ⟨t, step⟩
  have running := reached.running
  rcases survivable with ⟨endless, succeeds⟩ | ⟨ends, survives⟩
  · change last = _ at endless
    subst endless
    obtain ⟨block, waitMap, counting⟩ := reached.endless succeeds
    have ended := (stuck.counting_idle positive ofOutcome_runs running.tokens counting).2.2
    have tokens := running.tokens
    simp only [Tokens, counting] at tokens
    exact tokens.2.2 ended (le_allOnes _)
  · have bounded := bounded_of_lt ends
    have tallied := reached.tallied bounded
    cases phase : s.main with
    | counting block waitMap => exact stuck.not_counting positive ofOutcome_runs bounded running.tokens tallied phase
    | stopping err left =>
      obtain ⟨⟨i, block, result, sending⟩, full⟩ := stuck.stopping_full positive ofOutcome_runs running.tokens phase
      obtain ⟨received, taken, counted⟩ := tallied.counted
      have room := tallied.received_room bounded taken sending
      rw [phase] at counted
      change workers * 10 ≤ _ at full
      cases err with
      | none =>
        have size := counted.2.length_eq
        rw [List.length_map, blocks_length] at size
        omega
      | some err =>
        obtain ⟨earlier, failed, rfl⟩ := counted
        obtain ⟨pending, all, -⟩ := taken
        obtain ⟨i, called, same, order⟩ := running.ordered earlier.length (failed, some err) (by simp [all])
        have member : (failed, some err) ∈ s.results := by
          rw [← Multiset.mem_coe, tallied.balanced.held, all]
          simp
        have outcome := running.honest.results _ member
        have range := Multiset.card_le_card (tallied.called_le bounded)
        simp only [Multiset.coe_card, blocks_length] at range
        have few := survives i (by omega) (by rw [← same, ← outcome]; nofun)
        rw [List.length_append, List.length_singleton] at room
        change i + 1 ≤ _ + workers at order
        change _ ≤ workers * 10 + 1 + (i + 1 - workers) at few
        omega
    | returned err => exact waiting err phase

end Outcome

def firstFails (last : Uint64) : SubstateTaskPool Uint64 Unit Unit :=
  ofOutcome 1 last 1 fun block => if block = 1 then some () else none

def oneBlock : List (Choice 1) := [.produce, .take 0, .act 0, .send 0]

theorem execute_never_stuck_error :
    ∃ s t, (firstFails 11).Reaches () s ∧ s.main = .stopping (some ()) 2 ∧ (firstFails 11).Step s t := by
  have fails : (((firstFails 11).schedule ((firstFails 11).init ()) (oneBlock ++ [.receive])).any
      fun s => s.main = .stopping (some ()) 2) = true := by
    decide +kernel
  obtain ⟨s, ran, stopping⟩ := (Option.any_eq_true _ _).mp fails
  have reached := schedule_reaches ran
  have phase := of_decide_eq_true stopping
  have survivable : Survivable (firstFails 11) fun block => if block = 1 then some () else none := by
    refine .inr ⟨by decide, fun i _ _ => ?_⟩
    show 11 ≤ 1 * 10 + 1 + (i + 1 - 1)
    omega
  obtain ⟨t, step⟩ := execute_never_stuck 1 11 1 _ (by decide) survivable reached (by rw [phase]; nofun)
  exact ⟨s, t, reached, phase, step⟩

/-- Twelve blocks, one worker: after the error ten results fill `doneChan`, and the worker waits for ever, as does
    the shutdown. -/
theorem execute_gets_stuck :
    ∃ s, (firstFails 12).Reaches () s ∧ (∀ err, s.main ≠ .returned err) ∧ Stuck s := by
  have blocks : (((firstFails 12).schedule ((firstFails 12).init ()) (oneBlock ++ [.receive] ++
      (List.replicate 10 oneBlock).flatten ++ [.produce, .take 0, .act 0, .endProducer, .sendStop])).any
      fun s => s.main = .stopping (some ()) 1 ∧ s.stopChan = 1 ∧ s.producer = .stopped ∧
        s.worker (0 : Fin 1) = .sending 12 none ∧ s.doneChan.length = 10) = true := by
    decide +kernel
  obtain ⟨s, ran, state⟩ := (Option.any_eq_true _ _).mp blocks
  obtain ⟨stopping, tokens, ended, sending, full⟩ := of_decide_eq_true state
  have worker (i : Fin 1) : s.worker i = .sending 12 none := by rwa [Subsingleton.elim i 0]
  refine ⟨s, schedule_reaches ran, by rw [stopping]; nofun, fun t step => ?_⟩
  cases step.move with
  | produce phase | stopProducer phase | endProducer phase => rw [ended] at phase; cases phase
  | take i phase | act i phase | finish i phase | stopWorker i phase => rw [worker i] at phase; cases phase
  | send i phase room => rw [full] at room; exact absurd room (by decide)
  | count phase | receive phase | fail phase | leave phase => rw [stopping] at phase; cases phase
  | sendStop phase room => rw [tokens] at room; exact absurd room (by decide)
  | wait phase => rw [stopping] at phase; cases phase
  | other moved => cases moved

end SubstateTaskPool

end IDWDetector
