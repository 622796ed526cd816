import IDWDetector.Research.TaskPool
import Mathlib.Tactic.Abel

namespace IDWDetector

open Machine

variable {n : Nat} {τ σ ε : Type}

def Worker.runs : Worker τ ε → Multiset Uint64
  | .executing block _ => {block}
  | _ => 0

def Worker.holds : Worker τ ε → Multiset (Uint64 × Option ε)
  | .sending block err => {(block, err)}
  | _ => 0

namespace SubstateTaskPool

variable (p : SubstateTaskPool τ σ ε)

def nth (i : Nat) : Uint64 := p.first + BitVec.ofNat 64 i

def blocks (n : Nat) : List Uint64 := (List.range n).map p.nth

def numBlocks : Nat := p.last.toNat + 1 - p.first.toNat

def Bounded : Prop := p.last.toNat + 1 < 2 ^ 64

theorem nth_succ (n : Nat) : p.nth n + 1 = p.nth (n + 1) := by
  rw [nth, nth, add_assoc, BitVec.ofNat_add]
  rfl

theorem blocks_succ (n : Nat) : p.blocks (n + 1) = p.blocks n ++ [p.nth n] := by
  simp [blocks, List.range_succ]

@[simp]
theorem blocks_length (n : Nat) : (p.blocks n).length = n := by
  simp [blocks]

variable {p}

theorem bounded_of_lt (last : p.last < BitVec.allOnes 64) : p.Bounded := by
  rw [BitVec.lt_def, BitVec.toNat_allOnes] at last
  unfold Bounded
  omega

theorem nth_toNat (bounded : p.Bounded) (small : n ≤ p.numBlocks) : (p.nth n).toNat = p.first.toNat + n := by
  unfold numBlocks at small
  unfold Bounded at bounded
  rw [nth, BitVec.toNat_add, BitVec.toNat_ofNat, Nat.add_mod_mod, Nat.mod_eq_of_lt]
  omega

theorem nth_le_last (bounded : p.Bounded) (small : n ≤ p.numBlocks) : p.nth n ≤ p.last ↔ n < p.numBlocks := by
  rw [BitVec.le_def, nth_toNat bounded small, numBlocks]
  omega

theorem blocks_nodup (bounded : p.Bounded) (small : n ≤ p.numBlocks) : (p.blocks n).Nodup := by
  refine List.Nodup.map_on ?_ List.nodup_range
  intro i first j second same
  have values := congrArg BitVec.toNat same
  rw [List.mem_range] at first second
  rw [nth_toNat bounded (by omega), nth_toNat bounded (by omega)] at values
  omega

theorem mem_blocks (bounded : p.Bounded) {b : Uint64} :
    b ∈ p.blocks p.numBlocks ↔ p.first ≤ b ∧ b ≤ p.last := by
  simp only [blocks, List.mem_map, List.mem_range, BitVec.le_def]
  constructor
  · rintro ⟨i, small, rfl⟩
    rw [nth_toNat bounded small.le]
    unfold numBlocks at small
    omega
  · rintro ⟨lower, upper⟩
    have small : b.toNat - p.first.toNat < p.numBlocks := by
      unfold numBlocks
      omega
    refine ⟨b.toNat - p.first.toNat, small, BitVec.eq_of_toNat_eq ?_⟩
    rw [nth_toNat bounded small.le]
    omega

/-- The blocks that workers took and those still queued are the first `n` blocks, in order. -/
structure Dispatched (s : p.State) (n : Nat) : Prop where
  queue : s.called ++ s.workChan = p.blocks n
  next : ∀ block, s.producer = .producing block → block = p.nth n
  small : p.Bounded → n ≤ p.numBlocks

variable {s t : p.State} {received : List (Uint64 × Option ε)}

theorem Move.dispatched (move : p.Move s t) (before : Dispatched s n) : ∃ m, Dispatched t m := by
  cases move with
  | @produce block producing more room =>
    have current := before.next block producing
    subst current
    refine ⟨n + 1, ?_, ?_, fun bounded => ?_⟩
    · rw [p.blocks_succ, ← before.queue, List.append_assoc]
    · intro block same
      cases same
      exact p.nth_succ n
    · exact (nth_le_last bounded (before.small bounded)).mp more
  | stopProducer | endProducer => exact ⟨n, before.queue, nofun, before.small⟩
  | @take i block rest idle queue =>
    refine ⟨n, ?_, before.next, before.small⟩
    rw [← before.queue, queue, List.append_assoc]
    rfl
  | act | finish | send | stopWorker | count | receive | fail | leave | sendStop | wait | other =>
    exact ⟨n, before.queue, before.next, before.small⟩

/-- Each call of `ExecuteBlock` is still running or has given its result, which a worker holds or `doneChan` got. -/
structure Balanced (s : p.State) : Prop where
  calls : (s.called : Multiset Uint64) = s.results.map Prod.fst + total Worker.runs s.worker
  held : (s.results : Multiset (Uint64 × Option ε)) = s.sent + total Worker.holds s.worker

theorem Balanced.update (before : Balanced s) (i : Fin p.workers) {after : Worker τ ε}
    (moved : t.worker = Function.update s.worker i after)
    (calls : ∀ others : Multiset Uint64, (s.called : Multiset Uint64) = s.results.map Prod.fst +
      ((s.worker i).runs + others) → (t.called : Multiset Uint64) = t.results.map Prod.fst + (after.runs + others))
    (held : ∀ others : Multiset (Uint64 × Option ε), (s.results : Multiset (Uint64 × Option ε)) =
      s.sent + ((s.worker i).holds + others) →
        (t.results : Multiset (Uint64 × Option ε)) = t.sent + (after.holds + others)) :
    Balanced t := by
  obtain ⟨running, was, becomes⟩ := total_update Worker.runs s.worker i
  obtain ⟨holding, was', becomes'⟩ := total_update Worker.holds s.worker i
  constructor
  · rw [moved, becomes]
    exact calls running (was ▸ before.calls)
  · rw [moved, becomes']
    exact held holding (was' ▸ before.held)

theorem Move.balanced (move : p.Move s t) (before : Balanced s) : Balanced t := by
  cases move with
  | take i idle queue =>
    refine before.update i rfl (fun others calls => ?_) (fun others held => ?_)
    · rw [idle] at calls
      simp only [← Multiset.coe_add, calls, Worker.runs, Multiset.coe_singleton]
      abel
    · simpa [idle, Worker.holds] using held
  | act i executing advanced =>
    refine before.update i rfl (fun others calls => ?_) (fun others held => ?_)
    · simpa [executing, Worker.runs] using calls
    · simpa [executing, Worker.holds] using held
  | finish i executing finished =>
    refine before.update i rfl (fun others calls => ?_) (fun others held => ?_)
    · rw [executing] at calls
      simp only [calls, Worker.runs, List.map_append, ← Multiset.coe_add, List.map_cons, List.map_nil,
        Multiset.coe_singleton]
      abel
    · rw [executing] at held
      simp only [← Multiset.coe_add, held, Worker.holds, Multiset.coe_singleton]
      abel
  | send i sending room =>
    refine before.update i rfl (fun others calls => ?_) (fun others held => ?_)
    · simpa [sending, Worker.runs] using calls
    · rw [sending] at held
      simp only [held, ← Multiset.coe_add, Worker.holds, Multiset.coe_singleton]
      abel
  | stopWorker i idle token =>
    refine before.update i rfl (fun others calls => ?_) (fun others held => ?_)
    · simpa [idle, Worker.runs] using calls
    · simpa [idle, Worker.holds] using held
  | produce | stopProducer | endProducer | count | receive | fail | leave | sendStop | wait | other =>
    exact ⟨before.calls, before.held⟩

def Received (s : p.State) (received : List (Uint64 × Option ε)) : Prop :=
  ∃ pending, s.sent = received ++ pending ∧ s.doneChan = pending.map report

variable (p) in
def Left (received : List (Uint64 × Option ε)) : Option ε → Prop
  | none => (∀ result ∈ received, result.2 = none) ∧ (received.map Prod.fst).Perm (p.blocks p.numBlocks)
  | some err => ∃ earlier block, received = earlier ++ [(block, some err)]

variable (p) in
/-- The blocks received are those counted so far and those in `waitMap`. -/
def Counted (received : List (Uint64 × Option ε)) : MainLoop ε → Prop
  | .counting block waitMap => (∀ result ∈ received, result.2 = none) ∧
      ∃ k ≤ p.numBlocks, block = p.nth k ∧ (received.map Prod.fst : Multiset Uint64) = p.blocks k + waitMap.val
  | .stopping err _ => Left p received err
  | .returned err => Left p received err

structure Tallied (s : p.State) : Prop where
  dispatched : ∃ n, Dispatched s n
  balanced : Balanced s
  counted : ∃ received, Received s received ∧ Counted p received s.main

theorem Balanced.sent_le (balanced : Balanced s) : (s.sent.map Prod.fst : Multiset Uint64) ≤ s.called := by
  have below : (s.sent : Multiset (Uint64 × Option ε)) ≤ s.results := by
    rw [balanced.held]
    exact Multiset.le_add_right _ _
  calc (s.sent.map Prod.fst : Multiset Uint64)
      ≤ s.results.map Prod.fst := by simpa using Multiset.map_le_map below
    _ ≤ s.called := by
      rw [balanced.calls]
      exact Multiset.le_add_right _ _

theorem Dispatched.called_le (dispatched : Dispatched s n) : (s.called : Multiset Uint64) ≤ p.blocks n := by
  rw [← dispatched.queue, ← Multiset.coe_add]
  exact Multiset.le_add_right _ _

theorem Tallied.called_nodup (bounded : p.Bounded) (tallied : Tallied s) : s.called.Nodup := by
  obtain ⟨n, dispatched⟩ := tallied.dispatched
  exact Multiset.nodup_of_le dispatched.called_le (blocks_nodup bounded (dispatched.small bounded))

theorem Tallied.sent_nodup (bounded : p.Bounded) (tallied : Tallied s) : (s.sent.map Prod.fst).Nodup :=
  Multiset.nodup_of_le tallied.balanced.sent_le (tallied.called_nodup bounded)

theorem Received.keep (before : Received s received) (sent : t.sent = s.sent) (doneChan : t.doneChan = s.doneChan) :
    Received t received := by
  obtain ⟨pending, all, queue⟩ := before
  exact ⟨pending, sent.trans all, doneChan.trans queue⟩

theorem Received.next (before : Received s received) {data : Except ε Uint64} {rest : List (Except ε Uint64)}
    (queue : s.doneChan = data :: rest) :
    ∃ result pending, report result = data ∧ s.sent = received ++ [result] ++ pending ∧ rest = pending.map report := by
  obtain ⟨pending, all, waiting⟩ := before
  rw [queue] at waiting
  cases pending with
  | nil => cases waiting
  | cons result pending =>
    rw [List.map_cons, List.cons.injEq] at waiting
    exact ⟨result, pending, waiting.1.symm, by simp [all], waiting.2⟩

theorem report_ok {result : Uint64 × Option ε} {block : Uint64} (ok : report result = .ok block) :
    result = (block, none) := by
  obtain ⟨b, _ | err⟩ := result
  · cases ok
    rfl
  · cases ok

theorem report_error {result : Uint64 × Option ε} {err : ε} (failed : report result = .error err) :
    ∃ block, result = (block, some err) := by
  obtain ⟨b, _ | e⟩ := result
  · cases failed
  · cases failed
    exact ⟨b, rfl⟩

theorem Tallied.called_le (bounded : p.Bounded) (tallied : Tallied s) :
    (s.called : Multiset Uint64) ≤ p.blocks p.numBlocks := by
  obtain ⟨n, dispatched⟩ := tallied.dispatched
  refine dispatched.called_le.trans ?_
  exact ((List.range_sublist.mpr (dispatched.small bounded)).map p.nth).subperm

theorem Tallied.received_le (tallied : Tallied s) (taken : Received s received) :
    (received.map Prod.fst : Multiset Uint64) ≤ s.called := by
  obtain ⟨pending, all, -⟩ := taken
  refine le_trans ?_ tallied.balanced.sent_le
  rw [all, List.map_append, ← Multiset.coe_add]
  exact Multiset.le_add_right _ _

theorem Move.tallied (bounded : p.Bounded) (move : p.Move s t) (before : Tallied s) : Tallied t := by
  obtain ⟨n, dispatched⟩ := before.dispatched
  refine ⟨move.dispatched dispatched, move.balanced before.balanced, ?_⟩
  obtain ⟨received, taken, counted⟩ := before.counted
  cases move with
  | @send i block err sending room =>
    obtain ⟨pending, all, queue⟩ := taken
    exact ⟨received, ⟨pending ++ [(block, err)], by simp [all], by simp [queue]⟩, counted⟩
  | @count block waitMap counting more waiting =>
    rw [counting] at counted
    obtain ⟨succeeded, k, small, rfl, blocks⟩ := counted
    refine ⟨received, taken.keep rfl rfl, succeeded, k + 1, ?_, p.nth_succ k, ?_⟩
    · exact (nth_le_last bounded small).mp more
    · rw [blocks, p.blocks_succ, ← Multiset.coe_add, Finset.erase_val, add_assoc, Multiset.coe_singleton,
        Multiset.singleton_add, Multiset.cons_erase waiting]
  | @receive block waitMap done rest counting more missing queue =>
    rw [counting] at counted
    obtain ⟨succeeded, k, small, rfl, blocks⟩ := counted
    obtain ⟨result, pending, ok, all, waiting⟩ := taken.next queue
    cases report_ok ok
    have fresh : done ∉ received.map Prod.fst := by
      have distinct := before.sent_nodup bounded
      rw [all, List.map_append, List.nodup_append, List.map_append, List.nodup_append] at distinct
      intro member
      exact distinct.1.2.2 done member done (by simp) rfl
    have absent : done ∉ waitMap := by
      intro member
      apply fresh
      rw [← Multiset.mem_coe, blocks]
      exact Multiset.mem_add.mpr (.inr member)
    refine ⟨received ++ [(done, none)], ⟨pending, all, waiting⟩, ?_, k, small, rfl, ?_⟩
    · intro result member
      rcases List.mem_append.mp member with member | member
      · exact succeeded result member
      · rw [List.mem_singleton.mp member]
    · rw [List.map_append, ← Multiset.coe_add, blocks, Finset.insert_val_of_notMem absent, add_assoc,
        ← Multiset.singleton_add, add_comm waitMap.val]
      rfl
  | @fail block waitMap err rest counting more missing queue =>
    obtain ⟨result, pending, failed, all, waiting⟩ := taken.next queue
    obtain ⟨block, rfl⟩ := report_error failed
    exact ⟨received ++ [(block, some err)], ⟨pending, all, waiting⟩, received, block, rfl⟩
  | @leave block waitMap counting ended =>
    rw [counting] at counted
    obtain ⟨succeeded, k, small, rfl, blocks⟩ := counted
    have whole : k = p.numBlocks := by
      have done := mt (nth_le_last bounded small).mpr ended
      omega
    subst whole
    have size := Multiset.card_le_card ((before.received_le taken).trans (before.called_le bounded))
    rw [blocks, Multiset.card_add, Multiset.coe_card, p.blocks_length] at size
    have empty : waitMap.val = 0 := Multiset.card_eq_zero.mp (by omega)
    refine ⟨received, taken.keep rfl rfl, succeeded, ?_⟩
    rw [empty, add_zero] at blocks
    exact Multiset.coe_eq_coe.mp blocks
  | sendStop stopping room =>
    rw [stopping] at counted
    exact ⟨received, taken.keep rfl rfl, counted⟩
  | wait stopping producer workers =>
    rw [stopping] at counted
    exact ⟨received, taken.keep rfl rfl, counted⟩
  | produce | stopProducer | endProducer | take | act | finish | stopWorker | other =>
    exact ⟨received, taken.keep rfl rfl, counted⟩

theorem init_tallied (shared : σ) : Tallied (p.init shared) where
  dispatched := ⟨0, rfl, fun block same => by cases same; simp [nth], fun _ => Nat.zero_le _⟩
  balanced := by
    constructor
    · exact (zero_add _).trans (total_eq_zero fun _ => rfl) |>.symm
    · exact (zero_add _).trans (total_eq_zero fun _ => rfl) |>.symm
  counted := by
    refine ⟨[], ⟨[], rfl, rfl⟩, nofun, 0, Nat.zero_le _, by simp [nth], rfl⟩

theorem Reaches.tallied (bounded : p.Bounded) {shared : σ} (reached : p.Reaches shared s) : Tallied s :=
  reaches_invariant Tallied (init_tallied shared)
    (fun _ _ before step => Move.tallied bounded step.move before) reached

theorem Reaches.stopped {shared : σ} (reached : p.Reaches shared s) {err : Option ε}
    (returned : s.main = .returned err) (i : Fin p.workers) : (s.worker i).isStopped := by
  refine reaches_invariant (fun s : p.State => ∀ err, s.main = .returned err → ∀ i, (s.worker i).isStopped)
    ?_ (fun s t before step => ?_) reached err returned i
  · intro err impossible
    cases impossible
  · intro err returned i
    cases step.move with
    | take j phase | act j phase | finish j phase | send j phase | stopWorker j phase =>
      have still := before err returned j
      rw [phase] at still
      cases still
    | count | receive | fail | leave | sendStop => cases returned
    | wait stopping producer workers => exact workers i
    | produce | stopProducer | endProducer | other => exact before err returned i

theorem Tallied.complete (bounded : p.Bounded) (tallied : Tallied s) (taken : Received s received)
    (left : Left p received none) :
    s.called.Perm (p.blocks p.numBlocks) ∧ s.results.Perm received := by
  have whole : (received.map Prod.fst : Multiset Uint64) = p.blocks p.numBlocks := Multiset.coe_eq_coe.mpr left.2
  have called : (s.called : Multiset Uint64) = p.blocks p.numBlocks :=
    le_antisymm (tallied.called_le bounded) (whole ▸ tallied.received_le taken)
  obtain ⟨pending, all, -⟩ := taken
  have below : (received : Multiset (Uint64 × Option ε)) ≤ s.results := by
    rw [tallied.balanced.held, all, ← Multiset.coe_add, add_assoc]
    exact Multiset.le_add_right _ _
  have calls := congrArg Multiset.card tallied.balanced.calls
  have counts := congrArg Multiset.card (whole.trans called.symm)
  simp only [Multiset.card_add, Multiset.coe_card, List.length_map] at calls counts
  have same : (received : Multiset (Uint64 × Option ε)) = s.results :=
    Multiset.eq_of_le_of_card_le below (by simp only [Multiset.coe_card]; omega)
  exact ⟨Multiset.coe_eq_coe.mp called, Multiset.coe_eq_coe.mp same.symm⟩

/-- When `Execute` returns nil, `ExecuteBlock` was called once for each block of the range and returned nil;
    otherwise the error is one that it returned, and no block was executed twice. -/
theorem execute_exactly_once (p : SubstateTaskPool τ σ ε) (last : p.last < BitVec.allOnes 64) {shared : σ}
    {s : p.State} (reached : p.Reaches shared s) :
    (s.main = .returned none →
      (∀ b, s.called.count b = if p.first ≤ b ∧ b ≤ p.last then 1 else 0) ∧
        s.results.Perm (s.called.map fun b => (b, none))) ∧
    (∀ err, s.main = .returned (some err) → s.called.Nodup ∧ ∃ b, (b, some err) ∈ s.results) := by
  have bounded := bounded_of_lt last
  have tallied := reached.tallied bounded
  obtain ⟨received, taken, counted⟩ := tallied.counted
  constructor
  · intro returned
    rw [returned] at counted
    obtain ⟨called, results⟩ := tallied.complete bounded taken counted
    constructor
    · intro b
      rw [called.count_eq]
      by_cases inside : p.first ≤ b ∧ b ≤ p.last
      · rw [if_pos inside]
        exact List.count_eq_one_of_mem (blocks_nodup bounded le_rfl) ((mem_blocks bounded).mpr inside)
      · rw [if_neg inside]
        exact List.count_eq_zero_of_not_mem (mt (mem_blocks bounded).mp inside)
    · have succeeded : received = (received.map Prod.fst).map fun b => (b, none) := by
        rw [List.map_map]
        refine (List.map_congr_left (g := id) fun result member => ?_).trans (List.map_id _) |>.symm
        exact Prod.ext rfl (counted.1 result member).symm
      rw [succeeded] at results
      exact results.trans ((counted.2.trans called.symm).map _)
  · intro err returned
    rw [returned] at counted
    obtain ⟨earlier, block, rfl⟩ := counted
    obtain ⟨pending, all, -⟩ := taken
    refine ⟨tallied.called_nodup bounded, block, ?_⟩
    rw [← Multiset.mem_coe, tallied.balanced.held, all]
    simp

def twoBlocks : SubstateTaskPool Uint64 Unit Unit := ofOutcome 5 6 2 fun _ => none

def swapped : List (Choice 2) :=
  [.produce, .take 0, .produce, .take 1, .act 1, .send 1, .receive, .act 0, .send 0, .endProducer, .receive,
    .count, .count, .leave, .sendStop, .sendStop, .stopWorker 0, .sendStop, .stopWorker 1, .wait]

theorem execute_exactly_once_swapped :
    ∃ s, twoBlocks.Reaches () s ∧ s.main = .returned none ∧
      s.called.count 5 = 1 ∧ s.called.count 6 = 1 ∧ s.called.count 7 = 0 := by
  have returns : ((twoBlocks.schedule (twoBlocks.init ()) swapped).any fun s => s.main = .returned none) = true := by
    decide +kernel
  obtain ⟨s, ran, returned⟩ := (Option.any_eq_true _ _).mp returns
  have reached := schedule_reaches ran
  have ended := of_decide_eq_true returned
  have counts := ((execute_exactly_once twoBlocks (by decide) reached).1 ended).1
  exact ⟨s, reached, ended, counts 5, counts 6, counts 7⟩

end SubstateTaskPool

end IDWDetector
