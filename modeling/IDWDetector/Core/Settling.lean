import IDWDetector.Core.CallTree
import IDWDetector.Vm.Settling

namespace IDWDetector.Core

open State State.StateDB Vm Machine

/-- The code of the message leaves nothing open, or its frame is rolled back. -/
def Execution.settles (ctx : Context) (msg : Message) (execution : Execution) : Bool :=
  let self := StateTransition.self msg execution
  let outcome := execution.script.outcome false self
  let err := if msg.toAddr = none then EVM.deployError ctx.chain outcome.ret execution.paid outcome.err else outcome.err
  let rolledBack := if msg.toAddr = none then EVM.rollsBack ctx.chain err else err.isSome
  rolledBack || execution.script.settles ctx.chain false self

namespace StateTransition

variable {ctx : Context} {msg : Message} {execution : Execution} {origin : Origin} {st st' : StateTransition}

/-- Between two messages: no frame is open, and the journal holds nothing that a closed
    transaction would not have left. -/
structure Ready (origin : Origin) (st : StateTransition) : Prop where
  idle : st.evm.callStack = []
  writable : st.evm.readOnly = false
  numbered : st.evm.stateDB.Numbered
  reverts : st.evm.stateDB.RevertsTo origin
  harmless : ∀ entry ∈ st.evm.stateDB.journal.entries, entry.harmless = true

theorem Ready.plain {s : StateDB} (ready : Ready origin st) (plain : Plain st.evm.stateDB s)
    (same : st'.evm = { st.evm with stateDB := s }) : Ready origin st' := by
  refine ⟨?_, ?_, ?_, ?_, ?_⟩ <;> rw [same]
  · exact ready.idle
  · exact ready.writable
  · exact plain.logged.numbered ready.numbered
  · exact plain.reverts origin ready.reverts
  · exact plain.adds.entries.all ready.harmless

theorem close_plain {returned : Returned} {result : Except TransitionError ExecutionResult}
    (closed : st.close ctx msg returned = .ok (result, st')) :
    ∃ s, Plain st.evm.stateDB s ∧ st'.evm = { st.evm with stateDB := s } ∧ st'.accessList = st.accessList := by
  obtain ⟨refunded, refund, later⟩ := bind_ok.mp closed
  obtain ⟨rewarded, tipped, last⟩ := bind_ok.mp later
  have first : ∃ amount, refunded.evm =
      { st.evm with stateDB := st.evm.stateDB.addBalance ctx.chain.keccak msg.fromAddr amount } ∧
      refunded.accessList = st.accessList := by
    simp only [refundGas] at refund
    generalize (if st.evm.stateDB.refund < st.gasUsed / (if ctx.chain.isLondon then refundQuotientEIP3529
      else refundQuotient) then st.evm.stateDB.refund else st.gasUsed / (if ctx.chain.isLondon then
      refundQuotientEIP3529 else refundQuotient)) = amount at refund
    split at refund
    · cases refund
    · cases refund
      exact ⟨_, rfl, rfl⟩
  have second : ∃ amount, rewarded.evm =
      { refunded.evm with stateDB := refunded.evm.stateDB.addBalance ctx.chain.keccak ctx.coinbase amount } ∧
      rewarded.accessList = refunded.accessList := by
    unfold reward at tipped
    split at tipped
    · cases fee : ctx.baseFee with
      | none =>
        rw [fee] at tipped
        cases tipped
      | some baseFee =>
        rw [fee] at tipped
        cases tipped
        exact ⟨_, rfl, rfl⟩
    · cases tipped
      exact ⟨_, rfl, rfl⟩
  obtain ⟨amount, same, kept⟩ := first
  obtain ⟨amount', same', kept'⟩ := second
  have left : st' = rewarded := by
    split at last <;> cases last <;> rfl
  rw [left]
  refine ⟨_, (addBalance_plain ctx.chain.keccak st.evm.stateDB msg.fromAddr amount).trans
    (addBalance_plain ctx.chain.keccak _ ctx.coinbase amount'), ?_, kept'.trans kept⟩
  rw [same', same]

theorem attempt_settling (st : StateTransition) (settles : execution.settles ctx msg = true) :
    SettlingLoop (st.attempt ctx msg execution).rolledBack (false || (st.attempt ctx msg execution).readOnly)
      (EVM.exec ctx.chain execution.script (self msg execution) []) := by
  apply (exec_settles ctx.chain execution.script).settlingLoop
  unfold Execution.settles at settles
  unfold attempt
  cases target : msg.toAddr with
  | none =>
    simp only [target, if_true] at settles
    exact settles
  | some addr =>
    simp only [target, reduceCtorEq, if_false] at settles
    exact settles

variable (ready : Ready origin st) (settles : execution.settles ctx msg = true)
include ready settles

theorem Ready.execute {r : Returned} (executed : st.execute ctx msg execution = .ok r) :
    Ready origin { st with evm := r.evm } := by
  obtain ⟨s, calm, same⟩ := start_calm msg st
  have started : Ready origin { st with evm := st.start msg } := ready.plain calm.plain same
  have sound := attempt_sound ctx msg execution st
  have inFrame : (st.start msg).callStack = [] → ∀ evm', (st.attempt ctx msg execution).opening ≠ .codeless evm' := by
    intro idle evm' opening
    rw [execute_codeless idle opening] at executed
    cases executed
  rw [execute_eq] at executed
  have settling := attempt_settling st settles
  rw [← started.writable] at settling
  have extended := sound.finish_extends settling started.numbered executed
  have safe := sound.finish_safe (exec_safe ctx.chain execution.script (self msg execution) []) started.numbered
    started.reverts inFrame
  rw [executed] at safe
  obtain ⟨kids, added, step⟩ := sound.finish_step started.numbered (exec_runs ctx.chain _) executed
  have frames := step.returns.frames
  rw [started.idle] at frames
  exact ⟨(Prod.mk.inj frames).1, step.returns.readOnly.trans started.writable, step.logged.numbered started.numbered,
    safe, extended.all started.harmless⟩

theorem Ready.run {test : Bool} {result : Except TransitionError ExecutionResult}
    (ran : st.run ctx msg execution test = .ok (result, st')) :
    Ready origin st' ∧ (ctx.isBerlin = false → st'.accessList = st.accessList) := by
  rw [run_eq] at ran
  obtain ⟨first, preChecked, later⟩ := bind_ok.mp ran
  cases found : andThen (andThen first (payIntrinsicGas ctx msg)) (checkValue msg) with
  | mk err middle =>
    have checks : st.checks ctx msg test = .ok (err, middle) := by
      rw [StateTransition.checks, preChecked, ← found]
      rfl
    have checked := checks_checked checks
    obtain ⟨s, calm, same⟩ := checked.state
    have ready' : Ready origin middle := ready.plain calm.plain same
    cases err with
    | some err =>
      rw [transition_failed found] at later
      cases later
      exact ⟨ready', fun _ => checked.accessList⟩
    | none =>
      obtain ⟨left, kept, passed⟩ := transition_passed execution found
      rw [passed] at later
      obtain ⟨r, executed, closed⟩ := bind_ok.mp later
      obtain ⟨s', plain, same', accessList⟩ := close_plain closed
      have after := ready'.execute settles executed
      have left' : Ready origin (left r) := by
        obtain ⟨idle, writable, numbered, reverts, harmless⟩ := after
        refine ⟨?_, ?_, ?_, ?_, ?_⟩ <;> rw [(kept r).1] <;> assumption
      refine ⟨left'.plain plain same', fun earlier => ?_⟩
      rw [accessList, (kept r).2 earlier]
      exact checked.accessList

end StateTransition

end IDWDetector.Core
