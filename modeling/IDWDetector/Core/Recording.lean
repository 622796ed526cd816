import IDWDetector.Core.CallTree

namespace IDWDetector.Vm.EVM

open State State.StateDB

/-- A call that is not refused and has no code to run: the account exists, or is made because of the value or of the
    rules before EIP-158. -/
def callsBare (chain : Chain) (evm : EVM) (caller addr : Address) (value : Int) : Bool :=
  !chain.precompile addr && decide (evm.stateDB.codeAt addr = []) &&
    ((evm.stateDB.exist addr).1 || !chain.isEIP158 || decide (value ≠ 0)) &&
    (decide (value = 0) || decide (value ≤ (evm.stateDB.getBalance caller).1))

section Opening

variable {chain : Chain} {evm : EVM} {caller addr : Address} {value : Int} (revertible : evm.stateDB.Revertible)
include revertible

theorem enterCall_codeless_iff {snapshot : Nat} {present : Bool}
    (missing : present = false → evm.stateDB.codeAt addr = []) :
    (∃ evm', enterCall chain evm snapshot present caller addr value = .codeless evm') ↔
      (!chain.precompile addr && decide (evm.stateDB.codeAt addr = []) &&
        (present || !chain.isEIP158 || decide (value ≠ 0))) = true := by
  let made : StateDB := if present then evm.stateDB else evm.stateDB.createAccount addr
  have revertible' : made.Revertible := by
    simp only [made]
    split
    · exact revertible
    · exact (createAccount_plain evm.stateDB addr).revertible revertible
  have code : made.codeAt addr = evm.stateDB.codeAt addr := by
    cases present with
    | true => rfl
    | false =>
      rw [missing rfl]
      exact createAccount_codeAt revertible addr
  have paid := (subBalance_calm made caller value).trans (addBalance_calm chain.keccak _ addr value)
  have last : (((made.subBalance caller value).addBalance chain.keccak addr value).getCode addr).1 =
      evm.stateDB.codeAt addr := (paid.code revertible' addr).trans code
  have moved : ((if present then evm else { evm with stateDB := evm.stateDB.createAccount addr }).transfer chain.keccak
      caller addr value).stateDB = (made.subBalance caller value).addBalance chain.keccak addr value := by
    cases present with
    | true => rfl
    | false => rfl
  unfold enterCall
  simp only [moved, last]
  cases chain.precompile addr with
  | true => simp
  | false =>
    by_cases empty : evm.stateDB.codeAt addr = []
    · by_cases refused : (!present && !false && chain.isEIP158 && decide (value = 0)) = true
      · rw [if_pos refused]
        simp only [Bool.not_false, Bool.and_true, Bool.and_eq_true, Bool.not_eq_true', decide_eq_true_eq] at refused
        simp [refused]
      · rw [if_neg refused]
        simp only [Bool.not_false, Bool.and_true, Bool.and_eq_true, Bool.not_eq_true',
          decide_eq_true_eq, not_and] at refused
        simp only [empty, if_true, Bool.false_eq_true, if_false, Opening.codeless.injEq, exists_eq', Bool.not_false,
          decide_true, Bool.true_and, ne_eq, Bool.or_eq_true, Bool.not_eq_true', decide_eq_true_eq, true_iff]
        cases present with
        | true => exact .inl (.inl rfl)
        | false =>
          cases eip : chain.isEIP158 with
          | false => exact .inl (.inr rfl)
          | true => exact .inr (refused ⟨rfl, eip⟩)
    · simp only [empty, if_false, decide_false, Bool.and_false, Bool.false_and, Bool.false_eq_true, iff_false]
      split
      · simp
      · simp

theorem enterCall_snapshot_codeless_iff {s : StateDB} (calm : Calm evm.stateDB s)
    (same : (s.exist addr).1 = (evm.stateDB.exist addr).1) :
    (∃ evm', enterCall chain { evm with stateDB := (s.snapshot.2.exist addr).2 } s.snapshot.1
      (s.snapshot.2.exist addr).1 caller addr value = .codeless evm') ↔
    (!chain.precompile addr && decide (evm.stateDB.codeAt addr = []) &&
      ((evm.stateDB.exist addr).1 || !chain.isEIP158 || decide (value ≠ 0))) = true := by
  have found := (calm.trans (snapshot_calm s)).trans (exist_calm s.snapshot.2 addr)
  have present : (s.snapshot.2.exist addr).1 = (evm.stateDB.exist addr).1 :=
    (exist_snapshot (calm.plain.revertible revertible) addr).trans same
  have code : (s.snapshot.2.exist addr).2.codeAt addr = evm.stateDB.codeAt addr := found.code revertible addr
  rw [enterCall_codeless_iff (found.plain.revertible revertible)]
  · rw [code, present]
  · intro absent
    rw [code]
    by_contra coded
    rw [present, exist_of_codeAt evm.stateDB addr coded] at absent
    cases absent

theorem openCall_codeless_iff (shallow : evm.depth ≤ callCreateDepth) :
    (∃ evm', evm.openCall chain caller addr value = .codeless evm') ↔ evm.callsBare chain caller addr value = true := by
  unfold openCall callsBare
  rw [if_neg (Nat.not_lt.mpr shallow)]
  by_cases zero : value = 0
  · simp only [zero, if_true, decide_true, Bool.true_or, Bool.and_true]
    exact enterCall_snapshot_codeless_iff revertible (.refl _) rfl
  · simp only [zero, if_false, canTransfer, decide_false, Bool.false_or]
    by_cases funded : value ≤ (evm.stateDB.getBalance caller).1
    · simp only [funded, decide_true, Bool.not_true, Bool.false_eq_true, if_false, Bool.and_true]
      have entered := @enterCall_snapshot_codeless_iff chain evm caller addr value revertible _
        (getBalance_calm evm.stateDB caller) (exist_getBalance revertible caller addr)
      refine entered.trans ?_
      simp only [zero, ne_eq]
    · simp [funded]

end Opening

end IDWDetector.Vm.EVM

namespace IDWDetector.Core

open State State.StateDB Vm

namespace StateTransition

section Recording

variable {ctx : Context} {msg : Message} {execution : Execution} {test : Bool} {st st' : StateTransition}

theorem start_depth (msg : Message) (st : StateTransition) : (st.start msg).depth = st.evm.depth := by
  unfold start
  cases msg.toAddr with
  | none => rfl
  | some addr => rfl

theorem Started.attempt_codeless_iff (started : Started msg st st')
    (shallow : (st'.start msg).depth ≤ callCreateDepth) :
    (∃ evm, (st'.attempt ctx msg execution).opening = .codeless evm) ↔
      ∃ addr, msg.toAddr = some addr ∧ (st'.start msg).callsBare ctx.chain msg.fromAddr addr msg.value = true := by
  unfold attempt
  cases msg.toAddr with
  | none =>
    simp only [reduceCtorEq, false_and, exists_false, iff_false]
    rintro ⟨evm, opened⟩
    exact EVM.openCreate_ne_codeless ctx.chain _ msg.fromAddr execution.address msg.data msg.value evm opened
  | some addr =>
    simp only [Option.some.injEq, exists_eq_left']
    exact EVM.openCall_codeless_iff started.revertible shallow

theorem checks_bind (checked : st.checks ctx msg test = .ok (none, st')) : ∃ first,
    st.preChecks ctx msg test = .ok first ∧
      andThen (andThen first (payIntrinsicGas ctx msg)) (checkValue msg) = (none, st') := by
  obtain ⟨first, preChecked, last⟩ := Machine.bind_ok.mp checked
  exact ⟨first, preChecked, Except.ok.inj last⟩

theorem run_codeless {evm : EVM} (checked : st.checks ctx msg test = .ok (none, st'))
    (empty : (st'.start msg).callStack = []) (opened : (st'.attempt ctx msg execution).opening = .codeless evm) :
    st.run ctx msg execution test = .error .indexOutOfRange := by
  obtain ⟨first, preChecked, found⟩ := checks_bind checked
  obtain ⟨left, -, passed⟩ := transition_passed execution found
  rw [run_eq, preChecked]
  show transition ctx msg execution first = _
  rw [passed, execute_codeless empty opened]
  rfl

/-- The call stack is read where it is empty exactly if the message itself calls an account that has no code to run. -/
theorem recording_safe_iff (ctx : Context) (msg : Message) (execution : Execution) (test : Bool) (st : StateTransition)
    (idle : st.evm.callStack = []) (outermost : st.evm.depth = 0) (numbered : st.evm.stateDB.Numbered)
    (revertible : st.evm.stateDB.Revertible) :
    (∀ st' snapshot evm p attempt, st.checks ctx msg test = .ok (none, st') →
      (st'.attempt ctx msg execution).opening = .frame snapshot evm false →
      Relation.ReflTransGen (Point.Leads ctx.chain) ⟨execution.script, self msg execution,
        evm.entered (st'.attempt ctx msg execution).tx (st'.attempt ctx msg execution).readOnly⟩ p →
      p.invokes ctx.chain = some attempt → p.returned ctx.chain ≠ .error .indexOutOfRange) ∧
    (st.run ctx msg execution test ≠ .error .indexOutOfRange ↔
      ∀ st' addr, st.checks ctx msg test = .ok (none, st') → msg.toAddr = some addr →
        (st'.start msg).callsBare ctx.chain msg.fromAddr addr msg.value = false) := by
  constructor
  · intro st' snapshot evm p attempt checked opened reaches invoked panics
    have disciplined := inner_disciplined numbered revertible checked opened reaches invoked
    rw [panics] at disciplined
    cases disciplined
  have shallow {st' : StateTransition} (checked : st.checks ctx msg test = .ok (none, st')) :
      (st'.start msg).depth ≤ callCreateDepth := by
    obtain ⟨s, -, same⟩ := (checks_checked checked).state
    rw [start_depth, same, outermost]
    exact Nat.zero_le _
  constructor
  · intro safe st' addr checked called
    have started := checks_started numbered revertible checked
    by_contra bare
    rw [Bool.not_eq_false] at bare
    obtain ⟨evm, opened⟩ := (started.attempt_codeless_iff (shallow checked)).mpr ⟨addr, called, bare⟩
    exact safe (run_codeless checked (started.callStack.trans idle) opened)
  · intro framed panics
    have opens (st' : StateTransition) (checked : st.checks ctx msg test = .ok (none, st')) (evm : EVM) :
        (st'.attempt ctx msg execution).opening ≠ .codeless evm := by
      intro opened
      have started := checks_started numbered revertible checked
      obtain ⟨addr, called, bare⟩ := (started.attempt_codeless_iff (shallow checked)).mp ⟨evm, opened⟩
      rw [framed st' addr checked called] at bare
      cases bare
    have ended := run_ends idle numbered revertible opens
    rw [panics] at ended
    rcases ended with refund | pool | ⟨nil, -⟩
    · cases refund
    · cases pool
    · cases nil

end Recording

def etherMessage : Message := { freeMessage with toAddr := some 0x31, value := 1 }

def etherTransition : StateTransition where
  gp := 1000000
  evm := { stateDB := (StateDB.new .empty).addBalance london.keccak 0x30 5 }
  accessList := ∅

/-- A transfer of ether to an account without code ends the replay. -/
theorem etherTransition_panics :
    etherTransition.run freeContext etherMessage emittingExecution true = .error .indexOutOfRange ∧
      etherTransition.run freeContext etherMessage emittingExecution false = .error .indexOutOfRange := by
  constructor
  · rfl
  · rfl

theorem recording_safe_emitting :
    idleTransition.run freeContext freeMessage emittingExecution true ≠ .error .indexOutOfRange := by
  apply (recording_safe_iff freeContext freeMessage emittingExecution true idleTransition rfl rfl
    (new_numbered _) (new_revertible _)).2.mpr
  intro st' addr checked called
  cases called
  have started := checks_started (new_numbered _) (new_revertible _) checked
  have coded : (st'.start freeMessage).stateDB.codeAt 0x10 ≠ [] := by
    rw [started.code]
    decide +kernel
  simp only [EVM.callsBare, coded, decide_false, Bool.and_false, Bool.false_and]

end StateTransition

end IDWDetector.Core
