import IDWDetector.Core.StateTransition
import IDWDetector.Vm.CallStack
import IDWDetector.Vm.Events

namespace IDWDetector.Core

open State State.StateDB Vm Machine

namespace StateTransition

variable (ctx : Context) (msg : Message) (execution : Execution) (st : StateTransition)

def run (test : Bool) (st : StateTransition) :
    Except Panic (Except TransitionError ExecutionResult × StateTransition) :=
  if test then st.transitionDbTest ctx msg execution else st.transitionDb ctx msg execution

def preChecks (test : Bool) (st : StateTransition) : Except Panic (Option TransitionError × StateTransition) :=
  if test then st.preCheckSu ctx msg else st.preCheck ctx msg

def checks (test : Bool) (st : StateTransition) : Except Panic (Option TransitionError × StateTransition) := do
  let checked ← st.preChecks ctx msg test
  .ok (andThen (andThen checked (payIntrinsicGas ctx msg)) (checkValue msg))

def start : EVM :=
  match msg.toAddr with
  | none => st.evm
  | some _ =>
    let (nonce, stateDB) := st.evm.stateDB.getNonce msg.fromAddr
    { st.evm with stateDB := stateDB.setNonce msg.fromAddr (nonce + 1) }

def attempt : Attempt :=
  match msg.toAddr with
  | none => attemptCreate ctx.chain (st.start msg) msg.fromAddr msg.value msg.data execution.address execution.paid
  | some addr =>
    attemptCall ctx.chain (st.start msg) msg.fromAddr addr msg.data msg.value execution.precompiled .call

def self : Address := msg.toAddr.getD execution.address

theorem execute_eq :
    st.execute ctx msg execution =
      (st.attempt ctx msg execution).finish (EVM.exec ctx.chain execution.script (self msg execution) []) := by
  unfold execute attempt self start
  cases msg.toAddr with
  | none => rfl
  | some addr => rfl

def frames : List InternalTx :=
  (st.attempt ctx msg execution).frames (execution.script.frames ctx.chain (self msg execution))

variable {ctx msg execution}

structure Checked (checked : Option TransitionError × StateTransition) : Prop where
  state : ∃ s, Calm st.evm.stateDB s ∧ checked.2.evm = { st.evm with stateDB := s }
  err : ∀ length, checked.1 ≠ some (.lengthOfCallStack length)
  accessList : checked.2.accessList = st.accessList

theorem Checked.passed : Checked st (none, st) :=
  ⟨⟨st.evm.stateDB, .refl _, rfl⟩, nofun, rfl⟩

variable {st} {checked : Option TransitionError × StateTransition} {err : TransitionError}

theorem Checked.andThen {next : StateTransition → Option TransitionError × StateTransition}
    (first : Checked st checked) (later : ∀ st', Checked st' (next st')) :
    Checked st (StateTransition.andThen checked next) := by
  obtain ⟨err, st'⟩ := checked
  cases err with
  | some err => exact first
  | none =>
    obtain ⟨s, calm, same⟩ := first.state
    obtain ⟨s', calm', same'⟩ := (later st').state
    simp only at same
    rw [same] at calm' same'
    exact ⟨⟨s', calm.trans calm', same'⟩, (later st').err, (later st').accessList.trans first.accessList⟩

theorem buyGas_checked (st : StateTransition) : Checked st (st.buyGas msg) := by
  unfold buyGas
  simp only
  split
  · exact ⟨⟨_, getBalance_calm _ msg.fromAddr, rfl⟩, nofun, rfl⟩
  · split
    · exact ⟨⟨_, getBalance_calm _ msg.fromAddr, rfl⟩, nofun, rfl⟩
    · exact ⟨⟨_, (getBalance_calm _ msg.fromAddr).trans (subBalance_calm _ msg.fromAddr _), rfl⟩, nofun, rfl⟩

theorem checkNonce_checked (st : StateTransition) : Checked st (st.checkNonce msg) := by
  refine ⟨⟨_, getNonce_calm _ msg.fromAddr, rfl⟩, ?_, rfl⟩
  intro length
  unfold checkNonce
  simp only
  split
  · exact nofun
  · split
    · exact nofun
    · split <;> exact nofun

theorem checkSender_checked (st : StateTransition) : Checked st (st.checkSender ctx msg) := by
  refine ⟨⟨_, getCodeHash_calm ctx.chain.keccak _ msg.fromAddr, rfl⟩, ?_, rfl⟩
  intro length
  unfold checkSender
  simp only
  split <;> exact nofun

theorem addDataGas_err {gas : Uint64} {data : Bytes} {isEIP2028 : Bool}
    (failed : addDataGas gas data isEIP2028 = .error err) : err = .gasUintOverflow := by
  simp only [addDataGas] at failed
  generalize (if isEIP2028 then txDataNonZeroGasEIP2028 else txDataNonZeroGasFrontier) = nonZeroGas at failed
  split at failed
  · cases failed
    rfl
  · split at failed
    · cases failed
      rfl
    · cases failed

theorem intrinsicGas_err {data : Bytes} {accessList : AccessList} {creation isHomestead isEIP2028 : Bool}
    (failed : intrinsicGas data accessList creation isHomestead isEIP2028 = .error err) :
    err = .gasUintOverflow := by
  unfold intrinsicGas at failed
  simp only at failed
  split at failed
  · cases added : addDataGas (if creation && isHomestead then txGasContractCreation else txGas) data isEIP2028 with
    | ok gas =>
      rw [added] at failed
      cases failed
    | error err' =>
      rw [added] at failed
      cases failed
      exact addDataGas_err added
  · cases failed

theorem payIntrinsicGas_checked (st : StateTransition) : Checked st (st.payIntrinsicGas ctx msg) := by
  unfold payIntrinsicGas
  split
  · rename_i err failed
    refine ⟨⟨_, .refl _, rfl⟩, ?_, rfl⟩
    intro length same
    rw [intrinsicGas_err failed] at same
    cases same
  · split
    · exact ⟨⟨_, .refl _, rfl⟩, nofun, rfl⟩
    · exact ⟨⟨_, .refl _, rfl⟩, nofun, rfl⟩

theorem checkValue_checked (st : StateTransition) : Checked st (st.checkValue msg) := by
  unfold checkValue
  split
  · refine ⟨⟨_, getBalance_calm _ msg.fromAddr, rfl⟩, ?_, rfl⟩
    intro length
    simp only
    split <;> exact nofun
  · exact .passed st

theorem checkFees_err {err : Option TransitionError} (checked : checkFees ctx msg = .ok err) (length : Nat) :
    err ≠ some (.lengthOfCallStack length) := by
  unfold checkFees at checked
  repeat' split at checked
  all_goals
    cases checked
    try split
    all_goals exact nofun

theorem payForGas_checked {checked last : Option TransitionError × StateTransition} (first : Checked st checked)
    (paid : payForGas ctx msg checked = .ok last) : Checked st last := by
  obtain ⟨err, st'⟩ := checked
  cases err with
  | some err =>
    cases paid
    exact first
  | none =>
    obtain ⟨err, fees, later⟩ := bind_ok.mp paid
    cases err with
    | some err =>
      cases later
      exact ⟨first.state, checkFees_err fees, first.accessList⟩
    | none =>
      cases later
      exact first.andThen buyGas_checked

theorem preChecks_checked {test : Bool} (executed : st.preChecks ctx msg test = .ok checked) :
    Checked st checked := by
  cases test with
  | true =>
    refine payForGas_checked ?_ executed
    split
    · exact .passed st
    · exact checkSender_checked st
  | false =>
    refine payForGas_checked ?_ executed
    split
    · exact .passed st
    · exact (checkNonce_checked st).andThen checkSender_checked

theorem checks_checked {test : Bool} (executed : st.checks ctx msg test = .ok checked) : Checked st checked := by
  obtain ⟨first, preChecked, last⟩ := bind_ok.mp executed
  cases last
  exact ((preChecks_checked preChecked).andThen payIntrinsicGas_checked).andThen checkValue_checked

/-- The panics of a transition: the refund counter, the gas pool, and a base fee that
    is nil. -/
def Panics (ctx : Context) (panic : Panic) : Prop :=
  panic = .negativeRefund ∨ panic = .gasPoolOverflow ∨ panic = .nilDereference ∧ ctx.baseFee = none

theorem checkFees_panics : Ends (Panics ctx) (fun _ => True) (checkFees ctx msg) := by
  unfold checkFees
  repeat' split
  all_goals first | trivial | skip
  rename_i missing
  exact Or.inr (Or.inr ⟨rfl, missing⟩)

theorem payForGas_panics (checked : Option TransitionError × StateTransition) :
    Ends (Panics ctx) (fun _ => True) (payForGas ctx msg checked) := by
  obtain ⟨err, st⟩ := checked
  cases err with
  | some err => trivial
  | none =>
    refine Ends.bind checkFees_panics fun err _ _ => ?_
    cases err <;> trivial

theorem preChecks_panics (test : Bool) (st : StateTransition) :
    Ends (Panics ctx) (fun _ => True) (st.preChecks ctx msg test) := by
  cases test with
  | true => exact payForGas_panics _
  | false => exact payForGas_panics _

theorem close_ends (returned : Returned) (st : StateTransition) :
    Ends (Panics ctx) (fun closed => closed.2.evm.callStack = st.evm.callStack ∧
      closed.2.evm.exTx = st.evm.exTx ∧ (st.evm.callStack = [] → ∃ result, closed.1 = .ok result))
      (st.close ctx msg returned) := by
  have refunded (quotient : Uint64) : Ends (Panics ctx) (fun st' => st'.evm.callStack = st.evm.callStack ∧
      st'.evm.exTx = st.evm.exTx) (st.refundGas ctx msg quotient) := by
    simp only [refundGas]
    generalize (if st.evm.stateDB.refund < st.gasUsed / quotient then st.evm.stateDB.refund
      else st.gasUsed / quotient) = refund
    split
    · exact Or.inr (Or.inl rfl)
    · exact ⟨rfl, rfl⟩
  have rewarded (st' : StateTransition) :
    Ends (Panics ctx) (fun st'' => st''.evm.callStack = st'.evm.callStack ∧
      st''.evm.exTx = st'.evm.exTx) (st'.reward ctx msg) := by
    unfold reward
    split
    · cases missing : ctx.baseFee with
      | none => exact Or.inr (Or.inr ⟨rfl, missing⟩)
      | some baseFee => exact ⟨rfl, rfl⟩
    · exact ⟨rfl, rfl⟩
  refine Ends.bind (refunded _) fun st' _ same => ?_
  refine Ends.bind (rewarded st') fun st'' _ same' => ?_
  have callStack := same'.1.trans same.1
  split_ifs with length
  · refine ⟨callStack, same'.2.trans same.2, fun empty => ?_⟩
    rw [callStack, empty] at length
    exact absurd length (Nat.lt_irrefl 0)
  · exact ⟨callStack, same'.2.trans same.2, fun _ => ⟨_, rfl⟩⟩

theorem prepareAccessList_evm (st : StateTransition) : (st.prepareAccessList ctx msg).evm = st.evm := by
  unfold prepareAccessList
  split <;> rfl

theorem execute_prepared (st : StateTransition) :
    (st.prepareAccessList ctx msg).execute ctx msg execution = st.execute ctx msg execution := by
  unfold execute
  rw [prepareAccessList_evm]

theorem start_calm (msg : Message) (st : StateTransition) :
    ∃ s, Calm st.evm.stateDB s ∧ st.start msg = { st.evm with stateDB := s } := by
  unfold start
  cases msg.toAddr with
  | none => exact ⟨st.evm.stateDB, .refl _, rfl⟩
  | some addr => exact ⟨_, (getNonce_calm _ msg.fromAddr).trans (setNonce_calm _ msg.fromAddr _), rfl⟩

theorem attempt_sound (ctx : Context) (msg : Message) (execution : Execution) (st : StateTransition) :
    (st.attempt ctx msg execution).Sound (st.start msg) := by
  unfold attempt
  cases msg.toAddr with
  | none => exact attemptCreate_sound ..
  | some addr => exact attemptCall_sound _ _ _ _ _ _ _ .call

theorem execute_codeless {st' : StateTransition} {evm : EVM} (empty : (st'.start msg).callStack = [])
    (opened : (st'.attempt ctx msg execution).opening = .codeless evm) :
    st'.execute ctx msg execution = .error .indexOutOfRange := by
  have opening := (attempt_sound ctx msg execution st').opened
  rw [opened] at opening
  obtain ⟨s, -, rfl⟩ := opening
  rw [execute_eq, Attempt.finish, opened]
  simp only [EVM.finish, EVM.appendInTx, empty]
  rfl

theorem attempt_ne_codeless (st : StateTransition) (revertible : (st.start msg).stateDB.Revertible)
    (target : ∀ addr, msg.toAddr = some addr → (st.start msg).stateDB.codeAt addr ≠ []) (evm : EVM) :
    (st.attempt ctx msg execution).opening ≠ .codeless evm := by
  unfold attempt
  cases called : msg.toAddr with
  | none => exact EVM.openCreate_ne_codeless ctx.chain _ msg.fromAddr execution.address msg.data msg.value evm
  | some addr =>
    exact EVM.openCall_ne_codeless ctx.chain _ msg.fromAddr addr msg.value revertible (target addr called) evm

structure Started (msg : Message) (st st' : StateTransition) : Prop where
  numbered : (st'.start msg).stateDB.Numbered
  revertible : (st'.start msg).stateDB.Revertible
  code : ∀ addr, (st'.start msg).stateDB.codeAt addr = st.evm.stateDB.codeAt addr
  callStack : (st'.start msg).callStack = st.evm.callStack
  exTx : (st'.start msg).exTx = st.evm.exTx

theorem checks_started {test : Bool} {st st' : StateTransition} (numbered : st.evm.stateDB.Numbered)
    (revertible : st.evm.stateDB.Revertible) (checked : st.checks ctx msg test = .ok (none, st')) :
    Started msg st st' := by
  obtain ⟨s, calm, same⟩ := (checks_checked checked).state
  obtain ⟨s', calm', same'⟩ := start_calm msg st'
  simp only at same
  rw [same] at calm' same'
  have whole := calm.trans calm'
  refine ⟨?_, ?_, ?_, ?_, ?_⟩
  · rw [same']
    exact whole.plain.logged.numbered numbered
  · rw [same']
    exact whole.plain.revertible revertible
  · rw [same']
    exact whole.code revertible
  · rw [same']
  · rw [same']

def tree (ctx : Context) (msg : Message) (execution : Execution) (test : Bool) (st : StateTransition) :
    List InternalTx :=
  match st.checks ctx msg test with
  | .ok (none, st') => st'.frames ctx msg execution
  | _ => []

theorem run_eq (test : Bool) (st : StateTransition) :
    st.run ctx msg execution test = (do transition ctx msg execution (← st.preChecks ctx msg test)) := by
  cases test <;> rfl

theorem transition_failed
    (found : andThen (andThen checked (payIntrinsicGas ctx msg)) (checkValue msg) = (some err, st)) :
    transition ctx msg execution checked = .ok (.error err, st) := by
  rw [transition, found]

theorem transition_passed (execution : Execution)
    (found : andThen (andThen checked (payIntrinsicGas ctx msg)) (checkValue msg) = (none, st)) :
    ∃ left : Returned → StateTransition, (∀ r, (left r).evm = r.evm ∧
      (ctx.isBerlin = false → (left r).accessList = st.accessList)) ∧
      transition ctx msg execution checked = (do
        let r ← st.execute ctx msg execution
        (left r).close ctx msg r) := by
  let accessList := if ctx.isBerlin then (st.prepareAccessList ctx msg).accessList ∪ execution.accessed
    else (st.prepareAccessList ctx msg).accessList
  refine ⟨fun r =>
      { st.prepareAccessList ctx msg with gas := execution.gasLeft, evm := r.evm, accessList := accessList },
    fun r => ⟨rfl, fun earlier => ?_⟩, ?_⟩
  · simp [accessList, prepareAccessList, earlier]
  rw [transition, found]
  simp only [execute_prepared]
  rfl

section Running

variable {test : Bool} {st st' : StateTransition} (idle : st.evm.callStack = [])
  (numbered : st.evm.stateDB.Numbered) (revertible : st.evm.stateDB.Revertible)
  (opens : ∀ st', st.checks ctx msg test = .ok (none, st') →
    ∀ evm, (st'.attempt ctx msg execution).opening ≠ .codeless evm)

include numbered revertible

theorem opens_of_target (target : ∀ addr, msg.toAddr = some addr → st.evm.stateDB.codeAt addr ≠ [])
    (checked : st.checks ctx msg test = .ok (none, st')) (evm : EVM) :
    (st'.attempt ctx msg execution).opening ≠ .codeless evm := by
  have started := checks_started numbered revertible checked
  apply attempt_ne_codeless st' started.revertible
  intro addr called
  rw [started.code]
  exact target addr called

include opens

theorem execute_disciplined (checked : st.checks ctx msg test = .ok (none, st')) :
    Disciplined (st'.start msg) (st'.frames ctx msg execution) (st'.execute ctx msg execution) := by
  have started := checks_started numbered revertible checked
  rw [execute_eq]
  exact (attempt_sound ctx msg execution st').disciplined _ _ started.numbered started.revertible
    fun _ => opens st' checked

omit opens in
theorem inner_disciplined (checked : st.checks ctx msg test = .ok (none, st')) {snapshot : Nat} {evm : EVM} {p : Point}
    {attempt : Attempt} (opened : (st'.attempt ctx msg execution).opening = .frame snapshot evm false)
    (reaches : Relation.ReflTransGen (Point.Leads ctx.chain) ⟨execution.script, self msg execution,
      evm.entered (st'.attempt ctx msg execution).tx (st'.attempt ctx msg execution).readOnly⟩ p)
    (invoked : p.invokes ctx.chain = some attempt) :
    Disciplined p.evm (p.frames ctx.chain attempt) (p.returned ctx.chain) := by
  have started := checks_started numbered revertible checked
  have inside := Point.Inside.entered (attempt_sound ctx msg execution st') opened started.numbered started.revertible
  exact Point.disciplined (Point.reaches_inside reaches inside) invoked

include idle

theorem run_ends : Ends (Panics ctx) (fun ended =>
    (∀ length, ended.1 ≠ .error (.lengthOfCallStack length)) ∧ ended.2.evm.callStack = [] ∧
      ∃ kids, ended.2.evm.exTx = st.evm.exTx ++ kids ∧ kids.length ≤ 1 ∧
        bareOf kids = st.tree ctx msg execution test) (st.run ctx msg execution test) := by
  rw [run_eq]
  refine Ends.bind (preChecks_panics test st) fun first preChecked _ => ?_
  cases found : andThen (andThen first (payIntrinsicGas ctx msg)) (checkValue msg) with
  | mk err st' =>
    have checks : st.checks ctx msg test = .ok (err, st') := by
      rw [StateTransition.checks, preChecked, ← found]
      rfl
    have checked := checks_checked checks
    cases err with
    | some err =>
      obtain ⟨s, _, same⟩ := checked.state
      simp only at same
      rw [transition_failed found, tree, checks]
      refine ⟨?_, ?_, [], ?_, Nat.zero_le 1, rfl⟩
      · intro length wrong
        exact checked.err length (congrArg some (Except.error.inj wrong))
      · rw [same]
        exact idle
      · rw [same, List.append_nil]
    | none =>
      have started := checks_started numbered revertible checks
      have executed : Disciplined (st'.start msg) (st'.frames ctx msg execution) (st'.execute ctx msg execution) :=
        execute_disciplined numbered revertible opens checks
      obtain ⟨left, evm, passed⟩ := transition_passed execution found
      rw [passed, tree, checks]
      refine Ends.bind (executed.imp (fun _ => Or.inl) fun r => id) fun r _ returned => ?_
      obtain ⟨kids, returns, short, frames⟩ := returned
      have attached := returns.frames
      rw [started.callStack, started.exTx, idle] at attached
      obtain ⟨callStack, exTx⟩ := Prod.mk.inj attached
      refine (close_ends r (left r)).imp (fun _ => id) fun ended closed => ?_
      obtain ⟨callStack', exTx', fine⟩ := closed
      rw [(evm r).1] at callStack' exTx' fine
      obtain ⟨result, success⟩ := fine callStack
      refine ⟨?_, callStack'.trans callStack, kids, exTx'.trans exTx, short, frames⟩
      intro length
      rw [success]
      exact nofun

end Running

/-- Every call and creation leaves the call stack as it found it, up to one frame; the message leaves at most one
    call tree, of the frames that were opened, and an empty stack. -/
theorem callStack_discipline (ctx : Context) (msg : Message) (execution : Execution) (test : Bool)
    (st : StateTransition) (idle : st.evm.callStack = []) (numbered : st.evm.stateDB.Numbered)
    (revertible : st.evm.stateDB.Revertible)
    (target : ∀ addr, msg.toAddr = some addr → st.evm.stateDB.codeAt addr ≠ []) :
    (∀ st', st.checks ctx msg test = .ok (none, st') →
      Disciplined (st'.start msg) (st'.frames ctx msg execution) (st'.execute ctx msg execution) ∧
      ∀ snapshot evm p attempt, (st'.attempt ctx msg execution).opening = .frame snapshot evm false →
        Relation.ReflTransGen (Point.Leads ctx.chain) ⟨execution.script, self msg execution,
          evm.entered (st'.attempt ctx msg execution).tx (st'.attempt ctx msg execution).readOnly⟩ p →
        p.invokes ctx.chain = some attempt →
        Disciplined p.evm (p.frames ctx.chain attempt) (p.returned ctx.chain)) ∧
    Machine.Ends (Panics ctx) (fun ended =>
      (∀ length, ended.1 ≠ .error (.lengthOfCallStack length)) ∧ ended.2.evm.callStack = [] ∧
        ∃ kids, ended.2.evm.exTx = st.evm.exTx ++ kids ∧ kids.length ≤ 1 ∧
          bareOf kids = st.tree ctx msg execution test) (st.run ctx msg execution test) := by
  have opens (st' : StateTransition) (checked : st.checks ctx msg test = .ok (none, st')) (evm : EVM) :
      (st'.attempt ctx msg execution).opening ≠ .codeless evm := opens_of_target numbered revertible target checked evm
  refine ⟨?_, run_ends idle numbered revertible opens⟩
  intro st' checked
  refine ⟨execute_disciplined numbered revertible opens checked, ?_⟩
  intro snapshot evm p attempt opened reaches invoked
  exact inner_disciplined numbered revertible checked opened reaches invoked

def freeContext : Context where
  chain := london
  isIstanbul := true
  isBerlin := true
  activePrecompiles := ∅
  noBaseFee := false
  baseFee := some 0
  coinbase := 0x40

def freeMessage : Message where
  fromAddr := 0x30
  toAddr := some 0x10
  nonce := 0
  value := 0
  gas := 100000
  gasPrice := 0
  gasFeeCap := 0
  gasTipCap := 0
  data := []
  accessList := []
  isFake := false

def emittingExecution : Execution where
  script := .call .call 0x20 0 [] none (.log [] [] (.done (.stop []))) (.done (.stop []))
  precompiled := none
  address := 0
  paid := true
  gasLeft := 70000
  accessed := {0x20}

def idleTransition : StateTransition where
  gp := 1000000
  evm := { stateDB := callState emittingCode }
  accessList := ∅

theorem callStack_discipline_emitting :
    ∃ result st', idleTransition.run freeContext freeMessage emittingExecution true = .ok (.ok result, st') ∧
      st'.evm.callStack = [] ∧ ∃ kids, st'.evm.exTx = kids ∧ kids.length ≤ 1 ∧
        bareOf kids = idleTransition.tree freeContext freeMessage emittingExecution true := by
  have coded : ∀ addr, freeMessage.toAddr = some addr → idleTransition.evm.stateDB.codeAt addr ≠ [] := by
    intro addr called
    cases called
    decide +kernel
  have ended := (callStack_discipline freeContext freeMessage emittingExecution true idleTransition rfl
    (new_numbered _) (new_revertible _) coded).2
  have ran : (idleTransition.run freeContext freeMessage emittingExecution true).toOption.any
      (fun ended => ended.1.toOption.isSome) = true := by
    decide +kernel
  obtain ⟨⟨outcome, st'⟩, executed, returned⟩ := toOption_any ran
  obtain ⟨result, rfl⟩ := toOption_isSome returned
  rw [executed] at ended
  obtain ⟨_, callStack, kids, exTx, short, tree⟩ := ended
  exact ⟨result, st', executed, callStack, kids, exTx, short, tree⟩

end StateTransition

end IDWDetector.Core
