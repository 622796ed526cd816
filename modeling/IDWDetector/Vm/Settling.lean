import IDWDetector.Vm.CallStack

namespace IDWDetector.Vm

open State State.StateDB Machine

/-- Code that writes no slot, destructs no account and changes no refund, except in frames
    that are rolled back. -/
def Script.settles (chain : Chain) : Script → Bool → Address → Bool
  | .done _, _, _ => true
  | .read _ next, readOnly, self => next.settles chain readOnly self
  | .addRefund _ _, _, _ | .subRefund _ _, _, _ => false
  | .log _ _ next, readOnly, self => readOnly || next.settles chain readOnly self
  | .sstore _ _ _, readOnly, _ | .selfdestruct _, readOnly, _ => readOnly
  | .call kind addr value _ _ callee next, readOnly, self =>
    let inner := readOnly || decide (kind = .staticCall)
    let callee' := EVM.calleeSelf self addr kind
    (decide (kind = .call) && readOnly && decide (value ≠ 0)) ||
      (((callee.outcome inner callee').err.isSome || callee.settles chain inner callee') &&
        next.settles chain readOnly self)
  | .create address _ _ paid init next, readOnly, self =>
    let outcome := init.outcome readOnly address
    readOnly || ((EVM.rollsBack chain (EVM.deployError chain outcome.ret paid outcome.err) ||
      init.settles chain readOnly address) && next.settles chain readOnly self)

def SettlingLoop (rolledBack : Bytes → Option VmError → Bool) (readOnly : Bool) (loop : Loop) : Prop :=
  ∀ evm r, evm.readOnly = readOnly → evm.callStack ≠ [] → evm.stateDB.Numbered → loop evm = .ok r →
    rolledBack r.ret r.err = false → Extends JournalEntry.harmless evm.stateDB r.evm.stateDB

section Finishing

variable {chain : Chain} {attempt : Attempt} {evm : EVM} {script : Script} {self : Address} {r : Returned}

theorem Settled.extends {rolledBack : Bool} {result : Returned} {s : StateDB} {added : List Log}
    (settled : Settled rolledBack s.snapshot.1 result r) (numbered : s.Numbered)
    (logged : Logged s.snapshot.2 result.evm.stateDB added)
    (kept : rolledBack = false → Extends JournalEntry.harmless s result.evm.stateDB) :
    Extends JournalEntry.harmless s r.evm.stateDB := by
  cases rolled : rolledBack with
  | false => exact (kept rolled).trans (settled.quiet rolled).adds.entries
  | true => exact .nothing (revertToSnapshot_logged numbered logged (settled.reverted rolled)).2

theorem Attempt.Sound.finish_extends (sound : attempt.Sound evm)
    (settling : SettlingLoop attempt.rolledBack (evm.readOnly || attempt.readOnly) (EVM.exec chain script self []))
    (numbered : evm.stateDB.Numbered) (finished : attempt.finish (EVM.exec chain script self []) = .ok r) :
    Extends JournalEntry.harmless evm.stateDB r.evm.stateDB := by
  have opened := sound.opened
  unfold Attempt.finish EVM.finish at finished
  cases opening : attempt.opening with
  | refused err evm' =>
    rw [opening] at opened finished
    obtain ⟨s, plain, rfl⟩ := opened
    cases finished
    exact plain.adds.entries
  | codeless evm' =>
    rw [opening] at opened finished
    obtain ⟨s, plain, rfl⟩ := opened
    obtain ⟨evm'', appended, result⟩ := bind_ok.mp finished
    cases result
    obtain ⟨-, stateDB, -⟩ := EVM.appendInTx_ok appended
    rw [stateDB]
    exact plain.adds.entries
  | precompiled snapshot evm' =>
    rw [opening] at opened finished
    obtain ⟨s, s', before, rfl, after, rfl⟩ := opened
    have numbered' := before.logged.numbered numbered
    have entered := ((snapshot_plain s).trans after).adds.entries
    exact before.adds.entries.trans ((sound.settled finished).extends numbered' after.logged fun _ => entered)
  | frame snapshot evm' codeEmpty =>
    rw [opening] at opened finished
    obtain ⟨s, s', before, rfl, after, rfl⟩ := opened
    obtain ⟨result, ran, ended⟩ := bind_ok.mp finished
    have numbered' := before.logged.numbered numbered
    have numbered'' := after.logged.numbered ((snapshot_logged s).numbered numbered')
    have entered := ((snapshot_plain s).trans after).adds.entries
    obtain ⟨added, logged⟩ := runFrame_logged numbered'' ran
    refine before.adds.entries.trans
      ((sound.settled ended).extends numbered' (after.logged.still_left logged) fun kept => ?_)
    cases codeEmpty with
    | true =>
      obtain ⟨-, -, stateDB, -⟩ := EVM.runFrame_empty ran
      rw [stateDB]
      exact entered
    | false =>
      obtain ⟨inner, executed, ret, err, stateDB, -⟩ := EVM.runFrame_ok ran
      rw [ret, err] at kept
      rw [stateDB]
      exact entered.trans (settling _ inner rfl (List.cons_ne_nil _ _) numbered'' executed kept)

end Finishing

theorem leave_entries {evm : EVM} {events : List Event} {ret : Bytes} {err : Option VmError} {r : Returned}
    (left : evm.leave events ret err = .ok r) : Extends JournalEntry.harmless evm.stateDB r.evm.stateDB := by
  obtain ⟨evm', set, result⟩ := bind_ok.mp left
  cases result
  unfold EVM.setEvents at set
  split at set
  · cases set
  · cases set
    exact .nothing rfl

theorem addLog_entries (s : StateDB) (log : Log) : Extends JournalEntry.harmless s (s.addLog log) := by
  refine ⟨[.addLogChange s.thash], Journal.entries_append s.journal _, ?_⟩
  intro entry member
  rw [List.mem_singleton.mp member]
  rfl

def SettlesIn (chain : Chain) (script : Script) : Prop :=
  ∀ self events evm r, script.settles chain evm.readOnly self = true → evm.callStack ≠ [] → evm.stateDB.Numbered →
    EVM.exec chain script self events evm = .ok r → Extends JournalEntry.harmless evm.stateDB r.evm.stateDB

section Executing

variable {chain : Chain} {script next : Script} {self callee : Address} {events : List Event} {evm : EVM}
  {attempt : Attempt} {r : Returned}

theorem SettlesIn.settlingLoop {rolledBack : Bytes → Option VmError → Bool} {readOnly : Bool}
    (inner : SettlesIn chain script)
    (settles : (rolledBack (script.outcome readOnly callee).ret (script.outcome readOnly callee).err ||
      script.settles chain readOnly callee) = true) :
    SettlingLoop rolledBack readOnly (EVM.exec chain script callee []) := by
  rintro evm r rfl stack numbered executed kept
  obtain ⟨kids, added, ran⟩ := exec_runs chain script callee [] evm r stack numbered executed
  rw [← ran.ret, ← ran.err, kept, Bool.false_or] at settles
  exact inner callee [] evm r settles stack numbered executed

theorem SettlesIn.after_finish (sound : attempt.Sound evm) (inner : SettlesIn chain script)
    (rest : SettlesIn chain next)
    (settles : (attempt.rolledBack (script.outcome (evm.readOnly || attempt.readOnly) callee).ret
      (script.outcome (evm.readOnly || attempt.readOnly) callee).err ||
      script.settles chain (evm.readOnly || attempt.readOnly) callee) = true)
    (settles' : next.settles chain evm.readOnly self = true) (stack : evm.callStack ≠ [])
    (numbered : evm.stateDB.Numbered)
    (executed : (do
      let result ← attempt.finish (EVM.exec chain script callee [])
      EVM.exec chain next self events result.evm) = .ok r) :
    Extends JournalEntry.harmless evm.stateDB r.evm.stateDB := by
  obtain ⟨result, finished, later⟩ := bind_ok.mp executed
  obtain ⟨kids, added, step⟩ := sound.finish_step numbered (exec_runs chain script) finished
  have first := sound.finish_extends (inner.settlingLoop settles) numbered finished
  rw [← step.returns.readOnly] at settles'
  exact first.trans (rest self events _ r settles' (step.returns.callStack_ne_nil stack)
    (step.logged.numbered numbered) later)

end Executing

theorem exec_settles (chain : Chain) (script : Script) : SettlesIn chain script := by
  induction script with
  | addRefund | subRefund => exact fun _ _ _ _ settles => nomatch settles
  | done ending =>
    intro self events evm r _ _ _ executed
    cases ending with
    | stop ret | revert ret | invalid => exact leave_entries executed
    | abort =>
      cases executed
      exact .nothing rfl
  | read what next ih =>
    intro self events evm r settles stack numbered executed
    have plain := what.apply_plain chain.keccak self evm.stateDB
    have rest := ih self events { evm with stateDB := what.apply chain.keccak self evm.stateDB } r settles stack
      (plain.logged.numbered numbered) executed
    exact plain.adds.entries.trans rest
  | sstore loc val next ih | selfdestruct beneficiary =>
    intro self events evm r settles _ _ executed
    have readOnly : evm.readOnly = true := settles
    rw [EVM.exec, if_pos readOnly] at executed
    exact leave_entries executed
  | log topics data next ih =>
    intro self events evm r settles stack numbered executed
    rw [EVM.exec] at executed
    split at executed
    · exact leave_entries executed
    · rename_i writable
      obtain ⟨stored, step⟩ := emit_step chain evm self topics data
      have settles' : next.settles chain evm.readOnly self = true :=
        (Bool.or_eq_true_iff.mp settles).resolve_left writable
      have rest := ih self _ (evm.emit chain self topics data).2 r settles' stack
        (step.logged.numbered numbered) executed
      exact (addLog_entries evm.stateDB _).trans rest
  | call kind addr value input precompiled callee next ih' ih =>
    intro self events evm r settles stack numbered executed
    rw [EVM.exec] at executed
    split at executed
    · exact leave_entries executed
    · rename_i writable
      rw [dispatch_eq] at executed
      have both := (Bool.or_eq_true_iff.mp settles).resolve_left writable
      obtain ⟨settles, settles'⟩ := Bool.and_eq_true_iff.mp both
      refine SettlesIn.after_finish (attemptCall_sound chain evm self addr input value.toNat precompiled kind) ih' ih ?_
        settles' stack numbered executed
      cases kind <;> exact settles
  | create address value code paid init next ih' ih =>
    intro self events evm r settles stack numbered executed
    rw [EVM.exec] at executed
    split at executed
    · exact leave_entries executed
    · rename_i writable
      rw [create_eq] at executed
      have both := (Bool.or_eq_true_iff.mp settles).resolve_left writable
      obtain ⟨settles, settles'⟩ := Bool.and_eq_true_iff.mp both
      refine SettlesIn.after_finish (attemptCreate_sound chain evm self value.toNat code address paid) ih' ih ?_
        settles' stack numbered executed
      have writes : (attemptCreate chain evm self value.toNat code address paid).readOnly = false := rfl
      rw [writes, Bool.or_false]
      exact settles

end IDWDetector.Vm
