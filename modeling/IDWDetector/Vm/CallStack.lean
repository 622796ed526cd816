import IDWDetector.State.Code
import IDWDetector.Vm.Executions

namespace IDWDetector.Vm

open State State.StateDB Machine

variable {attempt : Attempt} {evm : EVM}

abbrev Safe (origin : Origin) : Except Panic Returned → Prop :=
  Machine.Ends (· = .negativeRefund) fun r => r.evm.stateDB.RevertsTo origin

theorem Settles.safe {rolledBack : Bool} {snapshot : Nat} {result : Returned} {settled : Except Panic Returned}
    {origin : Origin} {s : StateDB} (settles : Settles rolledBack snapshot result settled)
    (reverts : result.evm.stateDB.RevertsTo origin)
    (reverted : result.evm.stateDB.revertToSnapshot snapshot = .ok s) (earlier : s.RevertsTo origin) :
    Safe origin settled := by
  obtain ⟨ret, err, settles⟩ := settles
  cases rolledBack with
  | false =>
    obtain ⟨s', plain, rfl⟩ := settles
    exact plain.reverts origin reverts
  | true =>
    simp only [settles, EVM.revertToSnapshot, reverted]
    exact earlier

section Framing

variable {origin : Origin}

theorem leave_safe (stack : evm.callStack ≠ []) (reverts : evm.stateDB.RevertsTo origin)
    (events : List Event) (ret : Bytes) (err : Option VmError) : Safe origin (evm.leave events ret err) := by
  obtain ⟨top, rest, found⟩ := List.exists_cons_of_ne_nil stack
  simp only [EVM.leave, EVM.setEvents, found]
  exact reverts

theorem pop_total (stack : evm.callStack ≠ []) : ∃ evm', evm.pop = .ok evm' ∧ evm'.stateDB = evm.stateDB := by
  unfold EVM.pop
  split
  · rename_i none
    exact absurd none stack
  · exact ⟨_, rfl, rfl⟩
  · exact ⟨_, rfl, rfl⟩

theorem runFrame_safe {loop : Loop} {readOnly codeEmpty : Bool} (tx : InternalTx)
    (reverts : evm.stateDB.RevertsTo origin) (inside : Safe origin (loop (evm.entered tx readOnly)))
    (stack : ∀ inner, loop (evm.entered tx readOnly) = .ok inner → inner.evm.callStack ≠ []) :
    Safe origin (evm.runFrame tx codeEmpty readOnly loop) := by
  have popped : ∀ result : Returned, result.evm.callStack ≠ [] → result.evm.stateDB.RevertsTo origin →
      Safe origin (do
        let evm ← result.evm.pop
        .ok { result with evm := evm }) := by
    intro result stack' good
    obtain ⟨evm', popped, stateDB⟩ := pop_total stack'
    rw [popped]
    show evm'.stateDB.RevertsTo origin
    rwa [stateDB]
  cases codeEmpty with
  | true => exact popped ⟨[], none, evm.push { tx with isContract := true }⟩ (List.cons_ne_nil _ _) reverts
  | false =>
    have ran : Safe origin ((evm.push { tx with isContract := true }).run false readOnly loop) :=
      Ends.bind inside fun _ _ good => good
    refine Ends.bind ran fun result executed good => popped result ?_ good
    obtain ⟨inner, found, last⟩ := bind_ok.mp executed
    cases last
    exact stack inner found

end Framing

def SafeLoop (loop : Loop) : Prop :=
  ∀ origin evm, evm.callStack ≠ [] → evm.stateDB.Numbered → evm.stateDB.RevertsTo origin → Safe origin (loop evm)

section Finishing

variable {chain : Chain} {origin : Origin} {script : Script} {self : Address}

theorem exec_callStack_ne_nil {inner : Returned} (stack : evm.callStack ≠ []) (numbered : evm.stateDB.Numbered)
    (ran : EVM.exec chain script self [] evm = .ok inner) : inner.evm.callStack ≠ [] := by
  obtain ⟨top, rest, found⟩ := List.exists_cons_of_ne_nil stack
  obtain ⟨kids, added, inside⟩ := exec_runs chain script self [] evm inner stack numbered ran
  obtain ⟨recorded, _, left⟩ := inside.stack
  rw [(left top rest found).1]
  exact List.cons_ne_nil _ _

theorem runFrame_logged {tx : InternalTx} {codeEmpty readOnly : Bool} {r : Returned}
    (numbered : evm.stateDB.Numbered)
    (ran : evm.runFrame tx codeEmpty readOnly (EVM.exec chain script self []) = .ok r) :
    ∃ added, Logged evm.stateDB r.evm.stateDB added := by
  cases codeEmpty with
  | true =>
    obtain ⟨_, _, stateDB, _, _⟩ := EVM.runFrame_empty ran
    exact ⟨[], stateDB ▸ .refl _⟩
  | false =>
    obtain ⟨inner, executed, _, _, stateDB, _, _⟩ := EVM.runFrame_ok ran
    obtain ⟨kids, added, inside⟩ := exec_runs chain script self [] (evm.entered tx readOnly) inner
      (List.cons_ne_nil _ _) numbered executed
    exact ⟨added, stateDB ▸ inside.logged⟩

theorem Attempt.Sound.finish_safe (sound : attempt.Sound evm) (safe : SafeLoop (EVM.exec chain script self []))
    (numbered : evm.stateDB.Numbered) (reverts : evm.stateDB.RevertsTo origin)
    (inFrame : evm.callStack = [] → ∀ evm', attempt.opening ≠ .codeless evm') :
    Safe origin (attempt.finish (EVM.exec chain script self [])) := by
  have opened := sound.opened
  unfold Attempt.finish EVM.finish
  cases opening : attempt.opening with
  | refused err evm' =>
    rw [opening] at opened
    obtain ⟨s, quiet, rfl⟩ := opened
    exact quiet.reverts origin reverts
  | codeless evm' =>
    rw [opening] at opened
    obtain ⟨s, quiet, rfl⟩ := opened
    cases stack : evm.callStack with
    | nil => exact absurd opening (inFrame stack _)
    | cons top rest =>
      simp only [EVM.appendInTx]
      exact quiet.reverts origin reverts
  | precompiled snapshot evm' =>
    rw [opening] at opened
    obtain ⟨s, s', before, rfl, after, rfl⟩ := opened
    have numbered' := before.logged.numbered numbered
    have reverts' := after.reverts origin ((snapshot_plain s).reverts origin (before.reverts origin reverts))
    obtain ⟨t, reverted, earlier⟩ := reverts'.revertToSnapshot numbered' after.logged
    exact (sound.settles s.snapshot.1 _).safe reverts' reverted earlier
  | frame snapshot evm' codeEmpty =>
    rw [opening] at opened
    obtain ⟨s, s', before, rfl, after, rfl⟩ := opened
    have numbered' := before.logged.numbered numbered
    have reverts' := after.reverts origin ((snapshot_plain s).reverts origin (before.reverts origin reverts))
    have numbered'' := after.logged.numbered ((snapshot_logged s).numbered numbered')
    have ran : Safe origin (EVM.runFrame
      { evm with stateDB := s', payments := evm.payments ++ attempt.moved } attempt.tx
        codeEmpty attempt.readOnly (EVM.exec chain script self [])) := by
      apply runFrame_safe attempt.tx reverts'
      · exact safe origin _ (List.cons_ne_nil _ _) numbered'' reverts'
      · exact fun inner executed => exec_callStack_ne_nil (List.cons_ne_nil _ _) numbered'' executed
    refine Ends.bind ran fun result executed good => ?_
    obtain ⟨added, logged⟩ := runFrame_logged numbered'' executed
    obtain ⟨t, reverted, earlier⟩ := good.revertToSnapshot numbered' (after.logged.still_left logged)
    exact (sound.settles s.snapshot.1 result).safe good reverted earlier

end Finishing

section Executing

variable {origin : Origin} {chain : Chain} {next : Script}

def SafeScript (chain : Chain) (script : Script) : Prop :=
  ∀ self events, SafeLoop (EVM.exec chain script self events)

theorem SafeScript.after_quiet {self : Address} {events : List Event} {s : StateDB} (safe : SafeScript chain next)
    (quiet : Quiet evm.stateDB s) (stack : evm.callStack ≠ []) (numbered : evm.stateDB.Numbered)
    (reverts : evm.stateDB.RevertsTo origin) :
    Safe origin (EVM.exec chain next self events { evm with stateDB := s }) :=
  safe self events origin _ stack (quiet.logged.numbered numbered) (quiet.reverts origin reverts)

theorem SafeScript.after_finish {script : Script} {self callee : Address} {events : List Event}
    (sound : attempt.Sound evm) (inner : SafeScript chain script) (safe : SafeScript chain next)
    (stack : evm.callStack ≠ []) (numbered : evm.stateDB.Numbered) (reverts : evm.stateDB.RevertsTo origin) :
    Safe origin (do
      let result ← attempt.finish (EVM.exec chain script callee [])
      EVM.exec chain next self events result.evm) := by
  have finished := sound.finish_safe (inner callee []) numbered reverts fun empty => absurd empty stack
  refine Ends.bind finished fun result returned good => ?_
  obtain ⟨kids, added, step⟩ := sound.finish_step numbered (exec_runs chain script) returned
  exact safe self events origin _ (step.returns.callStack_ne_nil stack) (step.logged.numbered numbered) good

theorem payOut_quiet (chain : Chain) (evm : EVM) (self beneficiary : Address) :
    Quiet evm.stateDB (evm.payOut chain self beneficiary).stateDB :=
  ((getBalance_plain evm.stateDB self).trans (addBalance_plain chain.keccak _ beneficiary _)).toQuiet.trans
    (suicide_quiet _ self)

theorem exec_safe (chain : Chain) (script : Script) : SafeScript chain script := by
  induction script with
  | done ending =>
    intro self events origin evm stack numbered reverts
    cases ending with
    | stop ret | revert ret | invalid => exact leave_safe stack reverts _ _ _
    | abort => exact reverts
  | read what next ih =>
    exact fun self events origin evm => ih.after_quiet (what.apply_plain chain.keccak self evm.stateDB).toQuiet
  | addRefund gas next ih => exact fun self events origin evm => ih.after_quiet (addRefund_quiet evm.stateDB gas)
  | subRefund gas next ih =>
    intro self events origin evm stack numbered reverts
    rw [EVM.exec]
    cases subtracted : evm.stateDB.subRefund gas with
    | ok s => exact ih.after_quiet (subRefund_quiet evm.stateDB subtracted) stack numbered reverts
    | error panic =>
      unfold StateDB.subRefund at subtracted
      split at subtracted
      · cases subtracted
        rfl
      · cases subtracted
  | log topics data next ih =>
    intro self events origin evm stack numbered reverts
    rw [EVM.exec]
    split
    · exact leave_safe stack reverts _ _ _
    · obtain ⟨stored, step⟩ := emit_step chain evm self topics data
      exact ih self _ origin _ stack (step.logged.numbered numbered) (addLog_reverts _ _ reverts)
  | sstore loc val next ih =>
    intro self events origin evm stack numbered reverts
    rw [EVM.exec]
    split
    · exact leave_safe stack reverts _ _ _
    · exact ih.after_quiet (setState_quiet evm.stateDB self loc val) stack numbered reverts
  | selfdestruct beneficiary =>
    intro self events origin evm stack numbered reverts
    rw [EVM.exec]
    split
    · exact leave_safe stack reverts _ _ _
    · have paid := (payOut_quiet chain evm self beneficiary).reverts origin reverts
      have stack' : (evm.payOut chain self beneficiary).callStack ≠ [] := stack
      exact leave_safe stack' paid _ _ _
  | call kind addr value input precompiled callee next ih' ih =>
    intro self events origin evm stack numbered reverts
    rw [EVM.exec]
    split
    · exact leave_safe stack reverts _ _ _
    · rw [dispatch_eq]
      exact SafeScript.after_finish (attemptCall_sound chain evm self addr input value.toNat precompiled kind)
        ih' ih stack numbered reverts
  | create address value code paid init next ih' ih =>
    intro self events origin evm stack numbered reverts
    rw [EVM.exec]
    split
    · exact leave_safe stack reverts _ _ _
    · rw [create_eq]
      exact SafeScript.after_finish (attemptCreate_sound chain evm self value.toNat code address paid)
        ih' ih stack numbered reverts

end Executing

/-- What is left to execute of a frame. -/
structure Point where
  script : Script
  self : Address
  evm : EVM

namespace Point

variable (chain : Chain)

def invokes : Point → Option Attempt
  | ⟨.call kind addr value input precompiled _ _, self, evm⟩ =>
    if kind = .call && evm.readOnly && value ≠ 0 then none
    else some (attemptCall chain evm self addr input value.toNat precompiled kind)
  | ⟨.create address value code paid _ _, self, evm⟩ =>
    if evm.readOnly then none else some (attemptCreate chain evm self value.toNat code address paid)
  | _ => none

def callee : Point → Script × Address × Script
  | ⟨.call kind addr _ _ _ callee next, self, _⟩ => (callee, EVM.calleeSelf self addr kind, next)
  | ⟨.create address _ _ _ init next, _, _⟩ => (init, address, next)
  | ⟨script, self, _⟩ => (script, self, script)

def returned : Point → Except Panic Returned
  | ⟨.call kind addr value input precompiled callee _, self, evm⟩ =>
    evm.dispatch chain kind self addr value input precompiled
      (EVM.exec chain callee (EVM.calleeSelf self addr kind) [])
  | ⟨.create address value code paid init _, self, evm⟩ =>
    evm.create chain self code value.toNat address paid (EVM.exec chain init address [])
  | ⟨_, _, evm⟩ => .ok ⟨[], none, evm⟩

/-- The execution goes on in the same frame, or inside of a frame that it opens. -/
inductive Leads : Point → Point → Prop
  | read (what : Read) (next : Script) (self : Address) (evm : EVM) :
      Leads ⟨.read what next, self, evm⟩ ⟨next, self, { evm with stateDB := what.apply chain.keccak self evm.stateDB }⟩
  | addRefund (gas : Uint64) (next : Script) (self : Address) (evm : EVM) :
      Leads ⟨.addRefund gas next, self, evm⟩ ⟨next, self, { evm with stateDB := evm.stateDB.addRefund gas }⟩
  | subRefund (gas : Uint64) (next : Script) (self : Address) (evm : EVM) (s : StateDB)
      (subtracted : evm.stateDB.subRefund gas = .ok s) :
      Leads ⟨.subRefund gas next, self, evm⟩ ⟨next, self, { evm with stateDB := s }⟩
  | log (topics : List Hash) (data : Bytes) (next : Script) (self : Address) (evm : EVM)
      (writable : evm.readOnly = false) :
      Leads ⟨.log topics data next, self, evm⟩ ⟨next, self, (evm.emit chain self topics data).2⟩
  | sstore (loc val : Hash) (next : Script) (self : Address) (evm : EVM) (writable : evm.readOnly = false) :
      Leads ⟨.sstore loc val next, self, evm⟩ ⟨next, self, { evm with stateDB := evm.stateDB.setState self loc val }⟩
  | enters (p : Point) (attempt : Attempt) (snapshot : Nat) (evm : EVM) (invoked : p.invokes chain = some attempt)
      (opened : attempt.opening = .frame snapshot evm false) :
      Leads p ⟨p.callee.1, p.callee.2.1, evm.entered attempt.tx attempt.readOnly⟩
  | returns (p : Point) (attempt : Attempt) (r : Returned) (invoked : p.invokes chain = some attempt)
      (finished : p.returned chain = .ok r) : Leads p ⟨p.callee.2.2, p.self, r.evm⟩

structure Inside (evm : EVM) : Prop where
  stack : evm.callStack ≠ []
  numbered : evm.stateDB.Numbered
  revertible : evm.stateDB.Revertible

variable {chain} {p q : Point}

theorem Inside.entered (sound : attempt.Sound evm) {snapshot : Nat} {evm' : EVM} {codeEmpty : Bool}
    (opened : attempt.opening = .frame snapshot evm' codeEmpty) (numbered : evm.stateDB.Numbered)
    (revertible : evm.stateDB.Revertible) : Inside (evm'.entered attempt.tx attempt.readOnly) := by
  have opening := sound.opened
  rw [opened] at opening
  obtain ⟨s, s', before, -, after, rfl⟩ := opening
  have quiet := (before.trans ((snapshot_plain s).trans after)).toQuiet
  exact ⟨List.cons_ne_nil _ _, quiet.logged.numbered numbered, quiet.revertible revertible⟩

theorem invokes_sound (invoked : p.invokes chain = some attempt) :
    attempt.Sound p.evm ∧ p.returned chain = attempt.finish (EVM.exec chain p.callee.1 p.callee.2.1 []) := by
  obtain ⟨script, self, evm⟩ := p
  cases script with
  | call kind addr value input precompiled callee next =>
    simp only [invokes] at invoked
    split at invoked
    · cases invoked
    · cases invoked
      exact ⟨attemptCall_sound chain evm self addr input value.toNat precompiled kind,
        dispatch_eq chain evm self addr input precompiled kind value _⟩
  | create address value code paid init next =>
    simp only [invokes] at invoked
    split at invoked
    · cases invoked
    · cases invoked
      exact ⟨attemptCreate_sound chain evm self value.toNat code address paid, rfl⟩
  | done | read | addRefund | subRefund | log | sstore | selfdestruct => cases invoked

end Point

/-- A return with at most one frame, which is the tree of those that were opened. -/
def Disciplined (evm : EVM) (frames : List InternalTx) : Except Panic Returned → Prop :=
  Machine.Ends (· = .negativeRefund) fun r =>
    ∃ kids, Returns evm r.evm kids ∧ kids.length ≤ 1 ∧ bareOf kids = frames

theorem length_bareOf (kids : List InternalTx) : (bareOf kids).length = kids.length := by
  induction kids with
  | nil => rfl
  | cons tx rest ih => rw [bareOf, List.length_cons, List.length_cons, ih]

theorem Attempt.frames_length (attempt : Attempt) (below : EVM → List InternalTx) :
    (attempt.frames below).length ≤ 1 := by
  unfold Attempt.frames
  split <;> simp

theorem Attempt.Sound.disciplined {chain : Chain} (sound : attempt.Sound evm) (script : Script) (self : Address)
    (numbered : evm.stateDB.Numbered) (revertible : evm.stateDB.Revertible)
    (inFrame : evm.callStack = [] → ∀ evm', attempt.opening ≠ .codeless evm') :
    Disciplined evm (attempt.frames (script.frames chain self)) (attempt.finish (EVM.exec chain script self [])) := by
  obtain ⟨origin, reverts⟩ := revertible.revertsTo
  have safe := sound.finish_safe (exec_safe chain script self []) numbered reverts inFrame
  unfold Disciplined
  cases finished : attempt.finish (EVM.exec chain script self []) with
  | error panic =>
    rw [finished] at safe
    exact safe
  | ok r =>
    obtain ⟨kids, added, step⟩ := sound.finish_step numbered (exec_runs chain script) finished
    refine ⟨kids, step.returns, ?_, step.frames⟩
    rw [← length_bareOf, step.frames]
    exact attempt.frames_length _

namespace Point

variable {chain : Chain} {p q : Point}

theorem Inside.of_quiet {s : StateDB} (inside : Inside evm) (quiet : Quiet evm.stateDB s) :
    Inside { evm with stateDB := s } :=
  ⟨inside.stack, quiet.logged.numbered inside.numbered, quiet.revertible inside.revertible⟩

theorem Leads.inside (leads : Leads chain p q) (inside : Inside p.evm) : Inside q.evm := by
  cases leads with
  | read what next self evm => exact inside.of_quiet (what.apply_plain chain.keccak self evm.stateDB).toQuiet
  | addRefund gas next self evm => exact inside.of_quiet (addRefund_quiet evm.stateDB gas)
  | subRefund gas next self evm s subtracted => exact inside.of_quiet (subRefund_quiet evm.stateDB subtracted)
  | sstore loc val next self evm writable => exact inside.of_quiet (setState_quiet evm.stateDB self loc val)
  | log topics data next self evm writable =>
    obtain ⟨stored, step⟩ := emit_step chain evm self topics data
    obtain ⟨origin, reverts⟩ := inside.revertible.revertsTo
    exact ⟨inside.stack, step.logged.numbered inside.numbered, (addLog_reverts _ _ reverts).revertible⟩
  | enters _ attempt snapshot evm invoked opened =>
    exact .entered (invokes_sound invoked).1 opened inside.numbered inside.revertible
  | returns _ attempt r invoked finished =>
    obtain ⟨sound, same⟩ := invokes_sound invoked
    obtain ⟨origin, reverts⟩ := inside.revertible.revertsTo
    have safe := sound.finish_safe (exec_safe chain p.callee.1 p.callee.2.1 []) inside.numbered reverts
      fun empty => absurd empty inside.stack
    rw [same] at finished
    rw [finished] at safe
    obtain ⟨kids, added, step⟩ := sound.finish_step inside.numbered (exec_runs chain _) finished
    exact ⟨step.returns.callStack_ne_nil inside.stack, step.logged.numbered inside.numbered, safe.revertible⟩

theorem reaches_inside (reaches : Relation.ReflTransGen (Leads chain) p q) (inside : Inside p.evm) : Inside q.evm := by
  induction reaches with
  | refl => exact inside
  | tail _ leads ih => exact leads.inside ih

def frames (chain : Chain) (p : Point) (attempt : Attempt) : List InternalTx :=
  attempt.frames (p.callee.1.frames chain p.callee.2.1)

theorem disciplined (inside : Inside p.evm) (invoked : p.invokes chain = some attempt) :
    Disciplined p.evm (p.frames chain attempt) (p.returned chain) := by
  obtain ⟨sound, same⟩ := invokes_sound invoked
  rw [same]
  exact sound.disciplined _ _ inside.numbered inside.revertible fun empty => absurd empty inside.stack

end Point

namespace EVM

variable (chain : Chain) (evm : EVM) (caller addr : Address)

theorem openCreate_ne_codeless (code : Bytes) (value : Int) (evm' : EVM) :
    evm.openCreate chain caller code value addr ≠ .codeless evm' := by
  unfold openCreate
  split
  · exact nofun
  · simp only
    split
    · exact nofun
    · split
      · exact nofun
      · split
        · exact nofun
        · exact nofun

theorem openCall_ne_codeless (value : Int) (revertible : evm.stateDB.Revertible)
    (coded : evm.stateDB.codeAt addr ≠ []) (evm' : EVM) : evm.openCall chain caller addr value ≠ .codeless evm' := by
  have funds : ∃ funded s, (if value = 0 then (true, evm) else evm.canTransfer caller value) =
      (funded, { evm with stateDB := s }) ∧ Calm evm.stateDB s := by
    split
    · exact ⟨true, evm.stateDB, rfl, .refl _⟩
    · exact ⟨_, _, rfl, getBalance_calm evm.stateDB caller⟩
  obtain ⟨funded, s, checked, calm⟩ := funds
  unfold openCall
  split
  · rintro ⟨⟩
  · rw [checked]
    cases funded with
    | false => rintro ⟨⟩
    | true =>
      have taken := calm.trans (snapshot_calm s)
      have present : (s.snapshot.2.exist addr).1 = true := by
        apply exist_of_codeAt
        rw [taken.code revertible]
        exact coded
      have found := taken.trans (exist_calm s.snapshot.2 addr)
      have paid := (found.trans (subBalance_calm _ caller value)).trans (addBalance_calm chain.keccak _ addr value)
      have code := paid.code revertible addr
      show enterCall chain { evm with stateDB := (s.snapshot.2.exist addr).2 } s.snapshot.1
        (s.snapshot.2.exist addr).1 caller addr value ≠ _
      rw [present]
      simp only [enterCall, Bool.not_true, Bool.false_and, Bool.false_eq_true, if_false, if_true]
      split
      · rintro ⟨⟩
      · split_ifs with empty
        · exact absurd (code.symm.trans empty) coded
        · rintro ⟨⟩

end EVM

end IDWDetector.Vm
