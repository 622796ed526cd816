import IDWDetector.Vm.Visits

namespace IDWDetector.Vm

open State State.StateDB Machine

section Running

variable {chain : Chain} {evm evm' : EVM} {outcome : Outcome} {visits visits' : Bool → List Visit}
  {frames frames' kids more : List InternalTx} {added extra : List Log} {own : List Entry} {r : Returned}

theorem Step.of_logged {s : StateDB} (logged : Logged evm.stateDB s []) :
    Step evm { evm with stateDB := s } [] (fun _ => []) [] [] [] where
  returns := .of_eq rfl rfl rfl rfl
  frames := rfl
  logged := logged
  nodes := fun _ => rfl
  payments := fun _ => (List.append_nil _).symm
  kept := rfl

theorem emit_step (chain : Chain) (evm : EVM) (self : Address) (topics : List Hash) (data : Bytes) :
    ∃ stored, Step evm (evm.emit chain self topics data).2 [(self, topics, data)] (fun _ => []) [] [] [stored] := by
  obtain ⟨stored, logged, address, topics', data'⟩ :=
    addLog_logged evm.stateDB { address := self, topics := topics, data := data, blockNumber := chain.blockNumber }
  have entry : logEntry stored = (self, topics, data) := by
    rw [logEntry, address, topics', data']
  exact ⟨stored, .of_eq rfl rfl rfl rfl, rfl, logged, fun _ => rfl, fun _ => (List.append_nil _).symm, by simp [entry]⟩

theorem payOut_step (chain : Chain) (evm : EVM) (self beneficiary : Address) :
    Step evm (evm.payOut chain self beneficiary) []
      (fun undone => [⟨none, [], [⟨self, beneficiary, (evm.stateDB.getBalance self).1⟩], undone⟩]) [] [] [] where
  returns := .of_eq rfl rfl rfl rfl
  frames := rfl
  logged := ((getBalance_plain evm.stateDB self).logged.trans
    (addBalance_plain chain.keccak _ beneficiary _).logged).trans (suicide_quiet _ self).logged
  nodes := fun _ => rfl
  payments := fun _ => rfl
  kept := rfl

theorem Ran.leave {events new : List Event} {ret : Bytes} {err : Option VmError}
    (entries : new.map Event.entry = own) (success : err = none → own = [])
    (left : evm.leave (events ++ new) ret err = .ok r) :
    Ran ⟨ret, err, some own⟩ (fun _ => []) [] events evm r [] [] := by
  obtain ⟨evm', assigned, result⟩ := bind_ok.mp left
  cases result
  unfold EVM.setEvents at assigned
  split at assigned <;> rename_i stack
  · cases assigned
  · rename_i top rest
    cases assigned
    refine ⟨rfl, rfl, ⟨some (events ++ new), by simp [entries], ?_⟩, rfl, rfl, rfl, .refl _, fun _ => rfl,
      fun _ => (List.append_nil _).symm, fun none => ⟨own, rfl, by rw [success none]; rfl⟩⟩
    intro top' rest' same
    rw [stack] at same
    cases same
    exact ⟨by rw [List.append_nil]; rfl, rfl⟩

theorem Ran.abort (events : List Event) (evm : EVM) :
    Ran ⟨[], some .outOfGas, none⟩ (fun _ => []) [] events evm ⟨[], some .outOfGas, evm⟩ [] [] := by
  refine ⟨rfl, rfl, ⟨none, rfl, ?_⟩, rfl, rfl, rfl, .refl _, fun _ => rfl, fun _ => (List.append_nil _).symm, nofun⟩
  intro top rest stack
  rw [stack, List.append_nil]
  cases top
  exact ⟨rfl, rfl⟩

theorem Ran.after {events new : List Event} (step : Step evm evm' own visits frames kids added)
    (entries : new.map Event.entry = own) (ran : Ran outcome visits' frames' (events ++ new) evm' r more extra) :
    Ran (outcome.record own) (fun undone => visits undone ++ visits' undone) (frames ++ frames') events evm r
      (kids ++ more) (added ++ extra) where
  ret := ran.ret
  err := ran.err
  stack := by
    obtain ⟨recorded, same, stack⟩ := ran.stack
    refine ⟨recorded, ?_, ?_⟩
    · rw [same, Outcome.record, Option.map_map, List.map_append, entries]
      simp only [Function.comp_def, List.append_assoc]
    · intro top rest above
      obtain ⟨middle, exTx⟩ := step.returns.callStack_cons above
      obtain ⟨callStack, exTx'⟩ := stack _ rest middle
      rw [callStack, exTx', exTx, List.append_assoc]
      exact ⟨rfl, rfl⟩
  depth := ran.depth.trans step.returns.depth
  readOnly := ran.readOnly.trans step.returns.readOnly
  frames := by rw [bareOf_append, step.frames, ran.frames]
  logged := step.logged.trans ran.logged
  nodes := by
    intro undone
    rw [nodesOf_append, step.nodes undone, ran.nodes undone, List.filterMap_append]
  payments := by
    intro undone
    rw [ran.payments undone, step.payments undone, List.flatMap_append, List.append_assoc]
  kept := by
    intro success
    obtain ⟨entries', assigned, kept⟩ := ran.kept success
    refine ⟨own ++ entries', by rw [Outcome.record, assigned]; rfl, ?_⟩
    rw [List.map_append, List.flatMap_append, ← Multiset.coe_add, step.kept, kept, ← Multiset.coe_add,
      ← Multiset.coe_add]
    exact add_add_add_comm _ _ _ _

theorem Ran.leave_nil {events : List Event} {ret : Bytes} {err : Option VmError}
    (left : evm.leave events ret err = .ok r) : Ran ⟨ret, err, some []⟩ (fun _ => []) [] events evm r [] [] := by
  have left' : evm.leave (events ++ []) ret err = .ok r := by rwa [List.append_nil]
  exact Ran.leave rfl (fun _ => rfl) left'

theorem Ran.after_quiet {events : List Event} (step : Step evm evm' [] visits frames kids added)
    (ran : Ran outcome visits' frames' events evm' r more extra) :
    Ran outcome (fun undone => visits undone ++ visits' undone) (frames ++ frames') events evm r (kids ++ more)
      (added ++ extra) := by
  have ran' : Ran outcome visits' frames' (events ++ []) evm' r more extra := by rwa [List.append_nil]
  have both := Ran.after step rfl ran'
  rwa [Outcome.record_nil] at both

end Running

structure Settled (rolledBack : Bool) (snapshot : Nat) (result r : Returned) : Prop where
  frames : ∃ s, r.evm = { result.evm with stateDB := s }
  quiet : rolledBack = false → Plain result.evm.stateDB r.evm.stateDB
  reverted : rolledBack = true → result.evm.stateDB.revertToSnapshot snapshot = .ok r.evm.stateDB

/-- A frame is settled by keeping its state, up to the code it deploys, or by going back to its snapshot. -/
def Settles (rolledBack : Bool) (snapshot : Nat) (result : Returned) (settled : Except Panic Returned) : Prop :=
  ∃ ret err, match rolledBack with
    | false => ∃ s, Plain result.evm.stateDB s ∧ settled = .ok ⟨ret, err, { result.evm with stateDB := s }⟩
    | true => settled = (do .ok ⟨ret, err, ← result.evm.revertToSnapshot snapshot⟩)

theorem Settles.settled {rolledBack : Bool} {snapshot : Nat} {result r : Returned}
    (settles : Settles rolledBack snapshot result (.ok r)) : Settled rolledBack snapshot result r := by
  obtain ⟨ret, err, settles⟩ := settles
  cases rolledBack with
  | false =>
    obtain ⟨s, plain, same⟩ := settles
    cases same
    exact ⟨⟨s, rfl⟩, fun _ => plain, nofun⟩
  | true =>
    obtain ⟨evm, reverted, same⟩ := bind_ok.mp settles.symm
    obtain ⟨s, found, same'⟩ := bind_ok.mp reverted
    cases same
    cases same'
    exact ⟨⟨s, rfl⟩, nofun, fun _ => found⟩

structure Attempt.Sound (attempt : Attempt) (evm : EVM) : Prop where
  opened : attempt.opening.From evm attempt.moved
  fresh : attempt.tx.events = [] ∧ attempt.tx.inTxs = []
  settles : ∀ snapshot result,
    Settles (attempt.rolledBack result.ret result.err) snapshot result (attempt.settle snapshot result)
  succeeds : ∀ ret err, err ≠ some .codeStoreOutOfGas → attempt.rolledBack ret err = false → err = none

theorem Attempt.Sound.settled {attempt : Attempt} {evm : EVM} (sound : attempt.Sound evm) {snapshot : Nat}
    {result r : Returned} (settled : attempt.settle snapshot result = .ok r) :
    Settled (attempt.rolledBack result.ret result.err) snapshot result r :=
  Settles.settled (settled ▸ sound.settles snapshot result)

theorem settleCall_settles (snapshot : Nat) (result : Returned) :
    Settles result.err.isSome snapshot result (EVM.settleCall snapshot result) := by
  obtain ⟨ret, err, evm⟩ := result
  cases err with
  | none => exact ⟨ret, none, evm.stateDB, .refl _, rfl⟩
  | some e => exact ⟨ret, some e, rfl⟩

theorem settleCreate_settles (chain : Chain) (address : Address) (paid : Bool) (snapshot : Nat) (result : Returned) :
    Settles (EVM.rollsBack chain (EVM.deployError chain result.ret paid result.err)) snapshot result
      (EVM.settleCreate chain address paid snapshot result) := by
  rw [EVM.settleCreate]
  refine ⟨result.ret, EVM.deployError chain result.ret paid result.err, ?_⟩
  cases EVM.deployError chain result.ret paid result.err with
  | none => exact ⟨_, setCode_plain _ address _, rfl⟩
  | some e =>
    cases EVM.rollsBack chain (some e) with
    | false => exact ⟨_, .refl _, rfl⟩
    | true => rfl

theorem call_succeeds (err : Option VmError) (kept : err.isSome = false) : err = none :=
  Option.isSome_eq_false_iff.mp kept |> Option.isNone_iff_eq_none.mp

theorem create_succeeds (chain : Chain) (ret : Bytes) (paid : Bool) (err : Option VmError)
    (other : err ≠ some .codeStoreOutOfGas)
    (kept : EVM.rollsBack chain (EVM.deployError chain ret paid err) = false) : err = none := by
  cases err with
  | none => rfl
  | some e => simp [EVM.deployError, EVM.rollsBack, other] at kept

theorem outcome_err (script : Script) (readOnly : Bool) (self : Address) :
    (script.outcome readOnly self).err ≠ some .codeStoreOutOfGas := by
  induction script with
  | done ending => cases ending <;> simp [Script.outcome, Ending.outcome]
  | read what next ih | addRefund gas next ih | subRefund gas next ih => exact ih
  | selfdestruct beneficiary => cases readOnly <;> simp [Script.outcome, Outcome.writeProtected, Outcome.quiet]
  | log topics data next ih =>
    rw [Script.outcome]
    split
    · exact nofun
    · exact ih
  | sstore loc val next ih | create address value code paid init next ih' ih =>
    rw [Script.outcome]
    split
    · exact nofun
    · exact ih
  | call kind addr value input precompiled callee next ih' ih =>
    rw [Script.outcome]
    split
    · exact nofun
    · exact ih

theorem attemptCall_sound (chain : Chain) (evm : EVM) (self addr : Address) (input : Bytes) (value : Int)
    (precompiled : Option Bytes) (kind : CallKind) :
    (attemptCall chain evm self addr input value precompiled kind).Sound evm := by
  cases kind with
  | call => exact ⟨EVM.openCall_from chain evm self addr value, ⟨rfl, rfl⟩, settleCall_settles,
      fun _ err _ => call_succeeds err⟩
  | callCode => exact ⟨EVM.openCallCode_from chain evm self addr value, ⟨rfl, rfl⟩, settleCall_settles,
      fun _ err _ => call_succeeds err⟩
  | delegateCall => exact ⟨EVM.openDelegateCall_from chain evm addr, ⟨rfl, rfl⟩, settleCall_settles,
      fun _ err _ => call_succeeds err⟩
  | staticCall => exact ⟨EVM.openStaticCall_from chain evm addr, ⟨rfl, rfl⟩, settleCall_settles,
      fun _ err _ => call_succeeds err⟩

theorem attemptCreate_sound (chain : Chain) (evm : EVM) (self : Address) (value : Int) (code : Bytes)
    (address : Address) (paid : Bool) : (attemptCreate chain evm self value code address paid).Sound evm :=
  ⟨EVM.openCreate_from chain evm self code value address, ⟨rfl, rfl⟩, settleCreate_settles chain address paid,
    fun ret err => create_succeeds chain ret paid err⟩

def Runs (chain : Chain) (script : Script) : Prop :=
  ∀ self events evm r, evm.callStack ≠ [] → evm.stateDB.Numbered → EVM.exec chain script self events evm = .ok r →
    ∃ kids added, Ran (script.outcome evm.readOnly self) (fun undone => script.visits chain self undone evm)
      (script.frames chain self evm) events evm r kids added

def Shown (tx : InternalTx) (moved : List Payment) : Prop :=
  match tx.callType with
  | .call => ∃ value, tx.value = some value ∧ moved = [⟨tx.fromAddr, tx.toAddr, value⟩]
  | .callCode => moved = []
  | .delegateCall | .staticCall => tx.value = none ∧ moved = []
  | .create => tx.value = none

theorem attemptCall_shown (chain : Chain) (evm : EVM) (self addr : Address) (input : Bytes) (value : Int)
    (precompiled : Option Bytes) (kind : CallKind) :
    Shown (attemptCall chain evm self addr input value precompiled kind).tx
      (attemptCall chain evm self addr input value precompiled kind).moved := by
  cases kind with
  | call => exact ⟨value, rfl, rfl⟩
  | callCode => exact rfl
  | delegateCall => exact ⟨rfl, rfl⟩
  | staticCall => exact ⟨rfl, rfl⟩

theorem attemptCreate_shown (chain : Chain) (evm : EVM) (self : Address) (value : Int) (code : Bytes)
    (address : Address) (paid : Bool) : Shown (attemptCreate chain evm self value code address paid).tx
      (attemptCreate chain evm self value code address paid).moved := rfl

/-- Below a frame that is rolled back everything is rolled back, and nodes show the ether that they move as their
    call type has it. -/
structure Visit.Fits (undone : Bool) (visit : Visit) : Prop where
  undone : undone = true → visit.undone = true
  blank : visit.recorded = none → visit.events = []
  shown : ∀ tx, visit.recorded = some tx → Shown tx visit.moved

theorem Attempt.visits_fit {attempt : Attempt} {script : Script} {self : Address} {below : Bool → EVM → List Visit}
    (shown : Shown attempt.tx attempt.moved)
    (fits : ∀ undone evm, ∀ visit ∈ below undone evm, visit.Fits undone) (undone : Bool) :
    ∀ visit ∈ attempt.visits script self undone below, visit.Fits undone := by
  intro visit member
  unfold Attempt.visits at member
  split at member
  · cases member
  · rw [List.mem_singleton.mp member]
    exact ⟨fun above => by rw [above]; rfl, fun _ => rfl, nofun⟩
  · rw [List.mem_singleton.mp member]
    exact ⟨id, nofun, fun tx same => Option.some.inj same ▸ shown⟩
  · rename_i snapshot evm codeEmpty _
    rcases List.mem_cons.mp member with rfl | later
    · refine ⟨fun above => by rw [above]; rfl, nofun, ?_⟩
      intro tx same
      cases same
      exact shown
    · cases codeEmpty with
      | true => cases later
      | false =>
        have inner := fits _ _ visit later
        exact ⟨fun above => inner.undone (by rw [above]; rfl), inner.blank, inner.shown⟩

theorem Script.visits_fit (chain : Chain) (script : Script) :
    ∀ self undone evm, ∀ visit ∈ script.visits chain self undone evm, visit.Fits undone := by
  induction script with
  | done ending => exact fun _ _ _ _ member => nomatch member
  | read what next ih | addRefund gas next ih => exact fun self undone evm => ih self undone _
  | subRefund gas next ih =>
    intro self undone evm visit member
    rw [Script.visits] at member
    split at member
    · cases member
    · exact ih self undone _ visit member
  | selfdestruct beneficiary =>
    intro self undone evm visit member
    rw [Script.visits] at member
    split at member
    · cases member
    · rw [List.mem_singleton.mp member]
      exact ⟨id, fun _ => rfl, nofun⟩
  | log topics data next ih | sstore loc val next ih =>
    intro self undone evm visit member
    rw [Script.visits] at member
    split at member
    · cases member
    · exact ih self undone _ visit member
  | call kind addr value input precompiled callee next ih' ih =>
    intro self undone evm visit member
    rw [Script.visits] at member
    split at member
    · cases member
    · rcases List.mem_append.mp member with here | later
      · exact Attempt.visits_fit (attemptCall_shown chain evm self addr input _ precompiled kind)
          (ih' _) undone visit here
      · split at later
        · cases later
        · exact ih self undone _ visit later
  | create address value code paid init next ih' ih =>
    intro self undone evm visit member
    rw [Script.visits] at member
    split at member
    · cases member
    · rcases List.mem_append.mp member with here | later
      · exact Attempt.visits_fit (attemptCreate_shown chain evm self _ code address paid) (ih' _) undone visit here
      · split at later
        · cases later
        · exact ih self undone _ visit later

theorem getD_entries {recorded : Option (List Event)} {entries : Option (List Entry)}
    (same : recorded.map (List.map Event.entry) = entries.map ([].map Event.entry ++ ·)) :
    (recorded.getD []).map Event.entry = entries.getD [] := by
  cases recorded <;> cases entries <;> simp_all

theorem flatMap_kept_undone {visits : List Visit} (undone : ∀ visit ∈ visits, visit.undone = true) :
    visits.flatMap Visit.kept = [] := by
  rw [List.flatMap_eq_nil_iff]
  intro visit member
  rw [Visit.kept, undone visit member]
  rfl

section Finishing

variable {attempt : Attempt} {evm : EVM} {r : Returned} {s : StateDB} {rolledBack : Bool} {snapshot : Nat}
  {result : Returned} {tx : InternalTx} {moved : List Payment}

theorem Step.settled {visits : Bool → List Visit} {frames kids : List InternalTx} {added : List Log}
    (settled : Settled rolledBack snapshot result r) (numbered : evm.stateDB.Numbered)
    (before : Logged evm.stateDB s []) (taken : snapshot = s.snapshot.1) (returns : Returns evm result.evm kids)
    (tree : bareOf kids = frames) (logged : Logged s.snapshot.2 result.evm.stateDB added)
    (nodes : ∀ undone, nodesOf kids = (visits undone).filterMap Visit.node)
    (payments : ∀ undone, result.evm.payments = evm.payments ++ (visits undone).flatMap Visit.moved)
    (kept : rolledBack = false →
      (added.map logEntry : Multiset Entry) = ((visits false).flatMap Visit.kept : List Entry))
    (dropped : rolledBack = true → (visits false).flatMap Visit.kept = []) :
    ∃ added, Step evm r.evm [] visits frames kids added := by
  obtain ⟨s', frames⟩ := settled.frames
  have returns' : Returns evm r.evm kids := by
    rw [frames]
    exact ⟨returns.frames, returns.depth, returns.readOnly⟩
  have payments' : r.evm.payments = result.evm.payments := by rw [frames]
  cases rolled : rolledBack with
  | false =>
    have logged' := (before.trans (snapshot_logged s)).trans (logged.still_right (settled.quiet rolled).logged)
    refine ⟨added, returns', tree, logged', nodes, fun undone => payments' ▸ payments undone, ?_⟩
    rw [kept rolled]
    simp
  | true =>
    have numbered' := before.numbered numbered
    have undone := (revertToSnapshot_logged numbered' logged (taken ▸ settled.reverted rolled)).1
    refine ⟨[], returns', tree, before.trans undone, nodes, fun undone => payments' ▸ payments undone, ?_⟩
    rw [dropped rolled]
    rfl

theorem codeless_step {evm' : EVM} (fresh : tx.events = [] ∧ tx.inTxs = []) (logged : Logged evm.stateDB s [])
    (appended : EVM.appendInTx { evm with stateDB := s, payments := evm.payments ++ moved } tx = .ok evm') :
    Step evm evm' [] (fun undone => [⟨some tx, [], moved, undone⟩]) [tx] [tx] [] := by
  obtain ⟨returns, stateDB, payments⟩ := EVM.appendInTx_ok appended
  exact
    { returns := ⟨returns.frames, returns.depth, returns.readOnly⟩
      frames := by rw [bareOf, bareOf, bare_fresh fresh]
      logged := by
        rw [stateDB]
        exact logged
      nodes := fun _ => by
        rw [nodesOf_singleton, nodes_fresh fresh]
        rfl
      payments := fun _ => by
        rw [payments]
        simp
      kept := rfl }

theorem frame_step {inner : Returned} {entered : EVM} {outcome : Outcome} {below : Bool → List Visit}
    {frames kids : List InternalTx} {added : List Log} {recorded : Option (List Event)}
    (ran : Ran outcome below frames [] entered inner kids added) (fresh : tx.events = [] ∧ tx.inTxs = [])
    (entries : recorded.map (List.map Event.entry) = outcome.events.map ([].map Event.entry ++ ·))
    (settled : Settled rolledBack snapshot result r) (succeeds : rolledBack = false → outcome.err = none)
    (numbered : evm.stateDB.Numbered) (before : Logged evm.stateDB s []) (taken : snapshot = s.snapshot.1)
    (opened : Logged s.snapshot.2 entered.stateDB []) (stateDB : result.evm.stateDB = inner.evm.stateDB)
    (returns : Returns evm result.evm [{ tx with events := recorded.getD [], inTxs := kids }])
    (paid : entered.payments = evm.payments ++ moved) (payments : result.evm.payments = inner.evm.payments)
    (dropped : ∀ visit ∈ below true, visit.undone = true) :
    ∃ kids added, Step evm r.evm [] (fun undone =>
      ⟨some tx, outcome.events.getD [], moved, undone || rolledBack⟩ :: below (undone || rolledBack))
      [{ tx with inTxs := frames }] kids added := by
  have logged : Logged s.snapshot.2 result.evm.stateDB added := by
    rw [stateDB]
    exact opened.still_left ran.logged
  have tree : bareOf [{ tx with events := recorded.getD [], inTxs := kids }] = [{ tx with inTxs := frames }] := by
    rw [bareOf, bareOf, bare_frame fresh, ran.frames]
  refine ⟨_, Step.settled settled numbered before taken returns tree logged ?_ ?_ ?_ ?_⟩
  · intro undone
    rw [nodesOf_singleton, nodes_frame fresh, getD_entries entries, ran.nodes (undone || rolledBack)]
    rfl
  · intro undone
    rw [payments, ran.payments (undone || rolledBack), paid, List.append_assoc, List.flatMap_cons]
  · intro kept
    obtain ⟨own, assigned, logs⟩ := ran.kept (succeeds kept)
    rw [logs, kept, assigned, List.flatMap_cons]
    exact Multiset.coe_add _ _
  · intro rolled
    rw [rolled, List.flatMap_cons, Bool.false_or, flatMap_kept_undone dropped]
    rfl

theorem Attempt.Sound.finish_step {chain : Chain} {script : Script} {self : Address} (sound : attempt.Sound evm)
    (numbered : evm.stateDB.Numbered) (runs : Runs chain script)
    (finished : attempt.finish (EVM.exec chain script self []) = .ok r) :
    ∃ kids added, Step evm r.evm [] (fun undone => attempt.visits script self undone
      fun undone evm => script.visits chain self undone evm)
      (attempt.frames (script.frames chain self)) kids added := by
  have opened := sound.opened
  unfold Attempt.finish EVM.finish at finished
  unfold Attempt.visits Attempt.frames
  cases opening : attempt.opening with
  | refused err evm' =>
    rw [opening] at opened finished
    obtain ⟨s, ⟨⟨logged, -⟩, -⟩, rfl⟩ := opened
    cases finished
    exact ⟨[], [], .of_logged logged⟩
  | codeless evm' =>
    rw [opening] at opened finished
    obtain ⟨s, ⟨⟨logged, -⟩, -⟩, rfl⟩ := opened
    obtain ⟨evm'', appended, result⟩ := bind_ok.mp finished
    cases result
    exact ⟨_, _, codeless_step sound.fresh logged appended⟩
  | precompiled snapshot evm' =>
    rw [opening] at opened finished
    obtain ⟨s, s', ⟨⟨before, -⟩, -⟩, taken, ⟨⟨logged, -⟩, -⟩, rfl⟩ := opened
    have settled := sound.settled finished
    refine ⟨[], Step.settled settled numbered before taken (.of_eq rfl rfl rfl rfl) rfl logged (fun _ => rfl)
      ?_ ?_ ?_⟩
    · intro undone
      simp
    · intro kept
      simp [Visit.kept, kept]
    · intro rolled
      simp [Visit.kept, rolled]
  | frame snapshot evm' codeEmpty =>
    rw [opening] at opened finished
    obtain ⟨s, s', ⟨⟨before, -⟩, -⟩, taken, ⟨⟨logged, -⟩, -⟩, rfl⟩ := opened
    obtain ⟨result, ran, settling⟩ := bind_ok.mp finished
    have settled := sound.settled settling
    have fresh : ({ attempt.tx with isContract := true } : InternalTx).events = [] ∧
        ({ attempt.tx with isContract := true } : InternalTx).inTxs = [] := sound.fresh
    cases codeEmpty with
    | true =>
      obtain ⟨ret, err, stateDB, payments, returns⟩ := EVM.runFrame_empty ran
      rw [ret, err] at settled
      refine ⟨_, Step.settled settled numbered before taken
        ⟨returns.frames, returns.depth, returns.readOnly⟩ ?_ (by rw [stateDB]; exact logged) ?_ ?_ ?_ ?_⟩
      · rw [bareOf, bareOf, bare_fresh fresh]
        simp [sound.fresh.2]
      · intro undone
        rw [nodesOf_singleton, nodes_fresh fresh]
        rfl
      · intro undone
        rw [payments]
        simp
      · intro kept
        simp [Visit.kept, Outcome.quiet]
      · intro rolled
        simp [Visit.kept, Outcome.quiet]
    | false =>
      obtain ⟨inner, executed, ret, err, stateDB, payments, returning⟩ := EVM.runFrame_ok ran
      have numbered' := logged.numbered ((snapshot_logged s).numbered (before.numbered numbered))
      obtain ⟨kids, added, inside⟩ := runs self [] _ inner (List.cons_ne_nil _ _) numbered' executed
      obtain ⟨recorded, entries, stack⟩ := inside.stack
      obtain ⟨callStack, exTx⟩ := stack _ _ rfl
      have returns := returning _ callStack exTx inside.depth inside.readOnly
      simp only [sound.fresh.1, sound.fresh.2, List.nil_append] at returns
      rw [ret, err, inside.ret, inside.err] at settled
      exact frame_step inside fresh entries settled (sound.succeeds _ _ (outcome_err script _ self)) numbered
        before taken logged stateDB ⟨returns.frames, returns.depth, returns.readOnly⟩ rfl payments
        fun visit member => (script.visits_fit chain self true _ visit member).undone rfl

end Finishing

section Executing

variable {chain : Chain} {script next : Script} {self : Address} {events : List Event} {evm evm' : EVM}
  {r : Returned}

theorem Runs.after_quiet {visits : Bool → List Visit} {frames kids : List InternalTx} {added : List Log}
    (runs : Runs chain next) (stack : evm.callStack ≠ []) (numbered : evm.stateDB.Numbered)
    (step : Step evm evm' [] visits frames kids added) (executed : EVM.exec chain next self events evm' = .ok r) :
    ∃ kids added, Ran (next.outcome evm.readOnly self)
      (fun undone => visits undone ++ next.visits chain self undone evm')
      (frames ++ next.frames chain self evm') events evm r kids added := by
  have stack' := step.returns.callStack_ne_nil stack
  have numbered' := step.logged.numbered numbered
  obtain ⟨more, extra, ran⟩ := runs self events evm' r stack' numbered' executed
  rw [step.returns.readOnly] at ran
  exact ⟨_, _, ran.after_quiet step⟩

def Read.op (self : Address) : Read → Op
  | .exist addr => .exist addr
  | .empty addr => .empty addr
  | .balance addr => .getBalance addr
  | .code addr => .getCode addr
  | .codeHash addr => .getCodeHash addr
  | .state key => .getState self key
  | .committedState key => .getCommittedState self key

theorem Read.exec_op (keccak : Bytes → Hash) (self : Address) (s : StateDB) (what : Read) :
    ∃ value, s.exec keccak 0 (what.op self) = .ok (value, what.apply keccak self s) := by
  cases what <;> exact ⟨_, rfl⟩

theorem Read.apply_plain (keccak : Bytes → Hash) (self : Address) (s : StateDB) (what : Read) :
    Plain s (what.apply keccak self s) := by
  obtain ⟨value, executed⟩ := what.exec_op keccak self s
  refine .of_op keccak (what.op self) ?_ ?_ executed
  · cases what <;> rfl
  · cases what <;> exact nofun

theorem done_runs (ending : Ending) : Runs chain (.done ending) := by
  intro self events evm r _ _ executed
  cases ending with
  | stop ret | revert ret | invalid => exact ⟨[], [], Ran.leave_nil executed⟩
  | abort =>
    cases executed
    exact ⟨[], [], Ran.abort events evm⟩

theorem log_runs (topics : List Hash) (data : Bytes) (runs : Runs chain next) :
    Runs chain (.log topics data next) := by
  intro self events evm r stack numbered executed
  rw [EVM.exec] at executed
  simp only [Script.outcome, Script.visits, Script.frames]
  split at executed <;> rename_i readOnly
  · simp only [if_pos readOnly]
    exact ⟨[], [], Ran.leave rfl nofun executed⟩
  · simp only [if_neg readOnly]
    obtain ⟨stored, step⟩ := emit_step chain evm self topics data
    have stack' := step.returns.callStack_ne_nil stack
    have numbered' := step.logged.numbered numbered
    obtain ⟨kids, added, ran⟩ := runs self _ _ r stack' numbered' executed
    rw [step.returns.readOnly] at ran
    exact ⟨_, _, Ran.after step rfl ran⟩

theorem sstore_runs (loc val : Hash) (runs : Runs chain next) : Runs chain (.sstore loc val next) := by
  intro self events evm r stack numbered executed
  rw [EVM.exec] at executed
  simp only [Script.outcome, Script.visits, Script.frames]
  split at executed <;> rename_i readOnly
  · simp only [if_pos readOnly]
    exact ⟨[], [], Ran.leave_nil executed⟩
  · simp only [if_neg readOnly]
    exact runs.after_quiet stack numbered (.of_logged (setState_quiet _ self loc val).logged) executed

theorem selfdestruct_runs (beneficiary : Address) : Runs chain (.selfdestruct beneficiary) := by
  intro self events evm r stack numbered executed
  rw [EVM.exec] at executed
  simp only [Script.outcome, Script.visits, Script.frames]
  split at executed <;> rename_i readOnly
  · simp only [if_pos readOnly]
    exact ⟨[], [], Ran.leave_nil executed⟩
  · simp only [if_neg readOnly]
    exact ⟨_, _, Ran.after_quiet (payOut_step chain evm self beneficiary) (Ran.leave_nil executed)⟩

theorem call_runs (kind : CallKind) (addr : Address) (value : Word) (input : Bytes) (precompiled : Option Bytes)
    {callee : Script} (inner : Runs chain callee) (runs : Runs chain next) :
    Runs chain (.call kind addr value input precompiled callee next) := by
  intro self events evm r stack numbered executed
  rw [EVM.exec] at executed
  simp only [Script.outcome, Script.visits, Script.frames]
  split at executed <;> rename_i blocked
  · simp only [if_pos blocked]
    exact ⟨[], [], Ran.leave_nil executed⟩
  · simp only [if_neg blocked]
    obtain ⟨result, called, later⟩ := bind_ok.mp executed
    rw [dispatch_eq] at called
    obtain ⟨kids, added, step⟩ := (attemptCall_sound chain evm self addr input value.toNat precompiled kind).finish_step
      numbered inner called
    simp only [called]
    exact runs.after_quiet stack numbered step later

theorem create_runs (address : Address) (value : Word) (code : Bytes) (paid : Bool) {init : Script}
    (inner : Runs chain init) (runs : Runs chain next) :
    Runs chain (.create address value code paid init next) := by
  intro self events evm r stack numbered executed
  rw [EVM.exec] at executed
  simp only [Script.outcome, Script.visits, Script.frames]
  split at executed <;> rename_i readOnly
  · simp only [if_pos readOnly]
    exact ⟨[], [], Ran.leave_nil executed⟩
  · simp only [if_neg readOnly]
    obtain ⟨result, created, later⟩ := bind_ok.mp executed
    rw [create_eq] at created
    obtain ⟨kids, added, step⟩ := (attemptCreate_sound chain evm self value.toNat code address paid).finish_step
      numbered inner created
    simp only [created]
    exact runs.after_quiet stack numbered step later

theorem exec_runs (chain : Chain) (script : Script) : Runs chain script := by
  induction script with
  | done ending => exact done_runs ending
  | read what next ih =>
    exact fun self events evm r stack numbered =>
      ih.after_quiet stack numbered (.of_logged (what.apply_plain chain.keccak self evm.stateDB).logged)
  | addRefund gas next ih =>
    exact fun self events evm r stack numbered =>
      ih.after_quiet stack numbered (.of_logged (addRefund_logged evm.stateDB gas))
  | subRefund gas next ih =>
    intro self events evm r stack numbered executed
    obtain ⟨s, subtracted, later⟩ := bind_ok.mp executed
    simp only [Script.visits, Script.frames, subtracted]
    exact ih.after_quiet stack numbered (.of_logged (subRefund_logged evm.stateDB subtracted)) later
  | log topics data next ih => exact log_runs topics data ih
  | sstore loc val next ih => exact sstore_runs loc val ih
  | selfdestruct beneficiary => exact selfdestruct_runs beneficiary
  | call kind addr value input precompiled callee next ih' ih =>
    exact call_runs kind addr value input precompiled ih' ih
  | create address value code paid init next ih' ih => exact create_runs address value code paid ih' ih

end Executing

variable (chain : Chain) (stateDB : StateDB) (message : Message)

/-- A message is a call or a creation on a fresh machine. -/
def Message.attempt : Message → Attempt
  | .call caller addr input value precompiled _ =>
    attemptCall chain { stateDB := stateDB } caller addr input value precompiled .call
  | .create caller code value address paid _ =>
    attemptCreate chain { stateDB := stateDB } caller value code address paid

def Message.script : Message → Script
  | .call _ _ _ _ _ callee => callee
  | .create _ _ _ _ _ init => init

def Message.self : Message → Address
  | .call _ addr _ _ _ _ => addr
  | .create _ _ _ address _ _ => address

def Message.visits (undone : Bool) : List Visit :=
  (message.attempt chain stateDB).visits message.script message.self undone
    (fun undone evm => message.script.visits chain message.self undone evm)

theorem Message.visits_fit (undone : Bool) :
    ∀ visit ∈ message.visits chain stateDB undone, visit.Fits undone := by
  apply Attempt.visits_fit _ (message.script.visits_fit chain message.self) undone
  cases message with
  | call caller addr input value precompiled callee =>
    exact attemptCall_shown chain { stateDB := stateDB } caller addr input value precompiled .call
  | create caller code value address paid init =>
    exact attemptCreate_shown chain { stateDB := stateDB } caller value code address paid

def Message.frames : List InternalTx :=
  (message.attempt chain stateDB).frames (message.script.frames chain message.self)

theorem Message.sound :
    (message.attempt chain stateDB).Sound { stateDB := stateDB } := by
  cases message with
  | call caller addr input value precompiled callee => exact attemptCall_sound _ _ _ _ _ _ _ .call
  | create caller code value address paid init => exact attemptCreate_sound ..

theorem Message.apply_eq : message.apply chain stateDB =
    (message.attempt chain stateDB).finish (EVM.exec chain message.script message.self []) := by
  cases message <;> rfl

theorem Message.apply_step {chain : Chain} {stateDB : StateDB} {message : Message} {r : Returned}
    (numbered : stateDB.Numbered) (applied : message.apply chain stateDB = .ok r) :
    ∃ kids added, Step { stateDB := stateDB } r.evm [] (message.visits chain stateDB)
      (message.frames chain stateDB) kids added := by
  rw [Message.apply_eq] at applied
  exact (message.sound chain stateDB).finish_step numbered (exec_runs chain message.script) applied

end IDWDetector.Vm
