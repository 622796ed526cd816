import IDWDetector.Vm.Executions

namespace IDWDetector.Vm

open State State.StateDB Machine

/-- What a call tree records: a call that is opened, or an event. -/
inductive Happening
  | opened (fromAddr toAddr : Address) (value : Option Int)
  | emitted (event : Event)

abbrev Placed := List Nat × Happening

def Placed.own (happening : Happening) : Placed := ([], happening)

def Placed.below (index : Nat) (placed : Placed) : Placed := (index :: placed.1, placed.2)

def InternalTx.opened (tx : InternalTx) : Placed := .own (.opened tx.fromAddr tx.toAddr tx.value)

mutual

def InternalTx.happenings : InternalTx → List Placed
  | ⟨fromAddr, toAddr, _, value, _, _, events, inTxs⟩ =>
    .own (.opened fromAddr toAddr value) ::
      (happeningsBelow 0 inTxs ++ events.map fun event => .own (.emitted event))

def happeningsBelow (index : Nat) : List InternalTx → List Placed
  | [] => []
  | tx :: rest => tx.happenings.map (Placed.below index) ++ happeningsBelow (index + 1) rest

end

def Outcome.recordedOf (outcome : Outcome) (order : List Placed) : List Placed :=
  if outcome.events.isSome then order else order.filter fun placed => placed.1 ≠ []

def Attempt.order (attempt : Attempt) (below : EVM → List Placed) : List Placed :=
  match attempt.opening with
  | .refused _ _ | .precompiled _ _ => []
  | .codeless _ => [attempt.tx.opened]
  | .frame _ evm codeEmpty =>
    attempt.tx.opened :: if codeEmpty then [] else below (evm.entered attempt.tx attempt.readOnly)

def Attempt.opens (attempt : Attempt) : Nat :=
  match attempt.opening with
  | .refused _ _ | .precompiled _ _ => 0
  | .codeless _ | .frame _ _ _ => 1

/-- The happenings in the frame of a script in the order of their execution; `index` calls
    were opened in the frame before. -/
def Script.order (chain : Chain) : Script → Address → Nat → EVM → List Placed
  | .done _, _, _, _ | .selfdestruct _, _, _, _ => []
  | .read what next, self, index, evm =>
    next.order chain self index { evm with stateDB := what.apply chain.keccak self evm.stateDB }
  | .addRefund gas next, self, index, evm =>
    next.order chain self index { evm with stateDB := evm.stateDB.addRefund gas }
  | .subRefund gas next, self, index, evm =>
    match evm.stateDB.subRefund gas with
    | .error _ => []
    | .ok stateDB => next.order chain self index { evm with stateDB := stateDB }
  | .log topics data next, self, index, evm =>
    if evm.readOnly then [.own (.emitted .zero)]
    else
      .own (.emitted (evm.emit chain self topics data).1) ::
        next.order chain self index (evm.emit chain self topics data).2
  | .sstore loc val next, self, index, evm =>
    if evm.readOnly then []
    else next.order chain self index { evm with stateDB := evm.stateDB.setState self loc val }
  | .call kind addr value input precompiled callee next, self, index, evm =>
    if kind = .call && evm.readOnly && value ≠ 0 then []
    else
      let attempt := attemptCall chain evm self addr input value.toNat precompiled kind
      let callee' := EVM.calleeSelf self addr kind
      (attempt.order fun evm =>
        (callee.outcome evm.readOnly callee').recordedOf (callee.order chain callee' 0 evm)).map (Placed.below index) ++
        match attempt.finish (EVM.exec chain callee callee' []) with
        | .error _ => []
        | .ok result => next.order chain self (index + attempt.opens) result.evm
  | .create address value code paid init next, self, index, evm =>
    if evm.readOnly then []
    else
      let attempt := attemptCreate chain evm self value.toNat code address paid
      (attempt.order fun evm =>
        (init.outcome evm.readOnly address).recordedOf (init.order chain address 0 evm)).map (Placed.below index) ++
        match attempt.finish (EVM.exec chain init address []) with
        | .error _ => []
        | .ok result => next.order chain self (index + attempt.opens) result.evm

def Message.order (chain : Chain) (stateDB : StateDB) (message : Message) : List Placed :=
  (message.attempt chain stateDB).order fun evm =>
    (message.script.outcome evm.readOnly message.self).recordedOf (message.script.order chain message.self 0 evm)

theorem happeningsBelow_append (index : Nat) (kids more : List InternalTx) :
    happeningsBelow index (kids ++ more) = happeningsBelow index kids ++
      happeningsBelow (index + kids.length) more := by
  induction kids generalizing index with
  | nil => rfl
  | cons tx rest ih =>
    rw [List.cons_append, happeningsBelow, happeningsBelow, ih, List.append_assoc, List.length_cons]
    congr 3
    omega

theorem happeningsBelow_ne_nil {index : Nat} {kids : List InternalTx} {placed : Placed}
    (member : placed ∈ happeningsBelow index kids) : placed.1 ≠ [] := by
  induction kids generalizing index with
  | nil => cases member
  | cons tx rest ih =>
    rw [happeningsBelow] at member
    rcases List.mem_append.mp member with here | later
    · obtain ⟨inner, -, rfl⟩ := List.mem_map.mp here
      exact List.cons_ne_nil _ _
    · exact ih later

theorem happenings_frame {tx : InternalTx} (events : List Event) (kids : List InternalTx) :
    InternalTx.happenings { tx with events := events, inTxs := kids } =
      tx.opened :: (happeningsBelow 0 kids ++ events.map fun event => .own (.emitted event)) := by
  rw [InternalTx.happenings, InternalTx.opened]

theorem happenings_fresh {tx : InternalTx} (fresh : tx.events = [] ∧ tx.inTxs = []) : tx.happenings = [tx.opened] := by
  cases tx
  obtain ⟨rfl, rfl⟩ := fresh
  rfl

theorem recordedOf_perm {outcome : Outcome} {order : List Placed} {new : List Event} {kids : List InternalTx}
    (perm : order.Perm ((new.map fun event => .own (.emitted event)) ++ happeningsBelow 0 kids)) :
    (outcome.recordedOf order).Perm (happeningsBelow 0 kids ++
      (if outcome.events.isSome then new else []).map fun event => .own (.emitted event)) := by
  unfold Outcome.recordedOf
  split
  · exact perm.trans List.perm_append_comm
  · have kept : (happeningsBelow 0 kids).filter (fun placed => placed.1 ≠ []) = happeningsBelow 0 kids := by
      rw [List.filter_eq_self]
      intro placed member
      exact decide_eq_true (happeningsBelow_ne_nil member)
    have dropped : ((new.map fun event => Placed.own (.emitted event)).filter fun placed => placed.1 ≠ []) = [] := by
      rw [List.filter_eq_nil_iff]
      intro placed member
      obtain ⟨event, -, rfl⟩ := List.mem_map.mp member
      exact of_decide_eq_false rfl
    have filtered := perm.filter fun placed => placed.1 ≠ []
    rw [List.filter_append, kept, dropped, List.nil_append] at filtered
    rw [List.map_nil, List.append_nil]
    exact filtered

theorem perm_insert {first second own below : List Placed} {later : List Placed} (here : first.Perm below)
    (rest : second.Perm (own ++ later)) : (first ++ second).Perm (own ++ (below ++ later)) := by
  refine (here.append rest).trans ?_
  rw [← List.append_assoc, ← List.append_assoc]
  exact List.perm_append_comm.append_right _

structure Left (outcome : Outcome) (events : List Event) (kids : List InternalTx) (evm : EVM)
    (r : Returned) : Prop where
  stack : ∀ top rest, evm.callStack = top :: rest →
    r.evm.callStack = { top with events := if outcome.events.isSome then events else top.events
                                 inTxs := top.inTxs ++ kids } :: rest ∧ r.evm.exTx = evm.exTx
  depth : r.evm.depth = evm.depth
  readOnly : r.evm.readOnly = evm.readOnly

def Orders (chain : Chain) (script : Script) : Prop :=
  ∀ self events evm r, evm.callStack ≠ [] → EVM.exec chain script self events evm = .ok r →
    ∃ new kids, Left (script.outcome evm.readOnly self) (events ++ new) kids evm r ∧
      ∀ index, (script.order chain self index evm).Perm
        ((new.map fun event => .own (.emitted event)) ++ happeningsBelow index kids)

section Ordering

variable {chain : Chain} {script next : Script} {self : Address} {events : List Event} {evm evm' : EVM}
  {r : Returned} {kids more : List InternalTx} {outcome : Outcome}

theorem Left.of_leave {ret : Bytes} {err : Option VmError} (left : evm.leave events ret err = .ok r) :
    Left ⟨ret, err, some []⟩ events [] evm r := by
  obtain ⟨evm', assigned, result⟩ := bind_ok.mp left
  cases result
  unfold EVM.setEvents at assigned
  split at assigned
  · cases assigned
  · rename_i top rest stack
    cases assigned
    refine ⟨?_, rfl, rfl⟩
    intro top' rest' same
    rw [stack] at same
    cases same
    rw [List.append_nil]
    exact ⟨rfl, rfl⟩

theorem Left.assigned {outcome' : Outcome} (left : Left outcome events kids evm r)
    (same : outcome'.events.isSome = outcome.events.isSome) : Left outcome' events kids evm r := by
  refine ⟨?_, left.depth, left.readOnly⟩
  rw [same]
  exact left.stack

theorem Left.after (returns : Returns evm evm' kids) (left : Left outcome events more evm' r) :
    Left outcome events (kids ++ more) evm r where
  stack := by
    intro top rest stack
    obtain ⟨middle, exTx⟩ := returns.callStack_cons stack
    obtain ⟨callStack, exTx'⟩ := left.stack _ rest middle
    rw [callStack, exTx', exTx, List.append_assoc]
    exact ⟨rfl, rfl⟩
  depth := left.depth.trans returns.depth
  readOnly := left.readOnly.trans returns.readOnly

theorem Orders.after (orders : Orders chain next) (stack : evm.callStack ≠ []) (returns : Returns evm evm' kids)
    (executed : EVM.exec chain next self events evm' = .ok r) :
    ∃ new more, Left (next.outcome evm.readOnly self) (events ++ new) (kids ++ more) evm r ∧
      ∀ index, (next.order chain self index evm').Perm
        ((new.map fun event => .own (.emitted event)) ++ happeningsBelow index more) := by
  obtain ⟨new, more, left, perm⟩ := orders self events evm' r (returns.callStack_ne_nil stack) executed
  rw [returns.readOnly] at left
  exact ⟨new, more, left.after returns, perm⟩

theorem Orders.after_state (orders : Orders chain next) (stack : evm.callStack ≠ []) {s : StateDB}
    (executed : EVM.exec chain next self events { evm with stateDB := s } = .ok r) :
    ∃ new kids, Left (next.outcome evm.readOnly self) (events ++ new) kids evm r ∧
      ∀ index, (next.order chain self index { evm with stateDB := s }).Perm
        ((new.map fun event => .own (.emitted event)) ++ happeningsBelow index kids) := by
  have returns : Returns evm { evm with stateDB := s } [] := .of_eq rfl rfl rfl rfl
  exact orders.after stack returns executed

theorem leave_orders {ret : Bytes} {err : Option VmError} (left : evm.leave events ret err = .ok r)
    (assigns : outcome.events.isSome = true) : ∃ new kids, Left outcome (events ++ new) kids evm r ∧
      ∀ index, ([] : List Placed).Perm
        ((new.map fun event => .own (.emitted event)) ++ happeningsBelow index kids) := by
  refine ⟨[], [], ?_, fun _ => .nil⟩
  rw [List.append_nil]
  exact (Left.of_leave left).assigned assigns

theorem Attempt.Sound.finish_order {attempt : Attempt} (sound : attempt.Sound evm) (orders : Orders chain script)
    (finished : attempt.finish (EVM.exec chain script self []) = .ok r) :
    ∃ kids, Returns evm r.evm kids ∧ kids.length = attempt.opens ∧
      ∀ index, ((attempt.order fun evm =>
        (script.outcome evm.readOnly self).recordedOf (script.order chain self 0 evm)).map (Placed.below index)).Perm
          (happeningsBelow index kids) := by
  have opened := sound.opened
  unfold Attempt.finish EVM.finish at finished
  unfold Attempt.opens Attempt.order
  cases opening : attempt.opening with
  | refused err evm' =>
    rw [opening] at opened finished
    obtain ⟨s, -, rfl⟩ := opened
    cases finished
    exact ⟨[], .of_eq rfl rfl rfl rfl, rfl, fun _ => .nil⟩
  | codeless evm' =>
    rw [opening] at opened finished
    obtain ⟨s, -, rfl⟩ := opened
    obtain ⟨evm'', appended, result⟩ := bind_ok.mp finished
    cases result
    obtain ⟨returns, -, -⟩ := EVM.appendInTx_ok appended
    refine ⟨[attempt.tx], ⟨returns.frames, returns.depth, returns.readOnly⟩, rfl, ?_⟩
    intro index
    rw [happeningsBelow, happeningsBelow, happenings_fresh sound.fresh, List.append_nil]
  | precompiled snapshot evm' =>
    rw [opening] at opened finished
    obtain ⟨s, s', -, -, -, rfl⟩ := opened
    obtain ⟨s'', frames⟩ := (sound.settled finished).frames
    refine ⟨[], ?_, rfl, fun _ => .nil⟩
    rw [frames]
    exact .of_eq rfl rfl rfl rfl
  | frame snapshot evm' codeEmpty =>
    rw [opening] at opened finished
    obtain ⟨s, s', -, -, -, rfl⟩ := opened
    obtain ⟨result, ran, settling⟩ := bind_ok.mp finished
    obtain ⟨s'', frames⟩ := (sound.settled settling).frames
    have fresh : ({ attempt.tx with isContract := true } : InternalTx).events = [] ∧
        ({ attempt.tx with isContract := true } : InternalTx).inTxs = [] := sound.fresh
    cases codeEmpty with
    | true =>
      obtain ⟨-, -, -, -, returns⟩ := EVM.runFrame_empty ran
      refine ⟨[{ attempt.tx with isContract := true }], ?_, rfl, ?_⟩
      · rw [frames]
        exact ⟨returns.frames, returns.depth, returns.readOnly⟩
      · intro index
        rw [happeningsBelow, happeningsBelow, happenings_fresh fresh, List.append_nil]
        rfl
    | false =>
      obtain ⟨inner, executed, -, -, -, -, returning⟩ := EVM.runFrame_ok ran
      obtain ⟨new, kids, left, perm⟩ := orders self [] _ inner (List.cons_ne_nil _ _) executed
      obtain ⟨callStack, exTx⟩ := left.stack _ _ rfl
      have returns := returning _ callStack exTx left.depth left.readOnly
      simp only [sound.fresh.1, sound.fresh.2, List.nil_append] at returns
      let recorded := if (script.outcome (evm.readOnly || attempt.readOnly) self).events.isSome then new else []
      refine ⟨[{ attempt.tx with isContract := true, events := recorded, inTxs := kids }], ?_, rfl, ?_⟩
      · rw [frames]
        exact ⟨returns.frames, returns.depth, returns.readOnly⟩
      · intro index
        have whole := @happenings_frame { attempt.tx with isContract := true } recorded kids
        rw [happeningsBelow, happeningsBelow, List.append_nil]
        exact whole ▸ ((recordedOf_perm (perm 0)).cons attempt.tx.opened).map (Placed.below index)

theorem done_orders (ending : Ending) : Orders chain (.done ending) := by
  intro self events evm r _ executed
  cases ending with
  | stop ret | revert ret | invalid => exact leave_orders executed rfl
  | abort =>
    cases executed
    refine ⟨[], [], ⟨?_, rfl, rfl⟩, fun _ => .nil⟩
    intro top rest stack
    simp only [stack, Script.outcome, Ending.outcome, Option.isSome_none, Bool.false_eq_true, if_false, List.append_nil]
    cases top
    exact ⟨rfl, trivial⟩

theorem log_orders (topics : List Hash) (data : Bytes) (orders : Orders chain next) :
    Orders chain (.log topics data next) := by
  intro self events evm r stack executed
  rw [EVM.exec] at executed
  simp only [Script.outcome, Script.order]
  split at executed <;> rename_i readOnly
  · simp only [if_pos readOnly]
    exact ⟨[.zero], [], (Left.of_leave executed).assigned rfl, fun _ => .refl _⟩
  · simp only [if_neg readOnly]
    have returns : Returns evm (evm.emit chain self topics data).2 [] := .of_eq rfl rfl rfl rfl
    obtain ⟨new, kids, left, perm⟩ := orders.after stack returns executed
    refine ⟨(evm.emit chain self topics data).1 :: new, kids, ?_, fun index => (perm index).cons _⟩
    rw [List.append_assoc, List.singleton_append, List.nil_append] at left
    exact left.assigned (by rw [Outcome.record, Option.isSome_map])

theorem call_orders (kind : CallKind) (addr : Address) (value : Word) (input : Bytes) (precompiled : Option Bytes)
    {callee : Script} (inner : Orders chain callee) (orders : Orders chain next) :
    Orders chain (.call kind addr value input precompiled callee next) := by
  intro self events evm r stack executed
  rw [EVM.exec] at executed
  simp only [Script.outcome, Script.order]
  split at executed <;> rename_i blocked
  · simp only [if_pos blocked]
    exact leave_orders executed rfl
  · simp only [if_neg blocked]
    obtain ⟨result, called, later⟩ := bind_ok.mp executed
    rw [dispatch_eq] at called
    obtain ⟨kids, returns, opens, below⟩ :=
      (attemptCall_sound chain evm self addr input value.toNat precompiled kind).finish_order inner called
    obtain ⟨new, more, left, perm⟩ := orders.after stack returns later
    simp only [called]
    refine ⟨new, kids ++ more, left, fun index => ?_⟩
    rw [happeningsBelow_append, opens]
    exact perm_insert (below index) (perm _)

theorem create_orders (address : Address) (value : Word) (code : Bytes) (paid : Bool) {init : Script}
    (inner : Orders chain init) (orders : Orders chain next) :
    Orders chain (.create address value code paid init next) := by
  intro self events evm r stack executed
  rw [EVM.exec] at executed
  simp only [Script.outcome, Script.order]
  split at executed <;> rename_i readOnly
  · simp only [if_pos readOnly]
    exact leave_orders executed rfl
  · simp only [if_neg readOnly]
    obtain ⟨result, created, later⟩ := bind_ok.mp executed
    rw [create_eq] at created
    obtain ⟨kids, returns, opens, below⟩ :=
      (attemptCreate_sound chain evm self value.toNat code address paid).finish_order inner created
    obtain ⟨new, more, left, perm⟩ := orders.after stack returns later
    simp only [created]
    refine ⟨new, kids ++ more, left, fun index => ?_⟩
    rw [happeningsBelow_append, opens]
    exact perm_insert (below index) (perm _)

theorem exec_orders (chain : Chain) (script : Script) : Orders chain script := by
  induction script with
  | done ending => exact done_orders ending
  | read what next ih | addRefund gas next ih =>
    exact fun self events evm r stack executed => ih.after_state stack executed
  | subRefund gas next ih =>
    intro self events evm r stack executed
    obtain ⟨s, subtracted, later⟩ := bind_ok.mp executed
    simp only [Script.order, subtracted]
    exact ih.after_state stack later
  | log topics data next ih => exact log_orders topics data ih
  | sstore loc val next ih =>
    intro self events evm r stack executed
    rw [EVM.exec] at executed
    simp only [Script.outcome, Script.order]
    split at executed <;> rename_i readOnly
    · simp only [if_pos readOnly]
      exact leave_orders executed rfl
    · simp only [if_neg readOnly]
      exact ih.after_state stack executed
  | selfdestruct beneficiary =>
    intro self events evm r stack executed
    rw [EVM.exec] at executed
    simp only [Script.outcome, Script.order]
    split at executed <;> rename_i readOnly
    · simp only [if_pos readOnly]
      exact leave_orders executed rfl
    · simp only [if_neg readOnly]
      have returns : Returns evm (evm.payOut chain self beneficiary) [] := .of_eq rfl rfl rfl rfl
      have quiet : Outcome.quiet.events.isSome = true := rfl
      obtain ⟨new, kids, left, perm⟩ := leave_orders executed quiet
      exact ⟨new, kids, left.after returns, perm⟩
  | call kind addr value input precompiled callee next ih' ih =>
    exact call_orders kind addr value input precompiled ih' ih
  | create address value code paid init next ih' ih => exact create_orders address value code paid ih' ih

end Ordering

theorem Message.order_perm {chain : Chain} {stateDB : StateDB} {message : Message} {r : Returned} {root : InternalTx}
    (applied : message.apply chain stateDB = .ok r) (tree : r.evm.exTx = [root]) :
    (message.order chain stateDB).Perm root.happenings := by
  rw [Message.apply_eq] at applied
  obtain ⟨kids, returns, -, perm⟩ :=
    (message.sound chain stateDB).finish_order (exec_orders chain message.script) applied
  have kept : r.evm.exTx = kids := (Prod.mk.inj returns.frames).2
  rw [← Message.order, ← kept, tree] at perm
  have below := perm 0
  rw [happeningsBelow, happeningsBelow, List.append_nil] at below
  have injective : Function.Injective (Placed.below 0) := by
    rintro ⟨path, happening⟩ ⟨path', happening'⟩ same
    obtain ⟨paths, same⟩ := Prod.mk.inj same
    exact Prod.ext (List.cons.inj paths).2 same
  exact (List.map_perm_map_iff injective).mp below

end IDWDetector.Vm
