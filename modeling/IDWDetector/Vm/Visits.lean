import IDWDetector.Vm.Frames
import Mathlib.Algebra.Order.Group.Multiset

namespace IDWDetector.Vm

open State State.StateDB

abbrev Entry := Address × List Hash × Bytes

def Event.entry (event : Event) : Entry := (event.address, event.topics, event.data)

def logEntry (log : Log) : Entry := (log.address, log.topics, log.data)

/-- What the code of a frame returns, and the events it assigns to its frame. An
    aborted frame assigns none. -/
structure Outcome where
  ret : Bytes
  err : Option VmError
  events : Option (List Entry)

namespace Outcome

def quiet : Outcome := ⟨[], none, some []⟩

def record (entries : List Entry) (outcome : Outcome) : Outcome :=
  { outcome with events := outcome.events.map (entries ++ ·) }

theorem record_nil (outcome : Outcome) : outcome.record [] = outcome := by
  simp [record]

def writeProtected (entries : List Entry) : Outcome := ⟨[], some .writeProtection, some entries⟩

end Outcome

def Ending.outcome : Ending → Outcome
  | .stop ret => ⟨ret, none, some []⟩
  | .revert ret => ⟨ret, some .executionReverted, some []⟩
  | .invalid => ⟨[], some .invalidOpCode, some []⟩
  | .abort => ⟨[], some .outOfGas, none⟩

def Script.outcome (readOnly : Bool) (self : Address) : Script → Outcome
  | .done ending => ending.outcome
  | .read _ next | .addRefund _ next | .subRefund _ next => next.outcome readOnly self
  | .log topics data next =>
    if readOnly then .writeProtected [Event.zero.entry]
    else (next.outcome readOnly self).record [(self, topics, data)]
  | .sstore _ _ next => if readOnly then .writeProtected [] else next.outcome readOnly self
  | .selfdestruct _ => if readOnly then .writeProtected [] else .quiet
  | .call kind _ value _ _ _ next =>
    if kind = .call && readOnly && value ≠ 0 then .writeProtected [] else next.outcome readOnly self
  | .create _ _ _ _ _ next => if readOnly then .writeProtected [] else next.outcome readOnly self

/-- A call or a creation before its code runs, and what becomes of it afterwards. -/
structure Attempt where
  opening : EVM.Opening
  tx : InternalTx
  readOnly : Bool
  precompiled : Option Bytes
  moved : List Payment
  rolledBack : Bytes → Option VmError → Bool
  settle : Nat → Returned → Except Panic Returned

def Attempt.finish (attempt : Attempt) (loop : Loop) : Except Panic Returned :=
  EVM.finish attempt.opening attempt.tx attempt.readOnly attempt.precompiled attempt.settle loop

section Attempts

variable (chain : Chain) (evm : EVM) (self addr : Address) (input : Bytes) (value : Int)
  (precompiled : Option Bytes)

def attemptCall (kind : CallKind) : Attempt :=
  match kind with
  | .call =>
    { opening := evm.openCall chain self addr value
      tx := { fromAddr := self, toAddr := addr, callType := .call, value := some value, input := input }
      readOnly := false, precompiled := precompiled, moved := [⟨self, addr, value⟩]
      rolledBack := fun _ err => err.isSome, settle := EVM.settleCall }
  | .callCode =>
    { opening := evm.openCallCode chain self addr value
      tx := { fromAddr := self, toAddr := addr, callType := .callCode, value := some value, input := input }
      readOnly := false, precompiled := precompiled, moved := []
      rolledBack := fun _ err => err.isSome, settle := EVM.settleCall }
  | .delegateCall =>
    { opening := evm.openDelegateCall chain addr
      tx := { fromAddr := self, toAddr := addr, callType := .delegateCall, input := input }
      readOnly := false, precompiled := precompiled, moved := []
      rolledBack := fun _ err => err.isSome, settle := EVM.settleCall }
  | .staticCall =>
    { opening := evm.openStaticCall chain addr
      tx := { fromAddr := self, toAddr := addr, callType := .staticCall, input := input }
      readOnly := true, precompiled := precompiled, moved := []
      rolledBack := fun _ err => err.isSome, settle := EVM.settleCall }

def attemptCreate (code : Bytes) (address : Address) (paid : Bool) : Attempt where
  opening := evm.openCreate chain self code value address
  tx := { fromAddr := self, toAddr := 0, callType := .create }
  readOnly := false
  precompiled := none
  moved := [⟨self, address, value⟩]
  rolledBack := fun ret err => EVM.rollsBack chain (EVM.deployError chain ret paid err)
  settle := EVM.settleCreate chain address paid

theorem dispatch_eq (kind : CallKind) (value : Word) (loop : Loop) :
    evm.dispatch chain kind self addr value input precompiled loop =
      (attemptCall chain evm self addr input value.toNat precompiled kind).finish loop := by
  cases kind <;> rfl

theorem create_eq (code : Bytes) (address : Address) (paid : Bool) (loop : Loop) :
    evm.create chain self code value address paid loop =
      (attemptCreate chain evm self value code address paid).finish loop := rfl

end Attempts

/-- A call, a creation or a payment that takes place: its node in the call tree, its events, the ether that it
    moves, and whether it is rolled back. -/
structure Visit where
  recorded : Option InternalTx
  events : List Entry
  moved : List Payment
  undone : Bool

namespace Visit

def node (visit : Visit) : Option (InternalTx × List Entry) := visit.recorded.map fun tx => (tx, visit.events)

def kept (visit : Visit) : List Entry := if visit.undone then [] else visit.events

end Visit

def Attempt.visits (attempt : Attempt) (script : Script) (self : Address) (undone : Bool)
    (below : Bool → EVM → List Visit) : List Visit :=
  match attempt.opening with
  | .refused _ _ => []
  | .precompiled _ _ =>
    let failed := attempt.rolledBack (attempt.precompiled.getD [])
      (if attempt.precompiled = none then some .outOfGas else none)
    [⟨none, [], attempt.moved, undone || failed⟩]
  | .codeless _ => [⟨some attempt.tx, [], attempt.moved, undone⟩]
  | .frame _ evm codeEmpty =>
    let evm := evm.entered attempt.tx attempt.readOnly
    let outcome := if codeEmpty then .quiet else script.outcome evm.readOnly self
    let undone := undone || attempt.rolledBack outcome.ret outcome.err
    ⟨some { attempt.tx with isContract := true }, outcome.events.getD [], attempt.moved, undone⟩ ::
      if codeEmpty then [] else below undone evm

def Script.visits (chain : Chain) : Script → Address → Bool → EVM → List Visit
  | .done _, _, _, _ => []
  | .read what next, self, undone, evm =>
    next.visits chain self undone { evm with stateDB := what.apply chain.keccak self evm.stateDB }
  | .addRefund gas next, self, undone, evm =>
    next.visits chain self undone { evm with stateDB := evm.stateDB.addRefund gas }
  | .subRefund gas next, self, undone, evm =>
    match evm.stateDB.subRefund gas with
    | .error _ => []
    | .ok stateDB => next.visits chain self undone { evm with stateDB := stateDB }
  | .log topics data next, self, undone, evm =>
    if evm.readOnly then [] else next.visits chain self undone (evm.emit chain self topics data).2
  | .sstore loc val next, self, undone, evm =>
    if evm.readOnly then []
    else next.visits chain self undone { evm with stateDB := evm.stateDB.setState self loc val }
  | .selfdestruct beneficiary, self, undone, evm =>
    if evm.readOnly then []
    else [⟨none, [], [⟨self, beneficiary, (evm.stateDB.getBalance self).1⟩], undone⟩]
  | .call kind addr value input precompiled callee next, self, undone, evm =>
    if kind = .call && evm.readOnly && value ≠ 0 then []
    else
      let attempt := attemptCall chain evm self addr input value.toNat precompiled kind
      let callee' := EVM.calleeSelf self addr kind
      attempt.visits callee callee' undone (fun undone evm => callee.visits chain callee' undone evm) ++
        match attempt.finish (EVM.exec chain callee callee' []) with
        | .error _ => []
        | .ok result => next.visits chain self undone result.evm
  | .create address value code paid init next, self, undone, evm =>
    if evm.readOnly then []
    else
      let attempt := attemptCreate chain evm self value.toNat code address paid
      attempt.visits init address undone (fun undone evm => init.visits chain address undone evm) ++
        match attempt.finish (EVM.exec chain init address []) with
        | .error _ => []
        | .ok result => next.visits chain self undone result.evm

/-- The tree of the frames of a call: those that pass its checks, with the frames
    below them in the order in which they were opened. -/
def Attempt.frames (attempt : Attempt) (below : EVM → List InternalTx) : List InternalTx :=
  match attempt.opening with
  | .refused _ _ | .precompiled _ _ => []
  | .codeless _ => [attempt.tx]
  | .frame _ evm codeEmpty =>
    let inTxs := if codeEmpty then [] else below (evm.entered attempt.tx attempt.readOnly)
    [{ attempt.tx with isContract := true, inTxs := inTxs }]

def Script.frames (chain : Chain) : Script → Address → EVM → List InternalTx
  | .done _, _, _ | .selfdestruct _, _, _ => []
  | .read what next, self, evm =>
    next.frames chain self { evm with stateDB := what.apply chain.keccak self evm.stateDB }
  | .addRefund gas next, self, evm => next.frames chain self { evm with stateDB := evm.stateDB.addRefund gas }
  | .subRefund gas next, self, evm =>
    match evm.stateDB.subRefund gas with
    | .error _ => []
    | .ok stateDB => next.frames chain self { evm with stateDB := stateDB }
  | .log topics data next, self, evm =>
    if evm.readOnly then [] else next.frames chain self (evm.emit chain self topics data).2
  | .sstore loc val next, self, evm =>
    if evm.readOnly then [] else next.frames chain self { evm with stateDB := evm.stateDB.setState self loc val }
  | .call kind addr value input precompiled callee next, self, evm =>
    if kind = .call && evm.readOnly && value ≠ 0 then []
    else
      let attempt := attemptCall chain evm self addr input value.toNat precompiled kind
      let callee' := EVM.calleeSelf self addr kind
      attempt.frames (fun evm => callee.frames chain callee' evm) ++
        match attempt.finish (EVM.exec chain callee callee' []) with
        | .error _ => []
        | .ok result => next.frames chain self result.evm
  | .create address value code paid init next, self, evm =>
    if evm.readOnly then []
    else
      let attempt := attemptCreate chain evm self value.toNat code address paid
      attempt.frames (fun evm => init.frames chain address evm) ++
        match attempt.finish (EVM.exec chain init address []) with
        | .error _ => []
        | .ok result => next.frames chain self result.evm

mutual

def InternalTx.bare : InternalTx → InternalTx
  | ⟨fromAddr, toAddr, isContract, value, callType, input, _, inTxs⟩ =>
    ⟨fromAddr, toAddr, isContract, value, callType, input, [], bareOf inTxs⟩

def bareOf : List InternalTx → List InternalTx
  | [] => []
  | tx :: rest => tx.bare :: bareOf rest

end

theorem bareOf_append (kids more : List InternalTx) : bareOf (kids ++ more) = bareOf kids ++ bareOf more := by
  induction kids with
  | nil => rfl
  | cons tx rest ih => rw [List.cons_append, bareOf, bareOf, ih, List.cons_append]

variable {tx : InternalTx}

theorem bare_frame (fresh : tx.events = [] ∧ tx.inTxs = []) (events : List Event) (kids : List InternalTx) :
    InternalTx.bare { tx with events := events, inTxs := kids } = { tx with inTxs := bareOf kids } := by
  rw [InternalTx.bare, fresh.1]

theorem bare_fresh (fresh : tx.events = [] ∧ tx.inTxs = []) : tx.bare = tx := by
  cases tx
  obtain ⟨rfl, rfl⟩ := fresh
  rfl

mutual

/-- The nodes of a call tree, each one without its children and with its events. -/
def InternalTx.nodes : InternalTx → List (InternalTx × List Entry)
  | ⟨fromAddr, toAddr, isContract, value, callType, input, events, inTxs⟩ =>
    (⟨fromAddr, toAddr, isContract, value, callType, input, [], []⟩, events.map Event.entry) :: nodesOf inTxs

def nodesOf : List InternalTx → List (InternalTx × List Entry)
  | [] => []
  | tx :: rest => tx.nodes ++ nodesOf rest

end

theorem nodesOf_append (kids more : List InternalTx) : nodesOf (kids ++ more) = nodesOf kids ++ nodesOf more := by
  induction kids with
  | nil => rfl
  | cons tx rest ih => rw [List.cons_append, nodesOf, nodesOf, ih, List.append_assoc]

theorem nodesOf_singleton (tx : InternalTx) : nodesOf [tx] = tx.nodes := by
  rw [nodesOf, nodesOf, List.append_nil]

theorem nodes_frame (fresh : tx.events = [] ∧ tx.inTxs = []) (events : List Event) (kids : List InternalTx) :
    InternalTx.nodes { tx with events := events, inTxs := kids } = (tx, events.map Event.entry) :: nodesOf kids := by
  cases tx
  obtain ⟨rfl, rfl⟩ := fresh
  rw [InternalTx.nodes]

theorem nodes_fresh (fresh : tx.events = [] ∧ tx.inTxs = []) : tx.nodes = [(tx, [])] := by
  cases tx
  obtain ⟨rfl, rfl⟩ := fresh
  rfl

/-- From `evm` to `evm'` a part of a frame has been executed: `own` are the events
    of the frame itself. -/
structure Step (evm evm' : EVM) (own : List Entry) (visits : Bool → List Visit) (frames : List InternalTx)
    (kids : List InternalTx) (added : List Log) : Prop where
  returns : Returns evm evm' kids
  frames : bareOf kids = frames
  logged : Logged evm.stateDB evm'.stateDB added
  nodes : ∀ undone, nodesOf kids = (visits undone).filterMap Visit.node
  payments : ∀ undone, evm'.payments = evm.payments ++ (visits undone).flatMap Visit.moved
  kept : (added.map logEntry : Multiset Entry) = own + ((visits false).flatMap Visit.kept : List Entry)

structure Ran (outcome : Outcome) (visits : Bool → List Visit) (frames : List InternalTx) (events : List Event)
    (evm : EVM) (r : Returned) (kids : List InternalTx) (added : List Log) : Prop where
  ret : r.ret = outcome.ret
  err : r.err = outcome.err
  stack : ∃ recorded : Option (List Event),
    recorded.map (List.map Event.entry) = outcome.events.map (events.map Event.entry ++ ·) ∧
    ∀ top rest, evm.callStack = top :: rest →
      r.evm.callStack =
        { top with events := recorded.getD top.events, inTxs := top.inTxs ++ kids } :: rest ∧
      r.evm.exTx = evm.exTx
  depth : r.evm.depth = evm.depth
  readOnly : r.evm.readOnly = evm.readOnly
  frames : bareOf kids = frames
  logged : Logged evm.stateDB r.evm.stateDB added
  nodes : ∀ undone, nodesOf kids = (visits undone).filterMap Visit.node
  payments : ∀ undone, r.evm.payments = evm.payments ++ (visits undone).flatMap Visit.moved
  kept : outcome.err = none → ∃ entries, outcome.events = some entries ∧
    (added.map logEntry : Multiset Entry) = entries + ((visits false).flatMap Visit.kept : List Entry)

end IDWDetector.Vm
