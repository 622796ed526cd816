import IDWDetector.Vm.Executions

namespace IDWDetector.Vm

open State State.StateDB

def treeEvents (txs : List InternalTx) : Multiset Entry := (nodesOf txs).flatMap Prod.snd

def survivingLogs (s : StateDB) (thash : Hash) : Multiset Entry := (s.getLogs thash).map logEntry

def Visit.lost (visit : Visit) : List Entry := if visit.undone then visit.events else []

theorem events_eq_kept_add_lost (visits : List Visit) :
    (visits.flatMap Visit.events : Multiset Entry) =
      (visits.flatMap Visit.kept : List Entry) + (visits.flatMap Visit.lost : List Entry) := by
  induction visits with
  | nil => rfl
  | cons visit rest ih =>
    have here : (visit.events : Multiset Entry) = visit.kept + visit.lost := by
      unfold Visit.kept Visit.lost
      split <;> simp
    simp only [List.flatMap_cons, ← Multiset.coe_add]
    rw [ih, here]
    exact add_add_add_comm _ _ _ _

theorem flatMap_nodes {visits : List Visit} (blank : ∀ visit ∈ visits, visit.recorded = none → visit.events = []) :
    (visits.filterMap Visit.node).flatMap Prod.snd = visits.flatMap Visit.events := by
  rw [List.filterMap_eq_flatMap_toList, List.flatMap_assoc]
  refine List.flatMap_congr fun visit member => ?_
  rw [Visit.node]
  cases recorded : visit.recorded with
  | none => rw [blank visit member recorded]; rfl
  | some tx => exact List.append_nil _

theorem lost_eq_nil_iff (visits : List Visit) :
    visits.flatMap Visit.lost = [] ↔ ∀ visit ∈ visits, visit.undone = true → visit.events = [] := by
  rw [List.flatMap_eq_nil_iff]
  apply forall₂_congr
  intro visit _
  unfold Visit.lost
  cases visit.undone <;> simp

theorem treeEvents_eq {chain : Chain} {s : StateDB} {message : Message} {r : Returned}
    (numbered : s.Numbered) (noLogs : s.getLogs s.thash = []) (applied : message.apply chain s = .ok r) :
    treeEvents r.evm.exTx = survivingLogs r.evm.stateDB s.thash +
      ((message.visits chain s false).flatMap Visit.lost : List Entry) := by
  obtain ⟨kids, added, step⟩ := message.apply_step numbered applied
  have exTx : r.evm.exTx = kids := (Prod.mk.inj step.returns.frames).2
  have logs : r.evm.stateDB.getLogs s.thash = added := by
    rw [step.logged.logs, noLogs]
    rfl
  have blank := fun visit member => (message.visits_fit chain s false visit member).blank
  have kept := step.kept
  rw [Multiset.coe_nil, zero_add] at kept
  rw [treeEvents, exTx, step.nodes false, flatMap_nodes blank, events_eq_kept_add_lost, survivingLogs, logs, kept]

/-- The recorded events are the surviving logs exactly if no frame that was rolled
    back, by itself or with a frame above it, had assigned events. -/
theorem treeEvents_eq_survivingLogs_iff (chain : Chain) (s : StateDB) (message : Message) (r : Returned)
    (numbered : s.Numbered) (noLogs : s.getLogs s.thash = []) (applied : message.apply chain s = .ok r) :
    treeEvents r.evm.exTx = survivingLogs r.evm.stateDB s.thash ↔
      ∀ visit ∈ message.visits chain s false, visit.undone = true → visit.events = [] := by
  rw [treeEvents_eq numbered noLogs applied, add_eq_left, Multiset.coe_eq_zero, lost_eq_nil_iff]

def callerCode : Bytes := [0x60, 0, 0x60, 0, 0x60, 0, 0x60, 0, 0x60, 0, 0x60, 0x20, 0x5a, 0xf1, 0]

def revertingCode : Bytes := [0x60, 0, 0x60, 0, 0xa0, 0x60, 0, 0x60, 0, 0xfd]

def emittingCode : Bytes := [0x60, 0, 0x60, 0, 0xa0, 0]

def london : Chain where
  keccak := fun code =>
    if code = [] then emptyCodeHash
    else if code = callerCode then 0xdcef991f8a9a8aeeb6a5702a9a6ebf6ee9775df3bbae69dfc73066da19118037
    else if code = revertingCode then 0xc14976059e8416f69e99715b36809f20f3f1f6b078677b3d9c490110366ef151
    else if code = emittingCode then 0xdac27bf1bbb77befd638367d5c13006902720ff52daf49ca2e04c89169aa00b5
    else 0
  precompile := fun addr => decide (1 ≤ addr ∧ addr ≤ 9)
  isHomestead := true
  isEIP158 := true
  isLondon := true

def callState (calleeCode : Bytes) : StateDB :=
  .new ((Go.Map.empty.set 0x10 ⟨1, 0, callerCode, .empty⟩).set 0x20 ⟨1, 0, calleeCode, .empty⟩)

def callMessage (ending : Ending) : Message :=
  .call 0x30 0x10 [] 0 none
    (.call .call 0x20 0 [] none (.log [] [] (.done ending)) (.done (.stop [])))

theorem treeEvents_eq_survivingLogs_iff_emitting :
    ∃ r, (callMessage (.stop [])).apply london (callState emittingCode) = .ok r ∧
      (treeEvents r.evm.exTx = survivingLogs r.evm.stateDB 0 ↔
        ∀ visit ∈ (callMessage (.stop [])).visits london (callState emittingCode) false,
          visit.undone = true → visit.events = []) := by
  have ran : ((callMessage (.stop [])).apply london (callState emittingCode)).toOption.isSome = true := by
    decide +kernel
  obtain ⟨r, applied⟩ := Machine.toOption_isSome ran
  exact ⟨r, applied, treeEvents_eq_survivingLogs_iff london _ _ r (new_numbered _) rfl applied⟩

/-- The event of a frame that reverted stays in the call tree of a successful call. -/
theorem reverted_event_recorded :
    ∃ r, (callMessage (.revert [])).apply london (callState revertingCode) = .ok r ∧ r.err = none ∧
      treeEvents r.evm.exTx = {(0x20, [], [])} ∧ survivingLogs r.evm.stateDB 0 = 0 := by
  have ran : ((callMessage (.revert [])).apply london (callState revertingCode)).toOption.any (fun r =>
      decide (r.err = none ∧ treeEvents r.evm.exTx = {(0x20, [], [])} ∧ survivingLogs r.evm.stateDB 0 = 0)) = true := by
    decide +kernel
  obtain ⟨r, applied, facts⟩ := Machine.toOption_any ran
  obtain ⟨err, events, logs⟩ := of_decide_eq_true facts
  exact ⟨r, applied, err, events, logs⟩

end IDWDetector.Vm
