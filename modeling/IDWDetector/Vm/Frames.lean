import IDWDetector.State.Plain
import IDWDetector.Vm.Interpreter

namespace IDWDetector.Vm

open State State.StateDB Machine

def attach (callStack exTx kids : List InternalTx) : List InternalTx × List InternalTx :=
  match callStack with
  | [] => ([], exTx ++ kids)
  | top :: rest => ({ top with inTxs := top.inTxs ++ kids } :: rest, exTx)

theorem attach_nil (callStack exTx : List InternalTx) : attach callStack exTx [] = (callStack, exTx) := by
  cases callStack with
  | nil => rw [attach, List.append_nil]
  | cons top rest =>
    cases top
    simp only [attach, List.append_nil]

/-- From `evm` to `evm'` the frames `kids` were opened and left again. -/
structure Returns (evm evm' : EVM) (kids : List InternalTx) : Prop where
  frames : (evm'.callStack, evm'.exTx) = attach evm.callStack evm.exTx kids
  depth : evm'.depth = evm.depth
  readOnly : evm'.readOnly = evm.readOnly

namespace Returns

variable {evm evm' : EVM} {kids : List InternalTx}

theorem of_eq (callStack : evm'.callStack = evm.callStack) (exTx : evm'.exTx = evm.exTx)
    (depth : evm'.depth = evm.depth) (readOnly : evm'.readOnly = evm.readOnly) : Returns evm evm' [] where
  frames := by rw [attach_nil, callStack, exTx]
  depth := depth
  readOnly := readOnly

theorem callStack_cons {top : InternalTx} {rest : List InternalTx} (returns : Returns evm evm' kids)
    (stack : evm.callStack = top :: rest) :
    evm'.callStack = { top with inTxs := top.inTxs ++ kids } :: rest ∧ evm'.exTx = evm.exTx := by
  have frames := returns.frames
  rw [stack, attach] at frames
  exact Prod.mk.inj frames

theorem callStack_ne_nil (returns : Returns evm evm' kids) (stack : evm.callStack ≠ []) : evm'.callStack ≠ [] := by
  obtain ⟨top, rest, found⟩ := List.exists_cons_of_ne_nil stack
  rw [(returns.callStack_cons found).1]
  exact List.cons_ne_nil _ _

end Returns

namespace EVM

variable {tx : InternalTx} {readOnly : Bool} {loop : Loop} {r : Returned}

theorem pop_ok {evm evm' : EVM} {rest : List InternalTx} (stack : evm.callStack = tx :: rest)
    (popped : evm.pop = .ok evm') :
    Returns { evm with callStack := rest } evm' [tx] ∧ evm'.stateDB = evm.stateDB ∧
      evm'.payments = evm.payments := by
  cases rest with
  | nil =>
    simp only [pop, stack] at popped
    cases popped
    exact ⟨⟨rfl, rfl, rfl⟩, rfl, rfl⟩
  | cons parent rest =>
    simp only [pop, stack] at popped
    cases popped
    exact ⟨⟨rfl, rfl, rfl⟩, rfl, rfl⟩

theorem appendInTx_ok {evm evm' : EVM} (appended : evm.appendInTx tx = .ok evm') :
    Returns evm evm' [tx] ∧ evm'.stateDB = evm.stateDB ∧ evm'.payments = evm.payments := by
  unfold appendInTx at appended
  split at appended <;> rename_i stack
  · cases appended
  · cases appended
    exact ⟨⟨by rw [stack]; rfl, rfl, rfl⟩, rfl, rfl⟩

def entered (evm : EVM) (tx : InternalTx) (readOnly : Bool) : EVM :=
  { evm with
    callStack := { tx with isContract := true } :: evm.callStack
    depth := evm.depth + 1
    readOnly := evm.readOnly || readOnly }

theorem runFrame_empty {evm : EVM} (ran : evm.runFrame tx true readOnly loop = .ok r) :
    r.ret = [] ∧ r.err = none ∧ r.evm.stateDB = evm.stateDB ∧ r.evm.payments = evm.payments ∧
      Returns evm r.evm [{ tx with isContract := true }] := by
  obtain ⟨result, run, later⟩ := bind_ok.mp ran
  cases run
  obtain ⟨popped, pop, result⟩ := bind_ok.mp later
  cases result
  obtain ⟨returns, stateDB, payments⟩ := pop_ok rfl pop
  exact ⟨rfl, rfl, stateDB, payments, returns⟩

theorem runFrame_ok {evm : EVM} (ran : evm.runFrame tx false readOnly loop = .ok r) :
    ∃ inner, loop (evm.entered tx readOnly) = .ok inner ∧ r.ret = inner.ret ∧ r.err = inner.err ∧
      r.evm.stateDB = inner.evm.stateDB ∧ r.evm.payments = inner.evm.payments ∧
      ∀ left, inner.evm.callStack = left :: evm.callStack → inner.evm.exTx = evm.exTx →
        inner.evm.depth = evm.depth + 1 → inner.evm.readOnly = (evm.readOnly || readOnly) →
        Returns evm r.evm [left] := by
  obtain ⟨result, run, later⟩ := bind_ok.mp ran
  obtain ⟨inner, executed, after⟩ := bind_ok.mp run
  cases after
  obtain ⟨popped, pop, result⟩ := bind_ok.mp later
  cases result
  cases stack : inner.evm.callStack with
  | nil =>
    simp only [EVM.pop, stack] at pop
    cases pop
  | cons first rest =>
    obtain ⟨returns, stateDB, payments⟩ := pop_ok (by exact stack) pop
    refine ⟨inner, executed, rfl, rfl, stateDB, payments, ?_⟩
    intro left same exTx depth readOnly'
    rw [stack] at same
    cases same
    refine ⟨?_, ?_, ?_⟩
    · rw [returns.frames, exTx]
    · rw [returns.depth]
      show inner.evm.depth - 1 = evm.depth
      omega
    · rw [returns.readOnly]
      show (if readOnly && !evm.readOnly then false else inner.evm.readOnly) = evm.readOnly
      rw [readOnly']
      cases readOnly <;> cases evm.readOnly <;> rfl

/-- An opening changes the state and nothing else of the machine. A frame can be
    taken back to a snapshot which stands before the ether that it moved. -/
def Opening.From (evm : EVM) (moved : List Payment) : Opening → Prop
  | .refused _ evm' => ∃ s, Plain evm.stateDB s ∧ evm' = { evm with stateDB := s }
  | .codeless evm' =>
    ∃ s, Plain evm.stateDB s ∧ evm' = { evm with stateDB := s, payments := evm.payments ++ moved }
  | .precompiled snapshot evm' | .frame snapshot evm' _ =>
    ∃ s s', Plain evm.stateDB s ∧ snapshot = s.snapshot.1 ∧ Plain s.snapshot.2 s' ∧
      evm' = { evm with stateDB := s', payments := evm.payments ++ moved }

variable (chain : Chain) (evm : EVM) (caller addr : Address)

theorem canTransfer_eq (amount : Int) :
    ∃ funded s, evm.canTransfer caller amount = (funded, { evm with stateDB := s }) ∧
    Plain evm.stateDB s :=
  ⟨_, _, rfl, getBalance_plain evm.stateDB caller⟩

theorem transfer_plain (amount : Int) :
    Plain evm.stateDB (evm.transfer chain.keccak caller addr amount).stateDB :=
  (subBalance_plain evm.stateDB caller amount).trans (addBalance_plain chain.keccak _ addr amount)

theorem openFrame_from {s s' : StateDB} (before : Plain evm.stateDB s) (after : Plain s.snapshot.2 s') :
    (openFrame chain { evm with stateDB := s' } s.snapshot.1 addr).From evm [] := by
  unfold openFrame
  split
  · exact ⟨s, s', before, rfl, after, by rw [List.append_nil]⟩
  · exact ⟨s, _, before, rfl, after.trans (getCode_plain s' addr), by rw [List.append_nil]; rfl⟩

theorem openDelegateCall_from : (evm.openDelegateCall chain addr).From evm [] := by
  unfold openDelegateCall
  split
  · exact ⟨evm.stateDB, .refl _, rfl⟩
  · exact openFrame_from chain evm addr (.refl _) (.refl _)

theorem openStaticCall_from : (evm.openStaticCall chain addr).From evm [] := by
  unfold openStaticCall
  split
  · exact ⟨evm.stateDB, .refl _, rfl⟩
  · exact openFrame_from chain evm addr (.refl _) (addBalance_plain chain.keccak _ addr 0)

theorem openCallCode_from (value : Int) : (evm.openCallCode chain caller addr value).From evm [] := by
  obtain ⟨funded, s, checked, logged⟩ := canTransfer_eq evm caller value
  unfold openCallCode
  split
  · exact ⟨evm.stateDB, .refl _, rfl⟩
  · rw [checked]
    cases funded with
    | false => exact ⟨s, logged, rfl⟩
    | true => exact openFrame_from chain evm addr logged (.refl _)

theorem enterCall_from {s t : StateDB} (before : Plain evm.stateDB s) (after : Plain s.snapshot.2 t)
    (present : Bool) (value : Int) :
    (enterCall chain { evm with stateDB := t } s.snapshot.1 present caller addr value).From evm
      [⟨caller, addr, value⟩] := by
  have ready : ∃ u, (if present then { evm with stateDB := t }
      else { evm with stateDB := t.createAccount addr }) = { evm with stateDB := u } ∧
        Plain s.snapshot.2 u := by
    cases present with
    | true => exact ⟨_, rfl, after⟩
    | false => exact ⟨_, rfl, after.trans (createAccount_plain t addr)⟩
  obtain ⟨u, created, logged⟩ := ready
  have paid := logged.trans (transfer_plain chain { evm with stateDB := u } caller addr value)
  have coded := paid.trans (getCode_plain _ addr)
  simp only [enterCall, created]
  split
  · exact ⟨t, before.trans ((snapshot_plain s).trans after), rfl⟩
  · split
    · exact ⟨s, _, before, rfl, paid, rfl⟩
    · split
      · exact ⟨_, before.trans ((snapshot_plain s).trans coded), rfl⟩
      · exact ⟨s, _, before, rfl, coded, rfl⟩

theorem openCall_from (value : Int) :
    (evm.openCall chain caller addr value).From evm [⟨caller, addr, value⟩] := by
  have funds : ∃ funded s, (if value = 0 then (true, evm) else evm.canTransfer caller value) =
      (funded, { evm with stateDB := s }) ∧ Plain evm.stateDB s := by
    split
    · exact ⟨true, evm.stateDB, rfl, .refl _⟩
    · exact canTransfer_eq evm caller value
  obtain ⟨funded, s, checked, logged⟩ := funds
  unfold openCall
  split
  · exact ⟨evm.stateDB, .refl _, rfl⟩
  · rw [checked]
    cases funded with
    | false => exact ⟨s, logged, rfl⟩
    | true => exact enterCall_from chain evm caller addr logged (exist_plain _ addr) _ value

theorem enterCreate_from {s : StateDB} (before : Plain evm.stateDB s) (code : Bytes) (value : Int)
    (address : Address) :
    (enterCreate chain { evm with stateDB := s } caller code value address).From evm
      [⟨caller, address, value⟩] := by
  have created := createAccount_plain s.snapshot.2 address
  have numbered : Plain s.snapshot.2 (if chain.isEIP158 then
      (s.snapshot.2.createAccount address).setNonce address 1 else s.snapshot.2.createAccount address) := by
    split
    · exact created.trans (setNonce_plain _ address 1)
    · exact created
  exact ⟨s, _, before, rfl, numbered.trans (transfer_plain chain { evm with stateDB := _ } caller address value),
    rfl⟩

theorem openCreate_from (code : Bytes) (value : Int) (address : Address) :
    (evm.openCreate chain caller code value address).From evm [⟨caller, address, value⟩] := by
  obtain ⟨funded, s, checked, logged⟩ := canTransfer_eq evm caller value
  unfold openCreate
  split
  · exact ⟨evm.stateDB, .refl _, rfl⟩
  · rw [checked]
    cases funded with
    | false => exact ⟨s, logged, rfl⟩
    | true =>
      have counted := logged.trans (getNonce_plain s caller)
      have numbered := counted.trans (setNonce_plain _ caller ((s.getNonce caller).1 + 1))
      have hashed := numbered.trans (getCodeHash_plain chain.keccak _ address)
      have inspected := hashed.trans (getNonce_plain _ address)
      simp only [Bool.not_true, Bool.false_eq_true, if_false]
      split
      · exact ⟨_, counted, rfl⟩
      · split
        · exact ⟨_, inspected, rfl⟩
        · exact enterCreate_from chain evm caller inspected code value address

end EVM

end IDWDetector.Vm
