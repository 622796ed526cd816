import IDWDetector.Vm.Evm

namespace IDWDetector.Vm

open State

/-- How the code of a frame ends. An `abort` leaves `Run` before the end of its
    loop: a stack error, a gas overflow, or out of gas. -/
inductive Ending
  | stop (ret : Bytes)
  | revert (ret : Bytes)
  | invalid
  | abort
deriving DecidableEq

inductive CallKind
  | call
  | callCode
  | delegateCall
  | staticCall
deriving DecidableEq, Repr

/-- What an instruction, or the computation of its gas, reads of the state. -/
inductive Read
  | exist (addr : Address)
  | empty (addr : Address)
  | balance (addr : Address)
  | code (addr : Address)
  | codeHash (addr : Address)
  | state (key : Hash)
  | committedState (key : Hash)

/-- The instructions of a frame that use the state or open frames. A call holds what a precompiled contract at its
    address would return and what the code there would execute. -/
inductive Script
  | done (ending : Ending)
  | read (what : Read) (next : Script)
  | addRefund (gas : Uint64) (next : Script)
  | subRefund (gas : Uint64) (next : Script)
  | log (topics : List Hash) (data : Bytes) (next : Script)
  | sstore (loc val : Hash) (next : Script)
  | selfdestruct (beneficiary : Address)
  | call (kind : CallKind) (addr : Address) (value : Word) (input : Bytes) (precompiled : Option Bytes)
      (callee : Script) (next : Script)
  | create (address : Address) (value : Word) (code : Bytes) (paid : Bool) (init : Script) (next : Script)

def Read.apply (keccak : Bytes → Hash) (self : Address) (s : StateDB) : Read → StateDB
  | .exist addr => (s.exist addr).2
  | .empty addr => (s.empty keccak addr).2
  | .balance addr => (s.getBalance addr).2
  | .code addr => (s.getCode addr).2
  | .codeHash addr => (s.getCodeHash keccak addr).2
  | .state key => (s.getState self key).2
  | .committedState key => (s.getCommittedState self key).2

/-- The `Event{}` that a LOG instruction returns in read-only mode. -/
def Event.zero : Event := ⟨0, [], [], 0⟩

namespace EVM

variable (chain : Chain)

def leave (evm : EVM) (events : List Event) (ret : Bytes) (err : Option VmError) : Except Panic Returned := do
  let evm ← evm.setEvents events
  .ok ⟨ret, err, evm⟩

def writeProtected (evm : EVM) (events : List Event) : Except Panic Returned :=
  evm.leave events [] (some .writeProtection)

def emit (evm : EVM) (self : Address) (topics : List Hash) (data : Bytes) : Event × EVM :=
  let log : Log := { address := self, topics := topics, data := data, blockNumber := chain.blockNumber }
  (⟨self, topics, data, evm.stateDB.logSize⟩, { evm with stateDB := evm.stateDB.addLog log })

def payOut (evm : EVM) (self beneficiary : Address) : EVM :=
  let (balance, stateDB) := evm.stateDB.getBalance self
  let stateDB := stateDB.addBalance chain.keccak beneficiary balance
  { evm with
    stateDB := (stateDB.suicide self).2
    payments := evm.payments ++ [⟨self, beneficiary, balance⟩] }

def calleeSelf (self addr : Address) : CallKind → Address
  | .call | .staticCall => addr
  | .callCode | .delegateCall => self

def dispatch (evm : EVM) (kind : CallKind) (self addr : Address) (value : Word) (input : Bytes)
    (precompiled : Option Bytes) (loop : Loop) : Except Panic Returned :=
  match kind with
  | .call => evm.call chain self addr input value.toNat precompiled loop
  | .callCode => evm.callCode chain self addr input value.toNat precompiled loop
  | .delegateCall => evm.delegateCall chain self addr input precompiled loop
  | .staticCall => evm.staticCall chain self addr input precompiled loop

/-- The loop of `Run` in the frame of `self`, with the events it has collected. -/
def exec : Script → Address → List Event → Loop
  | .done (.stop ret), _, events, evm => evm.leave events ret none
  | .done (.revert ret), _, events, evm => evm.leave events ret (some .executionReverted)
  | .done .invalid, _, events, evm => evm.leave events [] (some .invalidOpCode)
  | .done .abort, _, _, evm => .ok ⟨[], some .outOfGas, evm⟩
  | .read what next, self, events, evm =>
    exec next self events { evm with stateDB := what.apply chain.keccak self evm.stateDB }
  | .addRefund gas next, self, events, evm =>
    exec next self events { evm with stateDB := evm.stateDB.addRefund gas }
  | .subRefund gas next, self, events, evm => do
    let stateDB ← evm.stateDB.subRefund gas
    exec next self events { evm with stateDB := stateDB }
  | .log topics data next, self, events, evm =>
    if evm.readOnly then evm.writeProtected (events ++ [Event.zero])
    else
      let (event, evm) := evm.emit chain self topics data
      exec next self (events ++ [event]) evm
  | .sstore loc val next, self, events, evm =>
    if evm.readOnly then evm.writeProtected events
    else exec next self events { evm with stateDB := evm.stateDB.setState self loc val }
  | .selfdestruct beneficiary, self, events, evm =>
    if evm.readOnly then evm.writeProtected events
    else (evm.payOut chain self beneficiary).leave events [] none
  | .call kind addr value input precompiled callee next, self, events, evm =>
    if kind = .call && evm.readOnly && value ≠ 0 then evm.writeProtected events
    else do
      let result ← evm.dispatch chain kind self addr value input precompiled
        (exec callee (calleeSelf self addr kind) [])
      exec next self events result.evm
  | .create address value code paid init next, self, events, evm =>
    if evm.readOnly then evm.writeProtected events
    else do
      let result ← evm.create chain self code value.toNat address paid (exec init address [])
      exec next self events result.evm

end EVM

inductive Message
  | call (caller addr : Address) (input : Bytes) (value : Int) (precompiled : Option Bytes) (callee : Script)
  | create (caller : Address) (code : Bytes) (value : Int) (address : Address) (paid : Bool) (init : Script)

def Message.apply (chain : Chain) (stateDB : StateDB) : Message → Except Panic Returned
  | .call caller addr input value precompiled callee =>
    EVM.call chain { stateDB := stateDB } caller addr input value precompiled (EVM.exec chain callee addr [])
  | .create caller code value address paid init =>
    EVM.create chain { stateDB := stateDB } caller code value address paid (EVM.exec chain init address [])

end IDWDetector.Vm
