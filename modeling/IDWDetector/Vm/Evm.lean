import IDWDetector.State.StateDB
import IDWDetector.Vm.Blockhash

namespace IDWDetector.Vm

open State

structure Event where
  address : Address
  topics : List Hash
  data : Bytes
  index : Nat
deriving DecidableEq

inductive CallType
  | call
  | callCode
  | delegateCall
  | staticCall
  | create
deriving DecidableEq, Repr

structure InternalTx where
  fromAddr : Address
  toAddr : Address
  isContract : Bool := false
  value : Option Int := none
  callType : CallType
  input : Bytes := []
  events : List Event := []
  inTxs : List InternalTx := []

inductive VmError
  | depth
  | insufficientBalance
  | executionReverted
  | outOfGas
  | invalidOpCode
  | writeProtection
  | nonceUintOverflow
  | contractAddressCollision
  | maxCodeSizeExceeded
  | invalidCode
  | codeStoreOutOfGas
deriving DecidableEq, Repr

/-- The chain rules that the modelled functions read, the precompiled
    addresses and the hash function. -/
structure Chain where
  keccak : Bytes → Hash
  precompile : Address → Bool
  isHomestead : Bool
  isEIP158 : Bool
  isLondon : Bool
  blockNumber : Uint64 := 0

def callCreateDepth : Nat := 1024

def maxCodeSize : Nat := 24576

/-- An amount of ether that one account pays to another. -/
structure Payment where
  sender : Address
  recipient : Address
  amount : Int
deriving DecidableEq

/-- The top of `callStack` is its head. `payments` lists the ether that has been moved so far, which nothing reads. -/
structure EVM where
  stateDB : StateDB
  depth : Nat := 0
  readOnly : Bool := false
  callStack : List InternalTx := []
  exTx : List InternalTx := []
  payments : List Payment := []

namespace EVM

variable (evm : EVM)

def canTransfer (addr : Address) (amount : Int) : Bool × EVM :=
  let (balance, stateDB) := evm.stateDB.getBalance addr
  (decide (amount ≤ balance), { evm with stateDB := stateDB })

def transfer (keccak : Bytes → Hash) (evm : EVM) (sender recipient : Address) (amount : Int) : EVM :=
  { evm with
    stateDB := (evm.stateDB.subBalance sender amount).addBalance keccak recipient amount
    payments := evm.payments ++ [⟨sender, recipient, amount⟩] }

def snapshot : Nat × EVM :=
  let (id, stateDB) := evm.stateDB.snapshot
  (id, { evm with stateDB := stateDB })

def push (tx : InternalTx) : EVM := { evm with callStack := tx :: evm.callStack }

/-- The end of a frame: it becomes the last child of the frame below it, or a
    transaction of its own. -/
def pop : Except Panic EVM :=
  match evm.callStack with
  | [] => .error .indexOutOfRange
  | [tx] => .ok { evm with callStack := [], exTx := evm.exTx ++ [tx] }
  | tx :: parent :: rest =>
    .ok { evm with callStack := { parent with inTxs := parent.inTxs ++ [tx] } :: rest }

def appendInTx (tx : InternalTx) : Except Panic EVM :=
  match evm.callStack with
  | [] => .error .indexOutOfRange
  | top :: rest => .ok { evm with callStack := { top with inTxs := top.inTxs ++ [tx] } :: rest }

def setEvents (events : List Event) : Except Panic EVM :=
  match evm.callStack with
  | [] => .error .indexOutOfRange
  | top :: rest => .ok { evm with callStack := { top with events := events } :: rest }

def revertToSnapshot (snapshot : Nat) : Except Panic EVM := do
  let stateDB ← evm.stateDB.revertToSnapshot snapshot
  .ok { evm with stateDB := stateDB }

def revertOnError (snapshot : Nat) (err : Option VmError) : Except Panic EVM :=
  if err = none then .ok evm else evm.revertToSnapshot snapshot

end EVM

/-- What a frame returns and the machine after it. -/
structure Returned where
  ret : Bytes
  err : Option VmError
  evm : EVM

/-- The loop of `Run` for the code of a frame. -/
abbrev Loop := EVM → Except Panic Returned

/-- `Run` around its loop: the depth, the read-only flag, and no code at all. -/
def EVM.run (evm : EVM) (codeEmpty readOnly : Bool) (loop : Loop) : Except Panic Returned :=
  if codeEmpty then .ok ⟨[], none, evm⟩
  else do
    let result ← loop { evm with depth := evm.depth + 1, readOnly := evm.readOnly || readOnly }
    .ok { result with
      evm := { result.evm with
        depth := result.evm.depth - 1
        readOnly := if readOnly && !evm.readOnly then false else result.evm.readOnly } }

namespace EVM

variable (chain : Chain) (evm : EVM)

/-- What a call or a creation does before the code of its frame runs. A refused one
    records nothing; `codeEmpty` says that the frame has no code to run. -/
inductive Opening
  | refused (err : Option VmError) (evm : EVM)
  | precompiled (snapshot : Nat) (evm : EVM)
  | codeless (evm : EVM)
  | frame (snapshot : Nat) (evm : EVM) (codeEmpty : Bool)

def enterCall (snapshot : Nat) (present : Bool) (caller addr : Address) (value : Int) : Opening :=
  if !present && !chain.precompile addr && chain.isEIP158 && value = 0 then .refused none evm
  else
    let evm := if present then evm else { evm with stateDB := evm.stateDB.createAccount addr }
    let evm := evm.transfer chain.keccak caller addr value
    if chain.precompile addr then .precompiled snapshot evm
    else
      let (code, stateDB) := evm.stateDB.getCode addr
      let evm := { evm with stateDB := stateDB }
      if code = [] then .codeless evm else .frame snapshot evm false

def openCall (caller addr : Address) (value : Int) : Opening :=
  if evm.depth > callCreateDepth then .refused (some .depth) evm
  else
    let (funded, evm) := if value = 0 then (true, evm) else evm.canTransfer caller value
    if !funded then .refused (some .insufficientBalance) evm
    else
      let (snapshot, evm) := evm.snapshot
      let (present, stateDB) := evm.stateDB.exist addr
      enterCall chain { evm with stateDB := stateDB } snapshot present caller addr value

/-- The precompiled contract or the frame that `CallCode`, `DelegateCall` and `StaticCall` open after their checks. -/
def openFrame (snapshot : Nat) (addr : Address) : Opening :=
  if chain.precompile addr then .precompiled snapshot evm
  else
    let (code, stateDB) := evm.stateDB.getCode addr
    .frame snapshot { evm with stateDB := stateDB } (decide (code = []))

def openCallCode (caller addr : Address) (value : Int) : Opening :=
  if evm.depth > callCreateDepth then .refused (some .depth) evm
  else
    let (funded, evm) := evm.canTransfer caller value
    if !funded then .refused (some .insufficientBalance) evm
    else
      let (snapshot, evm) := evm.snapshot
      evm.openFrame chain snapshot addr

def openDelegateCall (addr : Address) : Opening :=
  if evm.depth > callCreateDepth then .refused (some .depth) evm
  else
    let (snapshot, evm) := evm.snapshot
    evm.openFrame chain snapshot addr

/-- `StaticCall` touches the account by adding nothing to its balance. -/
def openStaticCall (addr : Address) : Opening :=
  if evm.depth > callCreateDepth then .refused (some .depth) evm
  else
    let (snapshot, evm) := evm.snapshot
    let evm := { evm with stateDB := evm.stateDB.addBalance chain.keccak addr 0 }
    evm.openFrame chain snapshot addr

def enterCreate (caller : Address) (code : Bytes) (value : Int) (address : Address) : Opening :=
  let (snapshot, evm) := evm.snapshot
  let stateDB := evm.stateDB.createAccount address
  let stateDB := if chain.isEIP158 then stateDB.setNonce address 1 else stateDB
  let evm := { evm with stateDB := stateDB }
  .frame snapshot (evm.transfer chain.keccak caller address value) (decide (code = []))

def openCreate (caller : Address) (code : Bytes) (value : Int) (address : Address) : Opening :=
  if evm.depth > callCreateDepth then .refused (some .depth) evm
  else
    let (funded, evm) := evm.canTransfer caller value
    if !funded then .refused (some .insufficientBalance) evm
    else
      let (nonce, stateDB) := evm.stateDB.getNonce caller
      if nonce + 1 < nonce then .refused (some .nonceUintOverflow) { evm with stateDB := stateDB }
      else
        let stateDB := stateDB.setNonce caller (nonce + 1)
        let (contractHash, stateDB) := stateDB.getCodeHash chain.keccak address
        let (taken, stateDB) := stateDB.getNonce address
        let evm := { evm with stateDB := stateDB }
        if taken ≠ 0 || (contractHash ≠ 0 && contractHash ≠ chain.keccak []) then
          .refused (some .contractAddressCollision) evm
        else enterCreate chain evm caller code value address

def runFrame (tx : InternalTx) (codeEmpty readOnly : Bool) (loop : Loop) : Except Panic Returned := do
  let result ← (evm.push { tx with isContract := true }).run codeEmpty readOnly loop
  let evm ← result.evm.pop
  .ok { result with evm := evm }

def settleCall (snapshot : Nat) (result : Returned) : Except Panic Returned := do
  let evm ← result.evm.revertOnError snapshot result.err
  .ok { result with evm := evm }

def deployError (ret : Bytes) (paid : Bool) : Option VmError → Option VmError
  | some err => some err
  | none =>
    if chain.isEIP158 && maxCodeSize < ret.length then some .maxCodeSizeExceeded
    else if ret.head? = some 0xEF && chain.isLondon then some .invalidCode
    else if paid then none
    else some .codeStoreOutOfGas

def rollsBack (err : Option VmError) : Bool :=
  err ≠ none && (chain.isHomestead || err ≠ some .codeStoreOutOfGas)

/-- The end of `create`; `paid` says that the gas pays for the returned code. -/
def settleCreate (address : Address) (paid : Bool) (snapshot : Nat) (result : Returned) :
    Except Panic Returned := do
  let err := deployError chain result.ret paid result.err
  let evm :=
    if err = none then { result.evm with stateDB := result.evm.stateDB.setCode address result.ret }
    else result.evm
  let evm ← if rollsBack chain err then evm.revertToSnapshot snapshot else .ok evm
  .ok ⟨result.ret, err, evm⟩

def finish (opening : Opening) (tx : InternalTx) (readOnly : Bool) (precompiled : Option Bytes)
    (settle : Nat → Returned → Except Panic Returned) (loop : Loop) : Except Panic Returned :=
  match opening with
  | .refused err evm => .ok ⟨[], err, evm⟩
  | .precompiled snapshot evm =>
    settle snapshot ⟨precompiled.getD [], if precompiled = none then some .outOfGas else none, evm⟩
  | .codeless evm => do
    let evm ← evm.appendInTx tx
    .ok ⟨[], none, evm⟩
  | .frame snapshot evm codeEmpty => do
    let result ← evm.runFrame tx codeEmpty readOnly loop
    settle snapshot result

/-- `Call`; `loop` runs the code at the address, and `precompiled` is what the
    precompiled contract there returns. -/
def call (caller addr : Address) (input : Bytes) (value : Int) (precompiled : Option Bytes)
    (loop : Loop) : Except Panic Returned :=
  finish (evm.openCall chain caller addr value)
    { fromAddr := caller, toAddr := addr, callType := .call, value := some value, input := input }
    false precompiled settleCall loop

def callCode (caller addr : Address) (input : Bytes) (value : Int) (precompiled : Option Bytes)
    (loop : Loop) : Except Panic Returned :=
  finish (evm.openCallCode chain caller addr value)
    { fromAddr := caller, toAddr := addr, callType := .callCode, value := some value, input := input }
    false precompiled settleCall loop

def delegateCall (caller addr : Address) (input : Bytes) (precompiled : Option Bytes)
    (loop : Loop) : Except Panic Returned :=
  finish (evm.openDelegateCall chain addr)
    { fromAddr := caller, toAddr := addr, callType := .delegateCall, input := input }
    false precompiled settleCall loop

def staticCall (caller addr : Address) (input : Bytes) (precompiled : Option Bytes)
    (loop : Loop) : Except Panic Returned :=
  finish (evm.openStaticCall chain addr)
    { fromAddr := caller, toAddr := addr, callType := .staticCall, input := input }
    true precompiled settleCall loop

def create (caller : Address) (code : Bytes) (value : Int) (address : Address) (paid : Bool)
    (loop : Loop) : Except Panic Returned :=
  finish (evm.openCreate chain caller code value address)
    { fromAddr := caller, toAddr := 0, callType := .create } false none (settleCreate chain address paid) loop

end EVM

end IDWDetector.Vm
