import IDWDetector.Vm.Interpreter
import Mathlib.Data.Finset.Option

namespace IDWDetector.Core

def txGas : Uint64 := 21000
def txGasContractCreation : Uint64 := 53000
def txDataZeroGas : Uint64 := 4
def txDataNonZeroGasFrontier : Uint64 := 68
def txDataNonZeroGasEIP2028 : Uint64 := 16
def txAccessListAddressGas : Uint64 := 2400
def txAccessListStorageKeyGas : Uint64 := 1900

inductive TransitionError
  | nonceTooHigh
  | nonceTooLow
  | nonceMax
  | senderNoEOA
  | feeCapVeryHigh
  | tipVeryHigh
  | tipAboveFeeCap
  | feeCapTooLow
  | insufficientFunds
  | gasLimitReached
  | gasUintOverflow
  | intrinsicGas (available want : Uint64)
  | insufficientFundsForTransfer
  | lengthOfCallStack (length : Nat)
deriving DecidableEq, Repr

def addDataGas (gas : Uint64) (data : Bytes) (isEIP2028 : Bool) : Except TransitionError Uint64 :=
  let nz : Uint64 := BitVec.ofNat 64 (data.countP (· ≠ 0))
  let nonZeroGas := if isEIP2028 then txDataNonZeroGasEIP2028 else txDataNonZeroGasFrontier
  if (BitVec.allOnes 64 - gas) / nonZeroGas < nz then .error .gasUintOverflow
  else
    let gas := gas + nz * nonZeroGas
    let z := BitVec.ofNat 64 data.length - nz
    if (BitVec.allOnes 64 - gas) / txDataZeroGas < z then .error .gasUintOverflow
    else .ok (gas + z * txDataZeroGas)

def intrinsicGas (data : Bytes) (accessList : AccessList) (isContractCreation isHomestead isEIP2028 : Bool) :
    Except TransitionError Uint64 := do
  let gas := if isContractCreation && isHomestead then txGasContractCreation else txGas
  let gas ← if data.length > 0 then addDataGas gas data isEIP2028 else .ok gas
  .ok (gas + BitVec.ofNat 64 accessList.length * txAccessListAddressGas +
    BitVec.ofNat 64 accessList.storageKeys * txAccessListStorageKeyGas)

/-- The methods of the `Message` interface; the prices are not nil. -/
structure Message where
  fromAddr : Address
  toAddr : Option Address
  nonce : Uint64
  value : Int
  gas : Uint64
  gasPrice : Int
  gasFeeCap : Int
  gasTipCap : Int
  data : Bytes
  accessList : AccessList
  isFake : Bool

/-- What `TransitionDb` reads of the chain rules and of the block. -/
structure Context where
  chain : Vm.Chain
  isIstanbul : Bool
  isBerlin : Bool
  activePrecompiles : Finset Address
  noBaseFee : Bool
  baseFee : Option Int
  coinbase : Address

/-- What the code of the message executes, the address of a creation, the gas that is left, and the access list. -/
structure Execution where
  script : Vm.Script
  precompiled : Option Bytes
  address : Address
  paid : Bool
  gasLeft : Uint64
  accessed : Finset Address

/-- The gas pool, the gas of the message, the machine, and the addresses in the
    access list of its state. -/
structure StateTransition where
  gp : Uint64
  gas : Uint64 := 0
  initialGas : Uint64 := 0
  evm : Vm.EVM
  accessList : Finset Address

structure ExecutionResult where
  usedGas : Uint64
  err : Option Vm.VmError
  returnData : Bytes
deriving DecidableEq

namespace StateTransition

variable (ctx : Context) (msg : Message) (st : StateTransition)

def withState (stateDB : State.StateDB) : StateTransition :=
  { st with evm := { st.evm with stateDB := stateDB } }

def gasUsed : Uint64 := st.initialGas - st.gas

def buyGas : Option TransitionError × StateTransition :=
  let mgval := msg.gas.toNat * msg.gasPrice
  let balanceCheck := msg.gas.toNat * msg.gasFeeCap + msg.value
  let (available, stateDB) := st.evm.stateDB.getBalance msg.fromAddr
  let st := st.withState stateDB
  if available < balanceCheck then (some .insufficientFunds, st)
  else if st.gp < msg.gas then (some .gasLimitReached, st)
  else
    let st := { st with gp := st.gp - msg.gas, gas := st.gas + msg.gas, initialGas := msg.gas }
    (none, st.withState (st.evm.stateDB.subBalance msg.fromAddr mgval))

def checkNonce : Option TransitionError × StateTransition :=
  let (stNonce, stateDB) := st.evm.stateDB.getNonce msg.fromAddr
  let err :=
    if stNonce < msg.nonce then some .nonceTooHigh
    else if msg.nonce < stNonce then some .nonceTooLow
    else if stNonce + 1 < stNonce then some .nonceMax
    else none
  (err, st.withState stateDB)

def checkSender : Option TransitionError × StateTransition :=
  let (codeHash, stateDB) := st.evm.stateDB.getCodeHash ctx.chain.keccak msg.fromAddr
  (if codeHash ≠ ctx.chain.keccak [] && codeHash ≠ 0 then some .senderNoEOA else none, st.withState stateDB)

def checkFees : Except Panic (Option TransitionError) :=
  if !ctx.chain.isLondon then .ok none
  else if ctx.noBaseFee && msg.gasFeeCap.natAbs.size = 0 && msg.gasTipCap.natAbs.size = 0 then .ok none
  else if 256 < msg.gasFeeCap.natAbs.size then .ok (some .feeCapVeryHigh)
  else if 256 < msg.gasTipCap.natAbs.size then .ok (some .tipVeryHigh)
  else if msg.gasFeeCap < msg.gasTipCap then .ok (some .tipAboveFeeCap)
  else
    match ctx.baseFee with
    | none => .error .nilDereference
    | some baseFee => .ok (if msg.gasFeeCap < baseFee then some .feeCapTooLow else none)

def andThen (checked : Option TransitionError × StateTransition)
    (next : StateTransition → Option TransitionError × StateTransition) :
    Option TransitionError × StateTransition :=
  match checked with
  | (some err, st) => (some err, st)
  | (none, st) => next st

/-- The checks that `preCheck` and `preCheckSu` share after those on the sender. -/
def payForGas (checked : Option TransitionError × StateTransition) :
    Except Panic (Option TransitionError × StateTransition) :=
  match checked with
  | (some err, st) => .ok (some err, st)
  | (none, st) => do
    match ← checkFees ctx msg with
    | some err => .ok (some err, st)
    | none => .ok (st.buyGas msg)

def preCheck : Except Panic (Option TransitionError × StateTransition) :=
  payForGas ctx msg (if msg.isFake then (none, st) else andThen (st.checkNonce msg) (checkSender ctx msg))

/-- `preCheckSu` does not check the nonce. -/
def preCheckSu : Except Panic (Option TransitionError × StateTransition) :=
  payForGas ctx msg (if msg.isFake then (none, st) else st.checkSender ctx msg)

def payIntrinsicGas : Option TransitionError × StateTransition :=
  match intrinsicGas msg.data msg.accessList (msg.toAddr = none) ctx.chain.isHomestead ctx.isIstanbul with
  | .error err => (some err, st)
  | .ok gas => if st.gas < gas then (some (.intrinsicGas st.gas gas), st) else (none, { st with gas := st.gas - gas })

def checkValue : Option TransitionError × StateTransition :=
  if 0 < msg.value then
    let (funded, evm) := st.evm.canTransfer msg.fromAddr msg.value
    (if funded then none else some .insufficientFundsForTransfer, { st with evm := evm })
  else (none, st)

def prepareAccessList : StateTransition :=
  if ctx.isBerlin then
    { st with
      accessList := st.accessList ∪ insert msg.fromAddr (msg.toAddr.toFinset ∪ ctx.activePrecompiles ∪
        (msg.accessList.map AccessTuple.address).toFinset) }
  else st

/-- `Create`, or `Call` after the nonce of the sender was increased. -/
def execute (execution : Execution) (st : StateTransition) : Except Panic Vm.Returned :=
  match msg.toAddr with
  | none =>
    st.evm.create ctx.chain msg.fromAddr msg.data msg.value execution.address execution.paid
      (Vm.EVM.exec ctx.chain execution.script execution.address [])
  | some addr =>
    let (nonce, stateDB) := st.evm.stateDB.getNonce msg.fromAddr
    let evm := { st.evm with stateDB := stateDB.setNonce msg.fromAddr (nonce + 1) }
    evm.call ctx.chain msg.fromAddr addr msg.data msg.value execution.precompiled
      (Vm.EVM.exec ctx.chain execution.script addr [])

def refundQuotient : Uint64 := 2
def refundQuotientEIP3529 : Uint64 := 5

def refundGas (quotient : Uint64) (st : StateTransition) : Except Panic StateTransition :=
  let refund := st.gasUsed / quotient
  let refund := if st.evm.stateDB.refund < refund then st.evm.stateDB.refund else refund
  let st := { st with gas := st.gas + refund }
  let remaining := st.gas.toNat * msg.gasPrice
  let st := st.withState (st.evm.stateDB.addBalance ctx.chain.keccak msg.fromAddr remaining)
  if BitVec.allOnes 64 - st.gas < st.gp then .error .gasPoolOverflow else .ok { st with gp := st.gp + st.gas }

def reward : Except Panic StateTransition := do
  let effectiveTip ←
    if ctx.chain.isLondon then
      match ctx.baseFee with
      | none => .error .nilDereference
      | some baseFee => .ok (min msg.gasTipCap (msg.gasFeeCap - baseFee))
    else .ok msg.gasPrice
  .ok (st.withState (st.evm.stateDB.addBalance ctx.chain.keccak ctx.coinbase (st.gasUsed.toNat * effectiveTip)))

def close (returned : Vm.Returned) (st : StateTransition) :
    Except Panic (Except TransitionError ExecutionResult × StateTransition) := do
  let st ← st.refundGas ctx msg (if ctx.chain.isLondon then refundQuotientEIP3529 else refundQuotient)
  let st ← st.reward ctx msg
  if 0 < st.evm.callStack.length then .ok (.error (.lengthOfCallStack st.evm.callStack.length), st)
  else .ok (.ok ⟨st.gasUsed, returned.err, returned.ret⟩, st)

/-- The body that `TransitionDb` and `TransitionDbTest` share after their first check. -/
def transition (execution : Execution) (checked : Option TransitionError × StateTransition) :
    Except Panic (Except TransitionError ExecutionResult × StateTransition) :=
  match andThen (andThen checked (payIntrinsicGas ctx msg)) (checkValue msg) with
  | (some err, st) => .ok (.error err, st)
  | (none, st) => do
    let st := st.prepareAccessList ctx msg
    let returned ← st.execute ctx msg execution
    let accessList := if ctx.isBerlin then st.accessList ∪ execution.accessed else st.accessList
    { st with gas := execution.gasLeft, evm := returned.evm, accessList := accessList }.close ctx msg returned

def transitionDb (execution : Execution) (st : StateTransition) :
    Except Panic (Except TransitionError ExecutionResult × StateTransition) := do
  transition ctx msg execution (← st.preCheck ctx msg)

def transitionDbTest (execution : Execution) (st : StateTransition) :
    Except Panic (Except TransitionError ExecutionResult × StateTransition) := do
  transition ctx msg execution (← st.preCheckSu ctx msg)

end StateTransition

end IDWDetector.Core
