import IDWDetector.Abi.Unpack
import IDWDetector.Go.Strconv
import IDWDetector.Hunter.Pipeline

namespace IDWDetector.Hunter

open Vm Abi Go

/-- The values that occur in the calls of a sender, with how often they do, and their lists. -/
structure SeedPool where
  addressSeedMap : Map Address Nat := .empty
  uintSeedMap : Map Uint64 Nat := .empty
  intSeedMap : Map (BitVec 64) Nat := .empty
  etherAmountSeedMap : Map Bytes Nat := .empty
  addressSeedList : List Address := []
  uintSeedList : List Uint64 := []
  intSeedList : List (BitVec 64) := []
  etherAmountSeedList : List Bytes := []

def seen {κ : Type} [DecidableEq κ] (counts : Map κ Nat) (key : κ) : Map κ Nat :=
  counts.upsert key fun count => count.getD 0 + 1

def addressPool : List Address := [0, 0xffffffffffffffffffffffffffffffffffffffff]

def intPool : List Int :=
  [-1, -2, -10, -100, -1000, -100000, -100000000, -100000000000, -1000000000000000, -100000000000000000000, 0, 1, 2, 10,
    100, 1000, 100000, 100000000, 100000000000, 1000000000000000, 100000000000000000000]

def uintPool : List Nat :=
  [0, 1, 2, 10, 100, 1000, 100000, 100000000, 100000000000, 1000000000000000, 100000000000000000000]

def etherPool : List Nat :=
  [0, 1, 2, 10, 100, 1000, 100000, 100000000, 100000000000, 1000000000000000, 1000000000000000000,
    2000000000000000000, 100000000000000000000]

def initSeedPool : SeedPool where
  intSeedMap := (intPool.map fun number => BitVec.ofInt 64 (parseIntValue (itoa number))).foldl seen .empty
  uintSeedMap := (uintPool.map fun number => BitVec.ofNat 64 (parseUintValue (decimal number))).foldl seen .empty
  addressSeedMap := addressPool.foldl seen .empty
  etherAmountSeedMap := (etherPool.map decimal).foldl seen .empty

/-- The orders in which `range` yields the maps of a pool. -/
structure PoolOrder where
  ints : List (BitVec 64)
  uints : List Uint64
  addresses : List Address
  ethers : List Bytes

structure PoolOrder.Enumerates (order : PoolOrder) (pool : SeedPool) : Prop where
  ints : Map.Enumerates order.ints pool.intSeedMap
  uints : Map.Enumerates order.uints pool.uintSeedMap
  addresses : Map.Enumerates order.addresses pool.addressSeedMap
  ethers : Map.Enumerates order.ethers pool.etherAmountSeedMap

def SeedPool.updateMapToList (order : PoolOrder) : SeedPool where
  intSeedList := order.ints
  uintSeedList := order.uints
  addressSeedList := order.addresses
  etherAmountSeedList := order.ethers

structure Contract where
  abi : ABI
  methodCallMap : Map String (List Bytes) := .empty

structure Seed where
  senderSeedMap : Map Address Nat := .empty
  senderSeedList : List Address := []
  toSeedList : List Address := []
  contracts : Map Address Contract := .empty
  seedPoolMap : Map Address SeedPool := .empty

namespace Seed

def initContract (loadABI : Address → ABI) (seed : Seed) (contract : Address) : Seed :=
  { seed with
    contracts := seed.contracts.set contract { abi := loadABI contract }
    toSeedList := seed.toSeedList ++ [contract] }

def initSeed (loadABI : Address → ABI) (proxyInfo : ProxyInfo) : Seed :=
  let seed := proxyInfo.proxyContracts.foldl (initContract loadABI) {}
  proxyInfo.lpTokens.foldl (fun seed token =>
    if token ≠ 0 ∧ (seed.contracts.lookup token).isNone then initContract loadABI seed token else seed) seed

end Seed

namespace SeedPool

variable (pool : SeedPool) (size draw : Nat)

/-- `draw` is the number that `cryptoRand.Int` returns. -/
def selectInt : Except Panic Value :=
  match pool.intSeedList[draw]? with
  | none => .error .indexOutOfRange
  | some number =>
    .ok (if machineSize size then .machine true size (number.setWidth size).toInt else .big number.toInt)

def selectUint : Except Panic Value :=
  match pool.uintSeedList[draw]? with
  | none => .error .indexOutOfRange
  | some number =>
    .ok (if machineSize size then .machine false size (number.setWidth size).toNat else .big number.toNat)

def selectEtherAmount : Except Panic (Option Int) :=
  match pool.etherAmountSeedList[draw]? with
  | none => .error .indexOutOfRange
  | some text => .ok (setString 10 text)

end SeedPool

section Parsing

def parseArg (pool : SeedPool) (t : AbiType) (arg : Option Value) : Except Panic SeedPool :=
  match t with
  | .int _ =>
    match arg with
    | some (.big value) => .ok { pool with intSeedMap := seen pool.intSeedMap (BitVec.ofInt 64 value) }
    | some _ => .error .typeAssertion
    | none => .error .indexOutOfRange
  | .uint _ =>
    match arg with
    | some (.big value) => .ok { pool with uintSeedMap := seen pool.uintSeedMap (BitVec.ofNat 64 value.natAbs) }
    | some _ => .error .typeAssertion
    | none => .error .indexOutOfRange
  | .address =>
    match arg with
    | some (.address addr) => .ok { pool with addressSeedMap := seen pool.addressSeedMap addr }
    | some _ => .error .typeAssertion
    | none => .error .indexOutOfRange
  | _ => .ok pool

/-- What `Unpack` returns beside its error, which is only printed. -/
def unpackedArgs (inputs : List AbiType) (data : Bytes) : List Value := (unpack inputs (data.drop 4)).toOption.getD []

def parseMethodArgs (pool : SeedPool) (contract : Contract) (data : Bytes) : Except Panic (SeedPool × Contract) :=
  match contract.abi.methodById data with
  | none => .ok (pool, contract)
  | some method => do
    let contract := { contract with
      methodCallMap := contract.methodCallMap.upsert method.name fun inputs => inputs.getD [] ++ [data] }
    let args := unpackedArgs method.inputs data
    let pool ← method.inputs.zipIdx.foldlM (fun pool input => parseArg pool input.1 args[input.2]?) pool
    .ok (pool, contract)

/-- `Value.String()`, also of nil. -/
def etherText : Option Int → Bytes
  | none => [0x3c, 0x6e, 0x69, 0x6c, 0x3e]
  | some value => itoa value

def parseCall (state : SeedPool × Map Address Contract) (callTo : Address) (input : Bytes) (value : Option Int) :
    Except Panic (SeedPool × Map Address Contract) :=
  match state.2.lookup callTo with
  | none => .ok state
  | some contract => do
    let (pool, contract) ← parseMethodArgs state.1 contract input
    .ok ({ pool with etherAmountSeedMap := seen pool.etherAmountSeedMap (etherText value) },
      state.2.set callTo contract)

mutual

def parseTxForSeedUtil : InternalTx → SeedPool × Map Address Contract →
    Except Panic (SeedPool × Map Address Contract)
  | ⟨_, toAddr, _, value, _, input, _, inTxs⟩, state => do
    let state ← parseCall state toAddr input value
    parseTxsForSeed inTxs state

def parseTxsForSeed : List InternalTx → SeedPool × Map Address Contract →
    Except Panic (SeedPool × Map Address Contract)
  | [], state => .ok state
  | tx :: rest, state => do
    let state ← parseTxForSeedUtil tx state
    parseTxsForSeed rest state

end

def Seed.parseTxForSeed (seed : Seed) (exTx : ExternalTx) : Except Panic Seed :=
  match exTx.inTxs with
  | [root] => do
    let pool := (seed.seedPoolMap.lookup root.fromAddr).getD initSeedPool
    let (pool, contracts) ← parseTxForSeedUtil root (pool, seed.contracts)
    .ok { seed with
      senderSeedMap := seen seed.senderSeedMap root.fromAddr
      contracts := contracts
      seedPoolMap := seed.seedPoolMap.set root.fromAddr pool }
  | _ => .ok seed

/-- The orders in which the maps of the pools and `SenderSeedMap` are iterated. -/
structure SeedOrder where
  pools : Address → PoolOrder
  senders : List Address

def Seed.initSeedFromFrontTxs (seed : Seed) (order : SeedOrder) (txList : List ExternalTx) : Except Panic Seed := do
  let seed ← txList.foldlM Seed.parseTxForSeed seed
  .ok { seed with
    seedPoolMap := seed.seedPoolMap.mapValues fun sender _ => SeedPool.updateMapToList (order.pools sender)
    senderSeedList := seed.senderSeedList ++ order.senders }

/-- The arguments that `mutateInputData` packs; `generate` is `generateTypeInput`, and arguments of other types are
    those of the stored input. -/
def Contract.mutateArgs (contract : Contract) (generate : AbiType → Value) (name : String) (data : Bytes) :
    Except Panic (List Value) :=
  let inputs := ((contract.abi.method name).map Method.inputs).getD []
  let originArgs := unpackedArgs inputs data
  inputs.zipIdx.mapM fun input =>
    match input.1 with
    | .int _ => .ok (generate input.1)
    | .uint _ => .ok (generate input.1)
    | .address => .ok (generate input.1)
    | .bool => .ok (generate input.1)
    | _ =>
      match originArgs[input.2]? with
      | some arg => .ok arg
      | none => .error .indexOutOfRange

end Parsing

end IDWDetector.Hunter
