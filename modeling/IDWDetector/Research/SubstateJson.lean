import IDWDetector.Common.HexTypes
import IDWDetector.Research.SubstateRlp

namespace IDWDetector

open Go

open Json (Codec Field Fields PlainText)

def ascii (name : String) : Bytes := name.toList.map fun c => BitVec.ofNat 8 c.toNat

def fixedMap {ν : Type} (bits width : Nat) (whole : bits = 8 * width) (c : Codec ν) : Codec (Map (BitVec bits) ν) :=
  .map (fixedText bits width) (readFixedText bits width) c (plainText_fixed bits width)
    (readFixedText_text bits width whole)

theorem fixedMap_proper {ν : Type} (bits width : Nat) (whole : bits = 8 * width) (c : Codec ν) :
    (fixedMap bits width whole c).Proper :=
  Codec.map_proper _ _ _ _ _

structure SubstateAccountJSON where
  code : Bytes
  storage : Map Hash Hash
  balance : Option Int
  nonce : Uint64
deriving DecidableEq

def SubstateAccountJSON.codec : Codec SubstateAccountJSON :=
  Fields.struct
    (.cons (ascii "code") (.omitEmpty hexutilBytes hexutilBytes_proper [] trivial)
    (.cons (ascii "storage") (.omitEmpty (fixedMap 256 32 hash_width hashJSON) (fixedMap_proper _ _ _ _) .empty nofun)
    (.cons (ascii "balance") (.pointer hexOrDecimal256 hexOrDecimal256_proper)
    (.cons (ascii "nonce") (.omitEmpty hexOrDecimal64 hexOrDecimal64_proper 0 trivial)
      .nil rfl) rfl) rfl) rfl)
    (fun account => (account.code, account.storage, account.balance, account.nonce, ()))
    (fun (code, storage, balance, nonce, _) => ⟨code, storage, balance, nonce⟩)
    (fun _ => rfl)

def newSubstateAccountJSON (sa : SubstateAccount) : SubstateAccountJSON where
  nonce := sa.nonce
  balance := some sa.balance
  storage := sa.storage
  code := sa.code

/-- A nil balance stays nil in the source; no account that `NewSubstateAccountJSON` made has one. -/
def SubstateAccount.setJSON (saJSON : SubstateAccountJSON) : Except Panic SubstateAccount := do
  let balance ← deref saJSON.balance
  .ok { nonce := saJSON.nonce, balance, storage := saJSON.storage, code := saJSON.code }

abbrev SubstateAllocJSON := Map Address (Option SubstateAccountJSON)

def SubstateAllocJSON.codec : Codec SubstateAllocJSON :=
  fixedMap 160 20 address_width (SubstateAccountJSON.codec.pointer Fields.struct_proper)

def convertAccounts {ν μ : Type} (convert : ν → Option μ) (alloc : Map Address (Option ν)) :
    Except Panic (Map Address (Option μ)) :=
  if Map.anyKey alloc.keys fun addr => ((alloc.lookup addr).join.bind convert).isNone then .error .nilDereference
  else .ok (alloc.mapValues fun _ account => account.bind convert)

theorem convertAccounts_ok {ν μ : Type} {convert : ν → Option μ} {alloc : Map Address (Option ν)}
    {converted : Map Address (Option μ)} :
    convertAccounts convert alloc = .ok converted ↔
      (∀ addr account, alloc.lookup addr = some account → account.bind convert ≠ none) ∧
      alloc.mapValues (fun _ account => account.bind convert) = converted := by
  have total : (∀ addr ∈ alloc.keys, ¬ ((alloc.lookup addr).join.bind convert).isNone = true) ↔
      ∀ addr account, alloc.lookup addr = some account → account.bind convert ≠ none := by
    constructor
    · intro all addr account found
      have named := all addr ((alloc.mem_keys_iff addr).mpr ⟨account, found⟩)
      rwa [found, Option.isNone_iff_eq_none] at named
    · intro all addr member
      obtain ⟨account, found⟩ := (alloc.mem_keys_iff addr).mp member
      rw [found, Option.isNone_iff_eq_none]
      exact all addr account found
  rw [← total, ← Map.anyKey_eq_false, convertAccounts]
  split
  · rename_i missing
    rw [missing]
    exact ⟨by rintro ⟨⟩, by rintro ⟨⟨⟩, -⟩⟩
  · rename_i complete
    rw [Bool.eq_false_of_not_eq_true complete, Except.ok.injEq]
    exact ⟨fun same => ⟨rfl, same⟩, And.right⟩

def newSubstateAllocJSON (alloc : SubstateAlloc) : Except Panic SubstateAllocJSON :=
  convertAccounts (fun account => some (newSubstateAccountJSON account)) alloc

def SubstateAlloc.setJSON (allocJSON : SubstateAllocJSON) : Except Panic SubstateAlloc :=
  convertAccounts (fun saJSON => (SubstateAccount.setJSON saJSON).toOption) allocJSON

structure SubstateEnvJSON where
  coinbase : Address
  difficulty : Option Int
  gasLimit : Uint64
  number : Uint64
  timestamp : Uint64
  blockHashes : Map Uint64 Hash
  baseFee : Option Int
deriving DecidableEq

def blockHashesJSON : Codec (Map Uint64 Hash) :=
  .map hexUint64Text readHexOrDecimal64 hashJSON plainText_hexUint64 readHexOrDecimal64_text

def SubstateEnvJSON.codec : Codec SubstateEnvJSON :=
  Fields.struct
    (.cons (ascii "coinbase") (.value addressJSON addressJSON_proper 0)
    (.cons (ascii "difficulty") (.pointer hexOrDecimal256 hexOrDecimal256_proper)
    (.cons (ascii "gasLimit") (.value hexOrDecimal64 hexOrDecimal64_proper 0)
    (.cons (ascii "number") (.value hexOrDecimal64 hexOrDecimal64_proper 0)
    (.cons (ascii "timestamp") (.value hexOrDecimal64 hexOrDecimal64_proper 0)
    (.cons (ascii "blockHashes") (.omitEmpty blockHashesJSON (Codec.map_proper _ _ _ _ _) .empty nofun)
    (.cons (ascii "baseFee") (.omitNil hexOrDecimal256 hexOrDecimal256_proper)
      .nil rfl) rfl) rfl) rfl) rfl) rfl) rfl)
    (fun env =>
      (env.coinbase, env.difficulty, env.gasLimit, env.number, env.timestamp, env.blockHashes, env.baseFee, ()))
    (fun (coinbase, difficulty, gasLimit, number, timestamp, blockHashes, baseFee, _) =>
      ⟨coinbase, difficulty, gasLimit, number, timestamp, blockHashes, baseFee⟩)
    (fun _ => rfl)

def newSubstateEnvJSON (env : SubstateEnv) : SubstateEnvJSON where
  coinbase := env.coinbase
  difficulty := some env.difficulty
  gasLimit := env.gasLimit
  number := env.number
  timestamp := env.timestamp
  blockHashes := env.blockHashes.mapValues fun _ bhash => bhash
  baseFee := env.baseFee

/-- `Cmp` dereferences the base fee. -/
def SubstateEnv.setJSON (envJSON : SubstateEnvJSON) : Except Panic SubstateEnv := do
  let difficulty ← deref envJSON.difficulty
  let baseFee ← deref envJSON.baseFee
  .ok
    { coinbase := envJSON.coinbase
      difficulty
      gasLimit := envJSON.gasLimit
      number := envJSON.number
      timestamp := envJSON.timestamp
      blockHashes := envJSON.blockHashes.mapValues fun _ bhash => bhash
      baseFee := if baseFee = 0 then none else some baseFee }

def accessTupleJSON : Codec AccessTuple :=
  Fields.struct
    (.cons (ascii "address") (.required addressJSON addressJSON_proper (ascii "address") (ascii "AccessTuple"))
    (.cons (ascii "storageKeys")
      (.required hashJSON.slice (Codec.slice_proper _) (ascii "storageKeys") (ascii "AccessTuple"))
      .nil rfl) rfl)
    (fun tuple => (tuple.address, tuple.storageKeys, ()))
    (fun (address, storageKeys, _) => ⟨address, storageKeys⟩)
    (fun _ => rfl)

structure SubstateMessageJSON where
  nonce : Uint64
  checkNonce : Bool
  gasPrice : Option Int
  gas : Uint64
  fromAddr : Address
  toAddr : Option Address
  value : Option Int
  data : Bytes
  accessList : AccessList
  gasFeeCap : Option Int
  gasTipCap : Option Int
deriving DecidableEq

def SubstateMessageJSON.codec : Codec SubstateMessageJSON :=
  Fields.struct
    (.cons (ascii "nonce") (.value hexOrDecimal64 hexOrDecimal64_proper 0)
    (.cons (ascii "checkNonce") (.value Codec.bool Codec.bool_proper false)
    (.cons (ascii "gasPrice") (.pointer hexOrDecimal256 hexOrDecimal256_proper)
    (.cons (ascii "gas") (.value hexOrDecimal64 hexOrDecimal64_proper 0)
    (.cons (ascii "from") (.value addressJSON addressJSON_proper 0)
    (.cons (ascii "to") (.pointer addressJSON addressJSON_proper)
    (.cons (ascii "value") (.pointer hexOrDecimal256 hexOrDecimal256_proper)
    (.cons (ascii "input") (.value hexutilBytes hexutilBytes_proper [])
    (.cons (ascii "accessList") (.omitEmpty accessTupleJSON.slice (Codec.slice_proper _) [] nofun)
    (.cons (ascii "gasFeeCap") (.omitNil hexOrDecimal256 hexOrDecimal256_proper)
    (.cons (ascii "gasTipCap") (.omitNil hexOrDecimal256 hexOrDecimal256_proper)
      .nil rfl) rfl) rfl) rfl) rfl) rfl) rfl) rfl) rfl) rfl) rfl)
    (fun msg => (msg.nonce, msg.checkNonce, msg.gasPrice, msg.gas, msg.fromAddr, msg.toAddr, msg.value, msg.data,
      msg.accessList, msg.gasFeeCap, msg.gasTipCap, ()))
    (fun (nonce, checkNonce, gasPrice, gas, fromAddr, toAddr, value, data, accessList, gasFeeCap, gasTipCap, _) =>
      ⟨nonce, checkNonce, gasPrice, gas, fromAddr, toAddr, value, data, accessList, gasFeeCap, gasTipCap⟩)
    (fun _ => rfl)

def newSubstateMessageJSON (msg : SubstateMessage) : SubstateMessageJSON where
  nonce := msg.nonce
  checkNonce := msg.checkNonce
  gasPrice := some msg.gasPrice
  gas := msg.gas
  fromAddr := msg.fromAddr
  toAddr := msg.toAddr
  value := some msg.value
  data := msg.data
  accessList := msg.accessList
  gasFeeCap := some msg.gasFeeCap
  gasTipCap := some msg.gasTipCap

def SubstateMessage.setJSON (msg : SubstateMessage) (msgJSON : SubstateMessageJSON) : Except Panic SubstateMessage := do
  let gasPrice ← deref msgJSON.gasPrice
  let value ← deref msgJSON.value
  let gasFeeCap ← deref msgJSON.gasFeeCap
  let gasTipCap ← deref msgJSON.gasTipCap
  .ok
    { msg with
      nonce := msgJSON.nonce
      checkNonce := msgJSON.checkNonce
      gasPrice
      gas := msgJSON.gas
      fromAddr := msgJSON.fromAddr
      toAddr := msgJSON.toAddr
      value
      data := msgJSON.data
      accessList := msgJSON.accessList
      gasFeeCap := if gasFeeCap = 0 then gasPrice else gasFeeCap
      gasTipCap := if gasTipCap = 0 then gasPrice else gasTipCap }

structure LogJSON where
  address : Address
  topics : List Hash
  data : Bytes
  blockNumber : Uint64
  txHash : Hash
  txIndex : Uint64
  blockHash : Hash
  index : Uint64
  removed : Bool
deriving DecidableEq

def LogJSON.codec : Codec LogJSON :=
  Fields.struct
    (.cons (ascii "address") (.required addressJSON addressJSON_proper (ascii "address") (ascii "Log"))
    (.cons (ascii "topics") (.required hashJSON.slice (Codec.slice_proper _) (ascii "topics") (ascii "Log"))
    (.cons (ascii "data") (.required hexutilBytes hexutilBytes_proper (ascii "data") (ascii "Log"))
    (.cons (ascii "blockNumber") (.value hexutilUint64 hexutilUint64_proper 0)
    (.cons (ascii "transactionHash")
      (.required hashJSON hashJSON_proper (ascii "transactionHash") (ascii "Log"))
    (.cons (ascii "transactionIndex") (.value hexutilUint64 hexutilUint64_proper 0)
    (.cons (ascii "blockHash") (.value hashJSON hashJSON_proper 0)
    (.cons (ascii "logIndex") (.value hexutilUint64 hexutilUint64_proper 0)
    (.cons (ascii "removed") (.value Codec.bool Codec.bool_proper false)
      .nil rfl) rfl) rfl) rfl) rfl) rfl) rfl) rfl) rfl)
    (fun log => (log.address, log.topics, log.data, log.blockNumber, log.txHash, log.txIndex, log.blockHash, log.index,
      log.removed, ()))
    (fun (address, topics, data, blockNumber, txHash, txIndex, blockHash, index, removed, _) =>
      ⟨address, topics, data, blockNumber, txHash, txIndex, blockHash, index, removed⟩)
    (fun _ => rfl)

def newLogJSON (l : Log) : LogJSON where
  address := l.address
  topics := l.topics
  data := l.data
  blockNumber := l.blockNumber
  txHash := l.txHash
  txIndex := BitVec.ofInt 64 l.txIndex
  blockHash := l.blockHash
  index := BitVec.ofNat 64 l.index
  removed := l.removed

def Log.ofJSON (dec : LogJSON) : Log where
  address := dec.address
  topics := dec.topics
  data := dec.data
  blockNumber := dec.blockNumber
  txHash := dec.txHash
  txIndex := dec.txIndex.toNat
  blockHash := dec.blockHash
  index := dec.index.toNat
  removed := dec.removed

structure SubstateResultJSON where
  status : Uint64
  bloom : BitVec 2048
  logs : List LogJSON
  contractAddress : Address
  gasUsed : Uint64
deriving DecidableEq

def SubstateResultJSON.codec : Codec SubstateResultJSON :=
  Fields.struct
    (.cons (ascii "status") (.value hexOrDecimal64 hexOrDecimal64_proper 0)
    (.cons (ascii "logsBloom") (.value bloomJSON bloomJSON_proper 0)
    (.cons (ascii "logs") (.value LogJSON.codec.slice (Codec.slice_proper _) [])
    (.cons (ascii "contractAddress") (.value addressJSON addressJSON_proper 0)
    (.cons (ascii "gasUsed") (.value hexOrDecimal64 hexOrDecimal64_proper 0)
      .nil rfl) rfl) rfl) rfl) rfl)
    (fun result => (result.status, result.bloom, result.logs, result.contractAddress, result.gasUsed, ()))
    (fun (status, bloom, logs, contractAddress, gasUsed, _) => ⟨status, bloom, logs, contractAddress, gasUsed⟩)
    (fun _ => rfl)

def newSubstateResultJSON (result : SubstateResult) : SubstateResultJSON where
  status := result.status
  bloom := result.bloom
  logs := result.logs.map newLogJSON
  contractAddress := result.contractAddress
  gasUsed := result.gasUsed

def SubstateResult.setJSON (resultJSON : SubstateResultJSON) : SubstateResult where
  status := resultJSON.status
  bloom := resultJSON.bloom
  logs := resultJSON.logs.map Log.ofJSON
  contractAddress := resultJSON.contractAddress
  gasUsed := resultJSON.gasUsed

structure SubstateJSON where
  inputAlloc : SubstateAllocJSON
  outputAlloc : SubstateAllocJSON
  env : Option SubstateEnvJSON
  message : Option SubstateMessageJSON
  result : Option SubstateResultJSON
deriving DecidableEq

def SubstateJSON.codec : Codec SubstateJSON :=
  Fields.struct
    (.cons (ascii "inputAlloc") (.value SubstateAllocJSON.codec (fixedMap_proper _ _ _ _) .empty)
    (.cons (ascii "outputAlloc") (.value SubstateAllocJSON.codec (fixedMap_proper _ _ _ _) .empty)
    (.cons (ascii "env") (.pointer SubstateEnvJSON.codec Fields.struct_proper)
    (.cons (ascii "message") (.pointer SubstateMessageJSON.codec Fields.struct_proper)
    (.cons (ascii "result") (.pointer SubstateResultJSON.codec Fields.struct_proper)
      .nil rfl) rfl) rfl) rfl) rfl)
    (fun substate => (substate.inputAlloc, substate.outputAlloc, substate.env, substate.message, substate.result, ()))
    (fun (inputAlloc, outputAlloc, env, message, result, _) => ⟨inputAlloc, outputAlloc, env, message, result⟩)
    (fun _ => rfl)

def newSubstateJSON (substate : Substate) : Except Panic SubstateJSON := do
  let inputAlloc ← newSubstateAllocJSON substate.inputAlloc
  let outputAlloc ← newSubstateAllocJSON substate.outputAlloc
  .ok
    { inputAlloc
      outputAlloc
      env := some (newSubstateEnvJSON substate.env)
      message := some (newSubstateMessageJSON substate.message)
      result := some (newSubstateResultJSON substate.result) }

/-- The pointers of the substate that a text is read into. -/
structure SubstatePointers where
  env : Option SubstateEnv
  message : Option SubstateMessage
  result : Option SubstateResult

def SubstatePointers.zero : SubstatePointers := ⟨none, none, none⟩

def SubstatePointers.setJSON (substate : SubstatePointers) (substateJSON : SubstateJSON) : Except Panic Substate := do
  let inputAlloc ← SubstateAlloc.setJSON substateJSON.inputAlloc
  let outputAlloc ← SubstateAlloc.setJSON substateJSON.outputAlloc
  let _ ← deref substate.env
  let env ← SubstateEnv.setJSON (← deref substateJSON.env)
  let message ← SubstateMessage.setJSON (← deref substate.message) (← deref substateJSON.message)
  let _ ← deref substate.result
  let resultJSON ← deref substateJSON.result
  .ok { inputAlloc, outputAlloc, env, message, result := SubstateResult.setJSON resultJSON }

def Substate.marshalJSON (substate : Substate) : Except Panic Bytes := do
  let substateJSON ← newSubstateJSON substate
  .ok (SubstateJSON.codec.marshal substateJSON)

inductive JsonFailure
  | returned (err : Json.Error)
  | panicked (panic : Panic)
deriving DecidableEq

def SubstatePointers.unmarshalJSON (substate : SubstatePointers) (b : Bytes) : Except JsonFailure Substate :=
  match SubstateJSON.codec.unmarshal b with
  | .error err => .error (.returned err)
  | .ok substateJSON => match substate.setJSON substateJSON with
    | .error panic => .error (.panicked panic)
    | .ok read => .ok read

end IDWDetector
