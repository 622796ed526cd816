import IDWDetector.Research.Substate
import IDWDetector.Rlp.Fill

open Rlp

namespace IDWDetector

def addressCodec : Codec Address := .byteArray 160 20 address_width

def hashCodec : Codec Hash := .byteArray 256 32 hash_width

def hashPairCodec : Codec (Hash × Hash) :=
  Fields.struct (.cons hashCodec (.cons hashCodec .nil)) (fun pair => (pair.1, pair.2, ()))
    (fun (first, second, ()) => (first, second)) fun _ => rfl

structure SubstateAccountRLP where
  nonce : Uint64
  balance : Int
  codeHash : Hash
  storage : List (Hash × Hash)
deriving DecidableEq

def SubstateAccountRLP.codec : Codec SubstateAccountRLP :=
  Fields.struct (.cons .uint64 (.cons .bigInt (.cons hashCodec (.cons (.slice hashPairCodec) .nil))))
    (fun sa => (sa.nonce, sa.balance, sa.codeHash, sa.storage, ()))
    (fun (nonce, balance, codeHash, storage, ()) => ⟨nonce, balance, codeHash, storage⟩) fun _ => rfl

def newSubstateAccountRLP (keccak : Bytes → Hash) (sa : SubstateAccount) : SubstateAccountRLP where
  nonce := sa.nonce
  balance := sa.balance
  codeHash := keccak sa.code
  storage := sa.storage.entriesIn sa.storage.sortedKeys 0

structure SubstateAllocRLP where
  addresses : List Address
  accounts : List SubstateAccountRLP
deriving DecidableEq

def SubstateAllocRLP.codec : Codec SubstateAllocRLP :=
  Fields.struct (.cons (.slice addressCodec) (.cons (.slice SubstateAccountRLP.codec) .nil))
    (fun alloc => (alloc.addresses, alloc.accounts, ()))
    (fun (addresses, accounts, ()) => ⟨addresses, accounts⟩) fun _ => rfl

def newAccounts (keccak : Bytes → Hash) (alloc : SubstateAlloc) : List Address → Except Panic (List SubstateAccountRLP)
  | [] => .ok []
  | addr :: rest => do
    match alloc.getD addr none with
    | none => .error .nilDereference
    | some account =>
      let accounts ← newAccounts keccak alloc rest
      .ok (newSubstateAccountRLP keccak account :: accounts)

def newSubstateAllocRLP (keccak : Bytes → Hash) (alloc : SubstateAlloc) : Except Panic SubstateAllocRLP := do
  let accounts ← newAccounts keccak alloc alloc.sortedKeys
  .ok ⟨alloc.sortedKeys, accounts⟩

structure LegacySubstateEnvRLP where
  coinbase : Address
  difficulty : Int
  gasLimit : Uint64
  number : Uint64
  timestamp : Uint64
  blockHashes : List (Hash × Hash)
deriving DecidableEq

def LegacySubstateEnvRLP.codec : Codec LegacySubstateEnvRLP :=
  Fields.struct
    (.cons addressCodec (.cons .bigInt (.cons .uint64 (.cons .uint64 (.cons .uint64
      (.cons (.slice hashPairCodec) .nil))))))
    (fun env => (env.coinbase, env.difficulty, env.gasLimit, env.number, env.timestamp, env.blockHashes, ()))
    (fun (coinbase, difficulty, gasLimit, number, timestamp, blockHashes, ()) =>
      ⟨coinbase, difficulty, gasLimit, number, timestamp, blockHashes⟩) fun _ => rfl

structure SubstateEnvRLP where
  coinbase : Address
  difficulty : Int
  gasLimit : Uint64
  number : Uint64
  timestamp : Uint64
  blockHashes : List (Hash × Hash)
  baseFee : Option Hash
deriving DecidableEq

def SubstateEnvRLP.codec : Codec SubstateEnvRLP :=
  Fields.struct
    (.cons addressCodec (.cons .bigInt (.cons .uint64 (.cons .uint64 (.cons .uint64
      (.cons (.slice hashPairCodec) (.cons (.nilString 256 32 rfl (by decide)) .nil)))))))
    (fun env =>
      (env.coinbase, env.difficulty, env.gasLimit, env.number, env.timestamp, env.blockHashes, env.baseFee, ()))
    (fun (coinbase, difficulty, gasLimit, number, timestamp, blockHashes, baseFee, ()) =>
      ⟨coinbase, difficulty, gasLimit, number, timestamp, blockHashes, baseFee⟩) fun _ => rfl

/-- `common.BigToHash` keeps the low 256 bits of the absolute value. -/
def bigToHash (i : Int) : Hash := BitVec.ofNat 256 i.natAbs

/-- The block hashes are written in the order of the `range` loop. -/
def newSubstateEnvRLP (order : List Uint64) (env : SubstateEnv) : SubstateEnvRLP where
  coinbase := env.coinbase
  difficulty := env.difficulty
  gasLimit := env.gasLimit
  number := env.number
  timestamp := env.timestamp
  blockHashes := (env.blockHashes.entriesIn order 0).map fun (num64, bhash) => (bigToHash num64.toNat, bhash)
  baseFee := env.baseFee.map bigToHash

/-- The zero value; its nil difficulty is always overwritten. -/
def SubstateEnvRLP.zero : SubstateEnvRLP := ⟨0, 0, 0, 0, 0, [], none⟩

def SubstateEnvRLP.setLegacyRLP (envRLP : SubstateEnvRLP) (lenvRLP : LegacySubstateEnvRLP) : SubstateEnvRLP :=
  { envRLP with
    coinbase := lenvRLP.coinbase
    difficulty := lenvRLP.difficulty
    gasLimit := lenvRLP.gasLimit
    number := lenvRLP.number
    timestamp := lenvRLP.timestamp
    blockHashes := lenvRLP.blockHashes }

def SubstateEnv.setRLP (envRLP : SubstateEnvRLP) : SubstateEnv where
  coinbase := envRLP.coinbase
  difficulty := envRLP.difficulty
  gasLimit := envRLP.gasLimit
  number := envRLP.number
  timestamp := envRLP.timestamp
  blockHashes := .ofPairs (envRLP.blockHashes.map fun (num, bhash) => (BitVec.ofNat 64 num.toNat, bhash))
  baseFee := envRLP.baseFee.map fun fee => (fee.toNat : Int)

def accessTupleCodec : Codec AccessTuple :=
  Fields.struct (.cons addressCodec (.cons (.slice hashCodec) .nil))
    (fun tuple => (tuple.address, tuple.storageKeys, ()))
    (fun (address, storageKeys, ()) => ⟨address, storageKeys⟩) fun _ => rfl

structure LegacySubstateMessageRLP where
  nonce : Uint64
  checkNonce : Bool
  gasPrice : Int
  gas : Uint64
  fromAddr : Address
  toAddr : Option Address
  value : Int
  data : Bytes
  initCodeHash : Option Hash
deriving DecidableEq

def LegacySubstateMessageRLP.codec : Codec LegacySubstateMessageRLP :=
  Fields.struct
    (.cons .uint64 (.cons .bool (.cons .bigInt (.cons .uint64 (.cons addressCodec
      (.cons (.nilString 160 20 rfl (by decide)) (.cons .bigInt (.cons .byteSlice
        (.cons (.nilString 256 32 rfl (by decide)) .nil)))))))))
    (fun msg => (msg.nonce, msg.checkNonce, msg.gasPrice, msg.gas, msg.fromAddr, msg.toAddr, msg.value, msg.data,
      msg.initCodeHash, ()))
    (fun (nonce, checkNonce, gasPrice, gas, fromAddr, toAddr, value, data, initCodeHash, ()) =>
      ⟨nonce, checkNonce, gasPrice, gas, fromAddr, toAddr, value, data, initCodeHash⟩) fun _ => rfl

structure BerlinSubstateMessageRLP where
  nonce : Uint64
  checkNonce : Bool
  gasPrice : Int
  gas : Uint64
  fromAddr : Address
  toAddr : Option Address
  value : Int
  data : Bytes
  initCodeHash : Option Hash
  accessList : AccessList
deriving DecidableEq

def BerlinSubstateMessageRLP.codec : Codec BerlinSubstateMessageRLP :=
  Fields.struct
    (.cons .uint64 (.cons .bool (.cons .bigInt (.cons .uint64 (.cons addressCodec
      (.cons (.nilString 160 20 rfl (by decide)) (.cons .bigInt (.cons .byteSlice
        (.cons (.nilString 256 32 rfl (by decide)) (.cons (.slice accessTupleCodec) .nil))))))))))
    (fun msg => (msg.nonce, msg.checkNonce, msg.gasPrice, msg.gas, msg.fromAddr, msg.toAddr, msg.value, msg.data,
      msg.initCodeHash, msg.accessList, ()))
    (fun (nonce, checkNonce, gasPrice, gas, fromAddr, toAddr, value, data, initCodeHash, accessList, ()) =>
      ⟨nonce, checkNonce, gasPrice, gas, fromAddr, toAddr, value, data, initCodeHash, accessList⟩) fun _ => rfl

structure SubstateMessageRLP where
  nonce : Uint64
  checkNonce : Bool
  gasPrice : Int
  gas : Uint64
  fromAddr : Address
  toAddr : Option Address
  value : Int
  data : Bytes
  initCodeHash : Option Hash
  accessList : AccessList
  gasFeeCap : Int
  gasTipCap : Int
deriving DecidableEq

def SubstateMessageRLP.codec : Codec SubstateMessageRLP :=
  Fields.struct
    (.cons .uint64 (.cons .bool (.cons .bigInt (.cons .uint64 (.cons addressCodec
      (.cons (.nilString 160 20 rfl (by decide)) (.cons .bigInt (.cons .byteSlice
        (.cons (.nilString 256 32 rfl (by decide)) (.cons (.slice accessTupleCodec)
          (.cons .bigInt (.cons .bigInt .nil))))))))))))
    (fun msg => (msg.nonce, msg.checkNonce, msg.gasPrice, msg.gas, msg.fromAddr, msg.toAddr, msg.value, msg.data,
      msg.initCodeHash, msg.accessList, msg.gasFeeCap, msg.gasTipCap, ()))
    (fun (nonce, checkNonce, gasPrice, gas, fromAddr, toAddr, value, data, initCodeHash, accessList, gasFeeCap,
        gasTipCap, ()) =>
      ⟨nonce, checkNonce, gasPrice, gas, fromAddr, toAddr, value, data, initCodeHash, accessList, gasFeeCap,
        gasTipCap⟩) fun _ => rfl

/-- The zero value; its nil integers are always overwritten. -/
def SubstateMessageRLP.zero : SubstateMessageRLP := ⟨0, false, 0, 0, 0, none, 0, [], none, [], 0, 0⟩

def SubstateMessageRLP.setLegacyRLP (msgRLP : SubstateMessageRLP) (lmsgRLP : LegacySubstateMessageRLP) :
    SubstateMessageRLP :=
  { msgRLP with
    nonce := lmsgRLP.nonce
    checkNonce := lmsgRLP.checkNonce
    gasPrice := lmsgRLP.gasPrice
    gas := lmsgRLP.gas
    fromAddr := lmsgRLP.fromAddr
    toAddr := lmsgRLP.toAddr
    value := lmsgRLP.value
    data := lmsgRLP.data
    initCodeHash := lmsgRLP.initCodeHash
    accessList := []
    gasFeeCap := lmsgRLP.gasPrice
    gasTipCap := lmsgRLP.gasPrice }

def SubstateMessageRLP.setBerlinRLP (msgRLP : SubstateMessageRLP) (bmsgRLP : BerlinSubstateMessageRLP) :
    SubstateMessageRLP :=
  { msgRLP with
    nonce := bmsgRLP.nonce
    checkNonce := bmsgRLP.checkNonce
    gasPrice := bmsgRLP.gasPrice
    gas := bmsgRLP.gas
    fromAddr := bmsgRLP.fromAddr
    toAddr := bmsgRLP.toAddr
    value := bmsgRLP.value
    data := bmsgRLP.data
    initCodeHash := bmsgRLP.initCodeHash
    accessList := []
    gasFeeCap := bmsgRLP.gasPrice
    gasTipCap := bmsgRLP.gasPrice }

def newSubstateMessageRLP (keccak : Bytes → Hash) (msg : SubstateMessage) : SubstateMessageRLP where
  nonce := msg.nonce
  checkNonce := msg.checkNonce
  gasPrice := msg.gasPrice
  gas := msg.gas
  fromAddr := msg.fromAddr
  toAddr := msg.toAddr
  value := msg.value
  data := if msg.toAddr = none then [] else msg.data
  initCodeHash := if msg.toAddr = none then some (msg.getDataHash keccak) else none
  accessList := msg.accessList
  gasFeeCap := msg.gasFeeCap
  gasTipCap := msg.gasTipCap

def messageData (getCode : Hash → Except Panic Bytes) (toAddr : Option Address) (data : Bytes)
    (initCodeHash : Option Hash) : Except Panic Bytes :=
  match toAddr, initCodeHash with
  | some _, _ => .ok data
  | none, none => .error .nilDereference
  | none, some hash => getCode hash

def SubstateMessage.setRLP (getCode : Hash → Except Panic Bytes) (msgRLP : SubstateMessageRLP) :
    Except Panic SubstateMessage := do
  let data ← messageData getCode msgRLP.toAddr msgRLP.data msgRLP.initCodeHash
  .ok { nonce := msgRLP.nonce
        checkNonce := msgRLP.checkNonce
        gasPrice := msgRLP.gasPrice
        gas := msgRLP.gas
        fromAddr := msgRLP.fromAddr
        toAddr := msgRLP.toAddr
        value := msgRLP.value
        data := data
        accessList := msgRLP.accessList
        gasFeeCap := msgRLP.gasFeeCap
        gasTipCap := msgRLP.gasTipCap }

structure RlpLog where
  address : Address
  topics : List Hash
  data : Bytes
deriving DecidableEq

def RlpLog.codec : Codec RlpLog :=
  Fields.struct (.cons addressCodec (.cons (.slice hashCodec) (.cons .byteSlice .nil)))
    (fun log => (log.address, log.topics, log.data, ())) (fun (address, topics, data, ()) => ⟨address, topics, data⟩)
    fun _ => rfl

def Log.rlp (log : Log) : RlpLog := ⟨log.address, log.topics, log.data⟩

def RlpLog.log (dec : RlpLog) : Log := { address := dec.address, topics := dec.topics, data := dec.data }

structure SubstateResultRLP where
  status : Uint64
  bloom : BitVec 2048
  logs : List RlpLog
  contractAddress : Address
  gasUsed : Uint64
deriving DecidableEq

def SubstateResultRLP.codec : Codec SubstateResultRLP :=
  Fields.struct
    (.cons .uint64 (.cons (.byteArray 2048 256 bloom_width) (.cons (.slice RlpLog.codec) (.cons addressCodec
      (.cons .uint64 .nil)))))
    (fun result => (result.status, result.bloom, result.logs, result.contractAddress, result.gasUsed, ()))
    (fun (status, bloom, logs, contractAddress, gasUsed, ()) => ⟨status, bloom, logs, contractAddress, gasUsed⟩)
    fun _ => rfl

def newSubstateResultRLP (result : SubstateResult) : SubstateResultRLP where
  status := result.status
  bloom := result.bloom
  logs := result.logs.map Log.rlp
  contractAddress := result.contractAddress
  gasUsed := result.gasUsed

def SubstateResult.setRLP (resultRLP : SubstateResultRLP) : SubstateResult where
  status := resultRLP.status
  bloom := resultRLP.bloom
  logs := resultRLP.logs.map RlpLog.log
  contractAddress := resultRLP.contractAddress
  gasUsed := resultRLP.gasUsed

structure LegacySubstateRLP where
  inputAlloc : SubstateAllocRLP
  outputAlloc : SubstateAllocRLP
  env : LegacySubstateEnvRLP
  message : LegacySubstateMessageRLP
  result : SubstateResultRLP
deriving DecidableEq

structure BerlinSubstateRLP where
  inputAlloc : SubstateAllocRLP
  outputAlloc : SubstateAllocRLP
  env : LegacySubstateEnvRLP
  message : BerlinSubstateMessageRLP
  result : SubstateResultRLP
deriving DecidableEq

structure SubstateRLP where
  inputAlloc : SubstateAllocRLP
  outputAlloc : SubstateAllocRLP
  env : SubstateEnvRLP
  message : SubstateMessageRLP
  result : SubstateResultRLP
deriving DecidableEq

/-- The fields that the three layouts have in common, around their own `Env` and `Message`. -/
abbrev substateFields {ε μ : Type} (env : Codec ε) (message : Codec μ) :
    Fields (SubstateAllocRLP × SubstateAllocRLP × ε × μ × SubstateResultRLP × Unit) :=
  .cons SubstateAllocRLP.codec (.cons SubstateAllocRLP.codec (.cons env (.cons message
    (.cons SubstateResultRLP.codec .nil))))

def LegacySubstateRLP.codec : Codec LegacySubstateRLP :=
  Fields.struct (substateFields LegacySubstateEnvRLP.codec LegacySubstateMessageRLP.codec)
    (fun s => (s.inputAlloc, s.outputAlloc, s.env, s.message, s.result, ()))
    (fun (inputAlloc, outputAlloc, env, message, result, ()) => ⟨inputAlloc, outputAlloc, env, message, result⟩)
    fun _ => rfl

def BerlinSubstateRLP.codec : Codec BerlinSubstateRLP :=
  Fields.struct (substateFields LegacySubstateEnvRLP.codec BerlinSubstateMessageRLP.codec)
    (fun s => (s.inputAlloc, s.outputAlloc, s.env, s.message, s.result, ()))
    (fun (inputAlloc, outputAlloc, env, message, result, ()) => ⟨inputAlloc, outputAlloc, env, message, result⟩)
    fun _ => rfl

def SubstateRLP.codec : Codec SubstateRLP :=
  Fields.struct (substateFields SubstateEnvRLP.codec SubstateMessageRLP.codec)
    (fun s => (s.inputAlloc, s.outputAlloc, s.env, s.message, s.result, ()))
    (fun (inputAlloc, outputAlloc, env, message, result, ()) => ⟨inputAlloc, outputAlloc, env, message, result⟩)
    fun _ => rfl

def newSubstateRLP (keccak : Bytes → Hash) (order : List Uint64) (substate : Substate) : Except Panic SubstateRLP := do
  let inputAlloc ← newSubstateAllocRLP keccak substate.inputAlloc
  let outputAlloc ← newSubstateAllocRLP keccak substate.outputAlloc
  .ok { inputAlloc := inputAlloc
        outputAlloc := outputAlloc
        env := newSubstateEnvRLP order substate.env
        message := newSubstateMessageRLP keccak substate.message
        result := newSubstateResultRLP substate.result }

/-- An allocation that a decoder is filling: its account pointers may be nil. -/
structure AllocVar where
  addresses : List Address
  accounts : List (Option SubstateAccountRLP)
deriving DecidableEq

structure SubstateVar where
  inputAlloc : AllocVar
  outputAlloc : AllocVar
  env : Option SubstateEnvRLP
  message : Option SubstateMessageRLP
  result : Option SubstateResultRLP
deriving DecidableEq

def SubstateAllocRLP.var (alloc : SubstateAllocRLP) : AllocVar := ⟨alloc.addresses, alloc.accounts.map some⟩

def SubstateRLP.var (s : SubstateRLP) : SubstateVar where
  inputAlloc := s.inputAlloc.var
  outputAlloc := s.outputAlloc.var
  env := some s.env
  message := some s.message
  result := some s.result

def SubstateVar.zero : SubstateVar := ⟨⟨[], []⟩, ⟨[], []⟩, none, none, none⟩

def AllocVar.filler : Filler AllocVar :=
  .struct [.sliceField addressCodec id 0 fun addresses v => { v with addresses := addresses },
    .sliceField SubstateAccountRLP.codec some none fun accounts v => { v with accounts := accounts }]

def SubstateVar.filler : Filler SubstateVar :=
  .struct [.field SubstateVar.inputAlloc (fun alloc v => { v with inputAlloc := alloc }) AllocVar.filler,
    .field SubstateVar.outputAlloc (fun alloc v => { v with outputAlloc := alloc }) AllocVar.filler,
    .pointer SubstateEnvRLP.codec fun env v => { v with env := some env },
    .pointer SubstateMessageRLP.codec fun message v => { v with message := some message },
    .pointer SubstateResultRLP.codec fun result v => { v with result := some result }]

def SubstateVar.setLegacyRLP (v : SubstateVar) (lsubstateRLP : LegacySubstateRLP) : SubstateVar :=
  { v with
    inputAlloc := lsubstateRLP.inputAlloc.var
    outputAlloc := lsubstateRLP.outputAlloc.var
    env := some (SubstateEnvRLP.zero.setLegacyRLP lsubstateRLP.env)
    message := some (SubstateMessageRLP.zero.setLegacyRLP lsubstateRLP.message)
    result := some lsubstateRLP.result }

def SubstateVar.setBerlinRLP (v : SubstateVar) (bsubstateRLP : BerlinSubstateRLP) : SubstateVar :=
  { v with
    inputAlloc := bsubstateRLP.inputAlloc.var
    outputAlloc := bsubstateRLP.outputAlloc.var
    env := some (SubstateEnvRLP.zero.setLegacyRLP bsubstateRLP.env)
    message := some (SubstateMessageRLP.zero.setBerlinRLP bsubstateRLP.message)
    result := some bsubstateRLP.result }

def SubstateAccount.setRLP (getCode : Hash → Except Panic Bytes) (saRLP : SubstateAccountRLP) :
    Except Panic SubstateAccount := do
  let code ← getCode saRLP.codeHash
  .ok { nonce := saRLP.nonce
        balance := saRLP.balance
        code := code
        storage := .ofPairs saRLP.storage }

def setAccounts (getCode : Hash → Except Panic Bytes) :
    List Address → List (Option SubstateAccountRLP) → SubstateAlloc → Except Panic SubstateAlloc
  | [], _, alloc => .ok alloc
  | _ :: _, [], _ => .error .indexOutOfRange
  | _ :: _, none :: _, _ => .error .nilDereference
  | addr :: addresses, some saRLP :: accounts, alloc => do
    let sa ← SubstateAccount.setRLP getCode saRLP
    setAccounts getCode addresses accounts (alloc.set addr (some sa))

def SubstateAlloc.setRLP (getCode : Hash → Except Panic Bytes) (allocRLP : AllocVar) : Except Panic SubstateAlloc :=
  setAccounts getCode allocRLP.addresses allocRLP.accounts .empty

def deref {α : Type} : Option α → Except Panic α
  | none => .error .nilDereference
  | some a => .ok a

def Substate.setRLP (getCode : Hash → Except Panic Bytes) (substateRLP : SubstateVar) : Except Panic Substate := do
  let inputAlloc ← SubstateAlloc.setRLP getCode substateRLP.inputAlloc
  let outputAlloc ← SubstateAlloc.setRLP getCode substateRLP.outputAlloc
  let env ← deref substateRLP.env
  let messageRLP ← deref substateRLP.message
  let message ← SubstateMessage.setRLP getCode messageRLP
  let result ← deref substateRLP.result
  .ok { inputAlloc := inputAlloc
        outputAlloc := outputAlloc
        env := SubstateEnv.setRLP env
        message := message
        result := SubstateResult.setRLP result }

end IDWDetector
