import IDWDetector.Common.Types
import IDWDetector.Go.Map

namespace IDWDetector.State

abbrev Storage := Go.Map Hash Hash

/-- The leaf of the account trie. A code is held by its content, the storage
    trie by the map from slots to values that its root stands for. -/
structure StateAccount where
  nonce : Uint64
  balance : Int
  code : Bytes
  storage : Storage
deriving DecidableEq

/-- `types.StateAccount{}` as `newObject` completes it. -/
def StateAccount.zero : StateAccount where
  nonce := 0
  balance := 0
  code := []
  storage := .empty

structure StateObject where
  address : Address
  nonce : Uint64
  balance : Int
  code : Bytes
  trie : Storage
  originStorage : Storage
  pendingStorage : Storage
  dirtyStorage : Storage
  suicided : Bool
  deleted : Bool
  researchTouched : Finset Hash
deriving DecidableEq

def newObject (address : Address) (data : StateAccount) : StateObject where
  address := address
  nonce := data.nonce
  balance := data.balance
  code := data.code
  trie := data.storage
  originStorage := .empty
  pendingStorage := .empty
  dirtyStorage := .empty
  suicided := false
  deleted := false
  researchTouched := ∅

namespace StateObject

variable (obj : StateObject)

def codeHash (keccak : Bytes → Hash) (obj : StateObject) : Hash := keccak obj.code

/-- `emptyCodeHash` is the hash of the empty code. -/
def empty (keccak : Bytes → Hash) (obj : StateObject) : Bool :=
  decide (obj.nonce = 0 ∧ obj.balance = 0 ∧ obj.codeHash keccak = keccak [])

/-- The value `GetCommittedState` returns: the pending write, else the cached
    original, else the value in the storage trie. -/
def committed (key : Hash) : Hash :=
  match obj.pendingStorage.lookup key with
  | some value => value
  | none => (obj.originStorage.lookup key).getD (obj.trie.getD key 0)

/-- `GetCommittedState` caches what it had to read from the storage trie. -/
def getCommittedState (key : Hash) : Hash × StateObject :=
  match obj.pendingStorage.lookup key, obj.originStorage.lookup key with
  | some value, _ => (value, obj)
  | none, some value => (value, obj)
  | none, none =>
    let value := obj.trie.getD key 0
    (value, { obj with originStorage := obj.originStorage.set key value })

def getState (key : Hash) : Hash × StateObject :=
  let obj := { obj with researchTouched := insert key obj.researchTouched }
  match obj.dirtyStorage.lookup key with
  | some value => (value, obj)
  | none => obj.getCommittedState key

def current (key : Hash) : Hash :=
  (obj.dirtyStorage.lookup key).getD (obj.committed key)

def setState (key value : Hash) : StateObject :=
  { obj with dirtyStorage := obj.dirtyStorage.set key value }

def setBalance (amount : Int) : StateObject := { obj with balance := amount }

def setNonce (nonce : Uint64) : StateObject := { obj with nonce := nonce }

def setCode (code : Bytes) : StateObject := { obj with code := code }

def markSuicided : StateObject := { obj with suicided := true }

def finalise : StateObject :=
  { obj with
    pendingStorage := obj.pendingStorage.overwrite obj.dirtyStorage.keys obj.dirtyStorage.lookup
    dirtyStorage := .empty
    researchTouched := ∅ }

/-- The slots that `updateTrie` writes: pending ones that differ from the cached original. -/
def changedSlots : Finset Hash :=
  obj.pendingStorage.keys.filter fun key =>
    obj.pendingStorage.getD key 0 ≠ obj.originStorage.getD key 0

/-- `updateTrie` after its call of `finalise`: a zero value is deleted from the trie. -/
def updateTrie : StateObject :=
  let obj := obj.finalise
  { obj with
    originStorage := obj.originStorage.overwrite obj.changedSlots obj.pendingStorage.lookup
    trie := obj.trie.overwrite obj.changedSlots fun key =>
      (obj.pendingStorage.lookup key).filter (· ≠ 0)
    pendingStorage := .empty }

/-- The account `updateStateObject` writes into the account trie. -/
def account : StateAccount where
  nonce := obj.nonce
  balance := obj.balance
  code := obj.code
  storage := obj.trie

/-- `GetCommittedState` of every key of a set, for its effect on the cache. -/
def cacheCommitted (keys : Finset Hash) : StateObject :=
  { obj with
    originStorage := obj.originStorage.overwrite
      (keys.filter fun key => obj.pendingStorage.lookup key = none ∧ obj.originStorage.lookup key = none)
      (fun key => some (obj.trie.getD key 0)) }

end StateObject

end IDWDetector.State
