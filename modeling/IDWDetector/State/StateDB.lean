import IDWDetector.Research.Substate
import IDWDetector.State.Object

namespace IDWDetector.State

/-- The journal entries of core/state/journal.go. The preimage and access-list
    entries are left out: no modelled operation writes them. -/
inductive JournalEntry
  | createObjectChange (account : Address)
  | resetObjectChange (prev : StateObject)
  | suicideChange (account : Address) (prev : Bool) (prevbalance : Int)
  | balanceChange (account : Address) (prev : Int)
  | nonceChange (account : Address) (prev : Uint64)
  | storageChange (account : Address) (key prevalue : Hash)
  | codeChange (account : Address) (prevcode : Bytes)
  | refundChange (prev : Uint64)
  | addLogChange (txhash : Hash)
  | touchChange (account : Address)
deriving DecidableEq

/-- `dirtied`: a reset object does not make its address dirty. -/
def JournalEntry.dirtied : JournalEntry → Option Address
  | .createObjectChange account | .suicideChange account _ _ | .balanceChange account _
  | .nonceChange account _ | .storageChange account _ _ | .codeChange account _
  | .touchChange account => some account
  | .resetObjectChange _ | .refundChange _ | .addLogChange _ => none

structure Journal where
  entries : List JournalEntry
  dirties : Go.Map Address Int
deriving DecidableEq

namespace Journal

def new : Journal := ⟨[], .empty⟩

def dirty (j : Journal) (addr : Address) : Journal :=
  { j with dirties := j.dirties.set addr (j.dirties.getD addr 0 + 1) }

def append (j : Journal) (entry : JournalEntry) : Journal :=
  let j := { j with entries := entry :: j.entries }
  match entry.dirtied with
  | some addr => j.dirty addr
  | none => j

/-- The bookkeeping of `revert` for one entry that was undone. -/
def undirty (j : Journal) (entry : JournalEntry) : Journal :=
  match entry.dirtied with
  | none => j
  | some addr =>
    let count := j.dirties.getD addr 0 - 1
    { j with dirties := if count = 0 then j.dirties.delete addr else j.dirties.set addr count }

def length (j : Journal) : Nat := j.entries.length

end Journal

structure Revision where
  id : Nat
  journalIndex : Nat
deriving DecidableEq

structure StateDB where
  trie : Go.Map Address StateAccount
  stateObjects : Go.Map Address StateObject
  stateObjectsPending : Finset Address
  stateObjectsDirty : Finset Address
  refund : Uint64
  thash : Hash
  txIndex : Int
  logs : Go.Map Hash (List Log)
  logSize : Nat
  journal : Journal
  validRevisions : List Revision
  nextRevisionId : Nat
  researchPreAlloc : SubstateAlloc
  researchPostAlloc : SubstateAlloc
  researchBlockHashes : Go.Map Uint64 Hash
deriving DecidableEq

def ripemd : Address := 3

namespace StateDB

def new (trie : Go.Map Address StateAccount) : StateDB where
  trie := trie
  stateObjects := .empty
  stateObjectsPending := ∅
  stateObjectsDirty := ∅
  refund := 0
  thash := 0
  txIndex := 0
  logs := .empty
  logSize := 0
  journal := .new
  validRevisions := []
  nextRevisionId := 0
  researchPreAlloc := .empty
  researchPostAlloc := .empty
  researchBlockHashes := .empty

variable (s : StateDB) (addr : Address)

def append (entry : JournalEntry) : StateDB :=
  { s with journal := s.journal.append entry }

def setStateObject (object : StateObject) : StateDB :=
  { s with stateObjects := s.stateObjects.set object.address object }

/-- What `getDeletedStateObject` finds, before it is inserted into the live set. -/
def peek : Option StateObject :=
  match s.stateObjects.lookup addr with
  | some obj => some obj
  | none => (s.trie.lookup addr).map (newObject addr)

def getDeletedStateObject : Option StateObject × StateDB :=
  match s.stateObjects.lookup addr with
  | some obj => (some obj, s)
  | none =>
    match s.trie.lookup addr with
    | none => (none, s)
    | some data =>
      let obj := newObject addr data
      (some obj, s.setStateObject obj)

/-- The first lookup of an address in a transaction fixes its entry in `ResearchPreAlloc`. -/
def recordPre (account : Option SubstateAccount) : StateDB :=
  match s.researchPreAlloc.lookup addr with
  | some _ => s
  | none => { s with researchPreAlloc := s.researchPreAlloc.set addr account }

def getStateObject : Option StateObject × StateDB :=
  match s.getDeletedStateObject addr with
  | (some obj, s) =>
    if obj.deleted then (none, s.recordPre addr none)
    else (some obj, s.recordPre addr (some (newSubstateAccount obj.nonce obj.balance obj.code)))
  | (none, s) => (none, s.recordPre addr none)

/-- `createObject`: the second result is the previous object unless it was deleted. -/
def createObject : StateObject × Option StateObject × StateDB :=
  let newobj := newObject addr .zero
  match s.getDeletedStateObject addr with
  | (none, s) => (newobj, none, (s.append (.createObjectChange addr)).setStateObject newobj)
  | (some prev, s) =>
    (newobj, if prev.deleted then none else some prev,
      (s.append (.resetObjectChange prev)).setStateObject newobj)

def getOrNewStateObject : StateObject × StateDB :=
  match s.getStateObject addr with
  | (some obj, s) => (obj, s)
  | (none, s) =>
    let (obj, _, s) := s.createObject addr
    (obj, s)

def exist : Bool × StateDB :=
  let (obj, s) := s.getStateObject addr
  (obj.isSome, s)

def empty (keccak : Bytes → Hash) (s : StateDB) (addr : Address) : Bool × StateDB :=
  match s.getStateObject addr with
  | (none, s) => (true, s)
  | (some so, s) => (so.empty keccak, s)

def getBalance : Int × StateDB :=
  match s.getStateObject addr with
  | (none, s) => (0, s)
  | (some obj, s) => (obj.balance, s)

def getNonce : Uint64 × StateDB :=
  match s.getStateObject addr with
  | (none, s) => (0, s)
  | (some obj, s) => (obj.nonce, s)

def getCode : Bytes × StateDB :=
  match s.getStateObject addr with
  | (none, s) => ([], s)
  | (some obj, s) => (obj.code, s)

def getCodeHash (keccak : Bytes → Hash) (s : StateDB) (addr : Address) : Hash × StateDB :=
  match s.getStateObject addr with
  | (none, s) => (0, s)
  | (some obj, s) => (obj.codeHash keccak, s)

def getState (key : Hash) : Hash × StateDB :=
  match s.getStateObject addr with
  | (none, s) => (0, s)
  | (some obj, s) =>
    let (value, obj) := obj.getState key
    (value, s.setStateObject obj)

def getCommittedState (key : Hash) : Hash × StateDB :=
  match s.getStateObject addr with
  | (none, s) => (0, s)
  | (some obj, s) =>
    let (value, obj) := obj.getCommittedState key
    (value, s.setStateObject obj)

/-- `stateObject.touch`; RIPEMD stays dirty even when the touch is reverted. -/
def touch (obj : StateObject) : StateDB :=
  let s := s.append (.touchChange obj.address)
  if obj.address = ripemd then { s with journal := s.journal.dirty obj.address } else s

def objectSetBalance (obj : StateObject) (amount : Int) : StateDB :=
  (s.append (.balanceChange obj.address obj.balance)).setStateObject (obj.setBalance amount)

def addBalance (keccak : Bytes → Hash) (s : StateDB) (addr : Address) (amount : Int) : StateDB :=
  let (obj, s) := s.getOrNewStateObject addr
  if amount = 0 then
    if obj.empty keccak then s.touch obj else s
  else s.objectSetBalance obj (obj.balance + amount)

def subBalance (amount : Int) : StateDB :=
  let (obj, s) := s.getOrNewStateObject addr
  if amount = 0 then s else s.objectSetBalance obj (obj.balance - amount)

def setBalance (amount : Int) : StateDB :=
  let (obj, s) := s.getOrNewStateObject addr
  s.objectSetBalance obj amount

def setNonce (nonce : Uint64) : StateDB :=
  let (obj, s) := s.getOrNewStateObject addr
  (s.append (.nonceChange obj.address obj.nonce)).setStateObject (obj.setNonce nonce)

def setCode (code : Bytes) : StateDB :=
  let (obj, s) := s.getOrNewStateObject addr
  (s.append (.codeChange obj.address obj.code)).setStateObject (obj.setCode code)

/-- `SetState` reads the slot first, so a write marks it as touched, too. -/
def setState (key value : Hash) : StateDB :=
  let (obj, s) := s.getOrNewStateObject addr
  let (prev, obj) := obj.getState key
  if prev = value then s.setStateObject obj
  else (s.append (.storageChange obj.address key prev)).setStateObject (obj.setState key value)

def suicide : Bool × StateDB :=
  match s.getStateObject addr with
  | (none, s) => (false, s)
  | (some obj, s) =>
    (true, (s.append (.suicideChange addr obj.suicided obj.balance)).setStateObject
      (obj.markSuicided.setBalance 0))

/-- `CreateAccount` looks the address up without recording it. -/
def createAccount : StateDB :=
  match s.createObject addr with
  | (_, none, s) => s
  | (newObj, some prev, s) => s.setStateObject (newObj.setBalance prev.balance)

def addLog (log : Log) : StateDB :=
  let s := s.append (.addLogChange s.thash)
  let log := { log with txHash := s.thash, txIndex := s.txIndex, index := s.logSize }
  { s with
    logs := s.logs.set s.thash (s.logs.getD s.thash [] ++ [log])
    logSize := s.logSize + 1 }

def getLogs (hash : Hash) : List Log := s.logs.getD hash []

def addRefund (gas : Uint64) : StateDB :=
  { s.append (.refundChange s.refund) with refund := s.refund + gas }

def subRefund (gas : Uint64) : Except Panic StateDB :=
  if s.refund < gas then .error .negativeRefund
  else .ok { s.append (.refundChange s.refund) with refund := s.refund - gas }

def snapshot : Nat × StateDB :=
  (s.nextRevisionId, { s with
    nextRevisionId := s.nextRevisionId + 1
    validRevisions := s.validRevisions ++ [⟨s.nextRevisionId, s.journal.length⟩] })

/-- A write through the object that `getStateObject` returns, which is not nil-checked. -/
def modifyObject (body : StateObject → StateObject) :
    Except Panic StateDB :=
  match s.getStateObject addr with
  | (none, _) => .error .nilDereference
  | (some obj, s) => .ok (s.setStateObject (body obj))

def revertEntry : JournalEntry → Except Panic StateDB
  | .createObjectChange account => .ok { s with
      stateObjects := s.stateObjects.delete account
      stateObjectsDirty := s.stateObjectsDirty.erase account }
  | .resetObjectChange prev => .ok (s.setStateObject prev)
  | .suicideChange account prev prevbalance =>
    match s.getStateObject account with
    | (none, s) => .ok s
    | (some obj, s) => .ok (s.setStateObject { obj with suicided := prev, balance := prevbalance })
  | .balanceChange account prev => s.modifyObject account (·.setBalance prev)
  | .nonceChange account prev => s.modifyObject account (·.setNonce prev)
  | .storageChange account key prevalue => s.modifyObject account (·.setState key prevalue)
  | .codeChange account prevcode => s.modifyObject account (·.setCode prevcode)
  | .refundChange prev => .ok { s with refund := prev }
  | .addLogChange txhash =>
    let logs := s.logs.getD txhash []
    .ok { s with
      logs := if logs.length = 1 then s.logs.delete txhash else s.logs.set txhash logs.dropLast
      logSize := s.logSize - 1 }
  | .touchChange _ => .ok s

/-- The loop of `journal.revert` over the entries, newest first; each is dropped once it is undone. -/
def revertEntries (snapshot : Nat) : List JournalEntry → StateDB → Except Panic StateDB
  | [], s => .ok s
  | entry :: rest, s =>
    if snapshot ≤ rest.length then do
      let s ← s.revertEntry entry
      revertEntries snapshot rest
        { s with journal := { s.journal.undirty entry with entries := rest } }
    else .ok s

def revertJournal (snapshot : Nat) : Except Panic StateDB :=
  revertEntries snapshot s.journal.entries s

/-- `sort.Search` finds the first revision whose id is at least `revid`. -/
def revertToSnapshot (revid : Nat) : Except Panic StateDB :=
  let idx := s.validRevisions.findIdx (fun revision => decide (revid ≤ revision.id))
  match s.validRevisions[idx]? with
  | none => .error (.revisionNotFound revid)
  | some revision =>
    if revision.id ≠ revid then .error (.revisionNotFound revid)
    else do
      let s' ← s.revertJournal revision.journalIndex
      .ok { s' with validRevisions := s.validRevisions.take idx }

end StateDB

end IDWDetector.State
