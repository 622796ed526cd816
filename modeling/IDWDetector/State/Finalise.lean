import IDWDetector.State.StateDB

namespace IDWDetector.State

namespace StateDB

def prepare (s : StateDB) (thash : Hash) (ti : Int) : StateDB :=
  { s with
    thash := thash
    txIndex := ti
    researchPreAlloc := .empty
    researchPostAlloc := .empty
    researchBlockHashes := .empty
    stateObjects := s.stateObjects.mapValues fun _ obj => { obj with researchTouched := ∅ } }

def clearJournalAndRefund (s : StateDB) : StateDB :=
  let s := if 0 < s.journal.entries.length then { s with journal := .new, refund := 0 } else s
  { s with validRevisions := [] }

def slotValues (keys : Finset Hash) (value : Hash → Hash) : Go.Map Hash Hash :=
  Go.Map.empty.overwrite keys fun key => some (value key)

def preAccount (sa : SubstateAccount) (obj : StateObject) : SubstateAccount :=
  { sa with storage := sa.storage.overwrite obj.researchTouched fun key => some (obj.committed key) }

def postAccount (obj : StateObject) : SubstateAccount :=
  { newSubstateAccount obj.nonce obj.balance obj.code with
    storage := slotValues obj.researchTouched obj.current }

/-- The first loop of `Finalise`: each recorded account gets the committed values
    of the slots touched on the object now live at its address. -/
def recordStorage (s : StateDB) : Except Panic StateDB :=
  if Go.Map.anyKey s.researchPreAlloc.keys fun addr =>
      (s.researchPreAlloc.lookup addr).join.isSome ∧ s.stateObjects.lookup addr = none then
    .error .nilDereference
  else
    let pre : SubstateAlloc := s.researchPreAlloc.filterMap fun addr sa =>
      sa.bind fun sa => (s.stateObjects.lookup addr).map fun obj => some (preAccount sa obj)
    .ok { s with
      researchPreAlloc := pre
      researchPostAlloc := s.researchPostAlloc.overwrite pre.keys pre.lookup
      stateObjects := s.stateObjects.mapValues fun addr obj =>
        if (s.researchPreAlloc.lookup addr).join.isSome then obj.cacheCommitted obj.researchTouched
        else obj }

/-- The addresses the second loop of `Finalise` handles; RIPEMD may be dirty
    without having an object. -/
def dirtyObjects (s : StateDB) : Finset Address :=
  s.journal.dirties.keys.filter fun addr => (s.stateObjects.lookup addr).isSome = true

variable (keccak : Bytes → Hash) (deleteEmptyObjects : Bool) (s : StateDB)

def deletes (obj : StateObject) : Bool :=
  obj.suicided || (deleteEmptyObjects && obj.empty keccak)

def finaliseDirty : StateDB :=
  { s with
    researchPostAlloc := s.researchPostAlloc.overwrite s.dirtyObjects fun addr =>
      (s.stateObjects.lookup addr).bind fun obj =>
        if deletes keccak deleteEmptyObjects obj then none else some (some (postAccount obj))
    stateObjects := s.stateObjects.mapValues fun addr obj =>
      if addr ∈ s.dirtyObjects then
        if deletes keccak deleteEmptyObjects obj then { obj with deleted := true }
        else (obj.cacheCommitted (obj.researchTouched.filter fun key =>
          obj.dirtyStorage.lookup key = none)).finalise
      else obj
    stateObjectsPending := s.stateObjectsPending ∪ s.dirtyObjects
    stateObjectsDirty := s.stateObjectsDirty ∪ s.dirtyObjects }

def finalise : Except Panic StateDB := do
  let s ← s.recordStorage
  .ok (s.finaliseDirty keccak deleteEmptyObjects).clearJournalAndRefund

/-- `IntermediateRoot` after `Finalise`: the pending objects are flushed to the tries. -/
def flushPending : Except Panic StateDB :=
  if Go.Map.anyKey s.stateObjectsPending fun addr => s.stateObjects.lookup addr = none then
    .error .nilDereference
  else
    let objects := s.stateObjects.mapValues fun addr obj =>
      if addr ∈ s.stateObjectsPending ∧ obj.deleted = false then obj.updateTrie else obj
    .ok { s with
      stateObjects := objects
      trie := s.trie.overwrite s.stateObjectsPending fun addr =>
        (objects.lookup addr).bind fun obj => if obj.deleted then none else some obj.account
      stateObjectsPending := ∅ }

def intermediateRoot :
    Except Panic StateDB := do
  let s ← s.finalise keccak deleteEmptyObjects
  s.flushPending

/-- The loop of `Commit` over the dirty objects. Codes and tries are held by content. -/
def commitObjects : Except Panic StateDB :=
  if Go.Map.anyKey s.stateObjectsDirty fun addr => s.stateObjects.lookup addr = none then
    .error .nilDereference
  else
    .ok { s with
      stateObjects := s.stateObjects.mapValues fun addr obj =>
        if addr ∈ s.stateObjectsDirty ∧ obj.deleted = false then obj.updateTrie else obj
      stateObjectsDirty := ∅ }

def commit : Except Panic StateDB := do
  let s ← s.intermediateRoot keccak deleteEmptyObjects
  s.commitObjects

end StateDB

/-- The setters `MakeOffTheChainStateDB` calls for one account, with the slots in
    the order in which `range` yields them. -/
def setAccount (s : StateDB) (addr : Address) (a : SubstateAccount) (slots : List Hash) : StateDB :=
  let s := s.setCode addr a.code
  let s := s.setNonce addr a.nonce
  let s := s.setBalance addr a.balance
  slots.foldl (fun s key => s.setState addr key (a.storage.getD key 0)) s

def setAccounts (alloc : SubstateAlloc) (slots : Address → List Hash) (s : StateDB) :
    List Address → Except Panic StateDB
  | [] => .ok s
  | addr :: rest =>
    match (alloc.lookup addr).join with
    | none => .error .nilDereference
    | some a => setAccounts alloc slots (setAccount s addr a (slots addr)) rest

/-- `NewOffTheChainStateDB` and the loop, committed; `order` and `slots` are the
    orders in which Go iterates the alloc and its storage maps. -/
def makeOffTheChainStateDB (keccak : Bytes → Hash) (alloc : SubstateAlloc)
    (order : List Address) (slots : Address → List Hash) : Except Panic StateDB := do
  let s ← setAccounts alloc slots (StateDB.new .empty) order
  s.commit keccak false

end IDWDetector.State
