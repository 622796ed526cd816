import IDWDetector.Research.SubstateRlp

open Rlp Go

namespace IDWDetector

def stage1SubstatePrefix : Bytes := [0x31, 0x73]

def stage1CodePrefix : Bytes := [0x31, 0x63]

def stage1SubstateKey (block tx : Uint64) : Bytes :=
  stage1SubstatePrefix ++ (wordBytes 8 block.toNat ++ wordBytes 8 tx.toNat)

def decodeStage1SubstateKey (key : Bytes) : Except KeyError (Uint64 × Uint64) :=
  if key.length ≠ stage1SubstatePrefix.length + 8 + 8 then .error (.invalidLength key.length)
  else if key.take 2 ≠ stage1SubstatePrefix then .error (.invalidPrefix (key.take 2))
  else .ok (BitVec.ofNat 64 (bytesNat ((key.drop 2).take 8)), BitVec.ofNat 64 (bytesNat ((key.drop 2).drop 8)))

def stage1SubstateBlockPrefix (block : Uint64) : Bytes := stage1SubstatePrefix ++ wordBytes 8 block.toNat

def stage1CodeKey (codeHash : Hash) : Bytes := stage1CodePrefix ++ wordBytes 32 codeHash.toNat

structure SubstateDB where
  backend : Map Bytes Bytes
deriving DecidableEq

inductive Write
  | put (key value : Bytes)
  | delete (key : Bytes)
deriving DecidableEq

namespace SubstateDB

def write (db : SubstateDB) : Write → SubstateDB
  | .put key value => ⟨db.backend.set key value⟩
  | .delete key => ⟨db.backend.delete key⟩

def writeAll (db : SubstateDB) (writes : List Write) : SubstateDB := writes.foldl write db

section

variable (keccak : Bytes → Hash)

def getCode (db : SubstateDB) (codeHash : Hash) : Except Panic Bytes :=
  if codeHash = keccak [] then .ok []
  else match db.backend.lookup (stage1CodeKey codeHash) with
    | none => .error (.missingCode codeHash)
    | some code => .ok code

def putCode (code : Bytes) : List Write :=
  if code = [] then [] else [.put (stage1CodeKey (keccak code)) code]

end

def hasSubstate (db : SubstateDB) (block tx : Uint64) : Bool :=
  (db.backend.lookup (stage1SubstateKey block tx)).isSome

def decodeLatest (value : Bytes) (substateRLP : SubstateVar) : SubstateVar × Option Rlp.Error :=
  match Rlp.decodeBytes value with
  | .error e => (substateRLP, some e)
  | .ok item => SubstateVar.filler item substateRLP

/-- The attempts as a substate between Berlin and London and as one before Berlin. -/
def decodeOlder (value : Bytes) (substateRLP : SubstateVar) : Except Rlp.Error SubstateVar :=
  match BerlinSubstateRLP.codec.decodeBytes value with
  | .ok berlinRLP => .ok (substateRLP.setBerlinRLP berlinRLP)
  | .error _ =>
    match LegacySubstateRLP.codec.decodeBytes value with
    | .ok legacyRLP => .ok (substateRLP.setLegacyRLP legacyRLP)
    | .error e => .error e

def decodeSubstateRLP (value : Bytes) : Except Rlp.Error SubstateVar :=
  match decodeLatest value .zero with
  | (substateRLP, none) => .ok substateRLP
  | (substateRLP, some _) => decodeOlder value substateRLP

section

variable (keccak : Bytes → Hash)

/-- The body that `GetSubstate` and `GetBlockSubstates` share. -/
def readSubstate (db : SubstateDB) (block tx : Uint64) (value : Bytes) : Except Panic Substate :=
  match decodeSubstateRLP value with
  | .error e => .error (.undecodable block tx e)
  | .ok substateRLP => Substate.setRLP (db.getCode keccak) substateRLP

def getSubstate (db : SubstateDB) (block tx : Uint64) : Except Panic Substate :=
  match db.backend.lookup (stage1SubstateKey block tx) with
  | none => .error (.missingSubstate block tx)
  | some value => db.readSubstate keccak block tx value

structure Iterates (db : SubstateDB) (block : Uint64) (order : List Bytes) : Prop where
  nodup : order.Nodup
  mem_iff : ∀ key, key ∈ order ↔ key ∈ db.backend.keys ∧ stage1SubstateBlockPrefix block <+: key

def collectSubstates (db : SubstateDB) (block : Uint64) :
    List Bytes → Map Uint64 Substate → Except Panic (Map Uint64 Substate)
  | [], txSubstate => .ok txSubstate
  | key :: keys, txSubstate =>
    match decodeStage1SubstateKey key with
    | .error e => .error (.invalidSubstateKey block e)
    | .ok (b, tx) =>
      if block ≠ b then .error (.foreignSubstate block b)
      else do
        let substate ← db.readSubstate keccak block tx (db.backend.getD key [])
        db.collectSubstates block keys (txSubstate.set tx substate)

def getBlockSubstates (db : SubstateDB) (order : List Bytes) (block : Uint64) :
    Except Panic (Map Uint64 Substate) :=
  db.collectSubstates keccak block order .empty

end

end SubstateDB

structure Trace where
  writes : List Write
  panic : Option Panic
deriving DecidableEq

def Trace.andThen (first second : Trace) : Trace :=
  match first.panic with
  | some panic => ⟨first.writes, some panic⟩
  | none => ⟨first.writes ++ second.writes, second.panic⟩

structure RangeOrders where
  inputAlloc : List Address
  outputAlloc : List Address
  blockHashes : List Uint64
deriving DecidableEq

structure RangeOrders.Enumerate (orders : RangeOrders) (substate : Substate) : Prop where
  inputAlloc : Map.Enumerates orders.inputAlloc substate.inputAlloc
  outputAlloc : Map.Enumerates orders.outputAlloc substate.outputAlloc
  blockHashes : Map.Enumerates orders.blockHashes substate.env.blockHashes

namespace SubstateDB

variable (keccak : Bytes → Hash)

def putCodes (alloc : SubstateAlloc) : List Address → Trace
  | [] => ⟨[], none⟩
  | addr :: rest =>
    match alloc.getD addr none with
    | none => ⟨[], some .nilDereference⟩
    | some account => Trace.andThen ⟨putCode keccak account.code, none⟩ (putCodes alloc rest)

def putInitCode (msg : SubstateMessage) : Trace :=
  ⟨if msg.toAddr = none then putCode keccak msg.data else [], none⟩

def putValue (order : List Uint64) (block tx : Uint64) (substate : Substate) : Trace :=
  match newSubstateRLP keccak order substate with
  | .error panic => ⟨[], some panic⟩
  | .ok substateRLP =>
    match SubstateRLP.codec.encodeToBytes substateRLP with
    | .error e => ⟨[], some (.unencodable block tx e)⟩
    | .ok value => ⟨[.put (stage1SubstateKey block tx) value], none⟩

def putSubstate (orders : RangeOrders) (block tx : Uint64) (substate : Substate) : Trace :=
  (putCodes keccak substate.inputAlloc orders.inputAlloc).andThen <|
    (putCodes keccak substate.outputAlloc orders.outputAlloc).andThen <|
      (putInitCode keccak substate.message).andThen <|
        putValue keccak orders.blockHashes block tx substate

def deleteSubstate (block tx : Uint64) : Trace := ⟨[.delete (stage1SubstateKey block tx)], none⟩

end SubstateDB

end IDWDetector
