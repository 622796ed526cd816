import IDWDetector.Rlp.Item

namespace IDWDetector

abbrev Byte := BitVec 8
abbrev Bytes := List Byte
abbrev Uint64 := BitVec 64

/-- `common.Address`, twenty bytes. -/
abbrev Address := BitVec 160

instance : LawfulBEq Address := inferInstance

/-- `common.Hash`, thirty-two bytes. -/
abbrev Hash := BitVec 256

theorem address_width : 160 = 8 * 20 := rfl

theorem hash_width : 256 = 8 * 32 := rfl

theorem bloom_width : 2048 = 8 * 256 := rfl

/-- The Keccak-256 hash of the empty byte string. -/
def emptyCodeHash : Hash := 0xc5d2460186f7233c927e7db2dcc703c0e500b653ca82273b7bfad8045d85a470

inductive KeyError
  | invalidLength (length : Nat)
  | invalidPrefix (bytes : Bytes)
deriving DecidableEq, Repr

/-- The ways in which the modelled Go functions stop without returning. -/
inductive Panic
  | nilDereference
  | nilMapWrite
  | indexOutOfRange
  | typeAssertion
  | revisionNotFound (revid : Nat)
  | negativeRefund
  | gasPoolOverflow
  | missingSubstate (block tx : Uint64)
  | missingCode (codeHash : Hash)
  | undecodable (block tx : Uint64) (err : Rlp.Error)
  | unencodable (block tx : Uint64) (err : Rlp.Error)
  | invalidSubstateKey (block : Uint64) (err : KeyError)
  | foreignSubstate (block other : Uint64)
  | emptyDraw
  | zeroValue
deriving DecidableEq, Repr

/-- `types.Log`: the consensus fields, the block's number, the fields that `AddLog` fills in, and
    those of a mined block. -/
structure Log where
  address : Address
  topics : List Hash
  data : Bytes
  blockNumber : Uint64 := 0
  txHash : Hash := 0
  txIndex : Int := 0
  blockHash : Hash := 0
  index : Nat := 0
  removed : Bool := false
deriving DecidableEq

end IDWDetector
