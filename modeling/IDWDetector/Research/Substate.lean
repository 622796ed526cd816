import IDWDetector.Common.Types
import IDWDetector.Go.Map

namespace IDWDetector

open Go

structure SubstateAccount where
  nonce : Uint64
  balance : Int
  storage : Map Hash Hash
  code : Bytes
deriving DecidableEq

def newSubstateAccount (nonce : Uint64) (balance : Int) (code : Bytes) : SubstateAccount where
  nonce := nonce
  balance := balance
  storage := .empty
  code := code

/-- `SubstateAccount.Equal`; a nil pointer is `none`. -/
def SubstateAccount.equal : Option SubstateAccount → Option SubstateAccount → Bool
  | none, none => true
  | some x, some y =>
    decide (x.nonce = y.nonce ∧ x.balance = y.balance ∧ x.code = y.code ∧
        x.storage.len = y.storage.len) &&
      !Map.anyKey x.storage.keys fun k => y.storage.lookup k ≠ x.storage.lookup k
  | _, _ => false

/-- An entry may be a nil account: the recorder stores one for an address that
    was looked up and did not exist. -/
abbrev SubstateAlloc := Map Address (Option SubstateAccount)

def SubstateAlloc.equal (x y : SubstateAlloc) : Bool :=
  decide (x.len = y.len) &&
    !Map.anyKey x.keys fun addr => (match x.lookup addr, y.lookup addr with
      | some xv, some yv => SubstateAccount.equal xv yv
      | _, _ => false) = false

structure Block where
  coinbase : Address
  difficulty : Int
  gasLimit : Uint64
  number : Nat
  time : Uint64
  baseFee : Option Int

/-- `NumberU64` keeps the low 64 bits of the block number. -/
def Block.numberU64 (b : Block) : Uint64 := BitVec.ofNat 64 b.number

structure SubstateEnv where
  coinbase : Address
  difficulty : Int
  gasLimit : Uint64
  number : Uint64
  timestamp : Uint64
  blockHashes : Map Uint64 Hash
  baseFee : Option Int
deriving DecidableEq

def newSubstateEnv (b : Block) (blockHashes : Map Uint64 Hash) : SubstateEnv where
  coinbase := b.coinbase
  difficulty := b.difficulty
  gasLimit := b.gasLimit
  number := b.numberU64
  timestamp := b.time
  blockHashes := blockHashes.mapValues fun _ bhash => bhash
  baseFee := b.baseFee

structure AccessTuple where
  address : Address
  storageKeys : List Hash
deriving DecidableEq

abbrev AccessList := List AccessTuple

def AccessList.storageKeys (al : AccessList) : Nat := (al.map fun tuple => tuple.storageKeys.length).sum

structure SubstateMessage where
  nonce : Uint64
  checkNonce : Bool
  gasPrice : Int
  gas : Uint64
  fromAddr : Address
  toAddr : Option Address
  value : Int
  data : Bytes
  dataHash : Option Hash := none
  accessList : AccessList
  gasFeeCap : Int
  gasTipCap : Int
deriving DecidableEq

/-- `DataHash` returns the memoized hash when there is one. -/
def SubstateMessage.getDataHash (keccak : Bytes → Hash) (msg : SubstateMessage) : Hash :=
  msg.dataHash.getD (keccak msg.data)

def AccessTuple.equal (xa ya : AccessTuple) : Bool :=
  decide (xa.address = ya.address ∧ xa.storageKeys.length = ya.storageKeys.length) &&
    (xa.storageKeys.zip ya.storageKeys).all fun (xk, yk) => xk == yk

def SubstateMessage.equal (x y : SubstateMessage) : Bool :=
  decide (x.nonce = y.nonce ∧ x.checkNonce = y.checkNonce ∧ x.gasPrice = y.gasPrice ∧ x.gas = y.gas ∧
      x.fromAddr = y.fromAddr ∧ x.toAddr = y.toAddr ∧ x.value = y.value ∧ x.data = y.data ∧
      x.accessList.length = y.accessList.length ∧ x.gasFeeCap = y.gasFeeCap ∧ x.gasTipCap = y.gasTipCap) &&
    (x.accessList.zip y.accessList).all fun (xa, ya) => xa.equal ya

structure SubstateResult where
  status : Uint64
  bloom : BitVec 2048
  logs : List Log
  contractAddress : Address
  gasUsed : Uint64
deriving DecidableEq

def Log.equal (xl yl : Log) : Bool :=
  decide (xl.address = yl.address ∧ xl.topics.length = yl.topics.length ∧ xl.data = yl.data) &&
    (xl.topics.zip yl.topics).all fun (xt, yt) => xt == yt

def SubstateResult.equal (x y : SubstateResult) : Bool :=
  decide (x.status = y.status ∧ x.bloom = y.bloom ∧ x.logs.length = y.logs.length ∧
      x.contractAddress = y.contractAddress ∧ x.gasUsed = y.gasUsed) &&
    (x.logs.zip y.logs).all fun (xl, yl) => xl.equal yl

structure Substate where
  inputAlloc : SubstateAlloc
  outputAlloc : SubstateAlloc
  env : SubstateEnv
  message : SubstateMessage
  result : SubstateResult
deriving DecidableEq

/-- What 256 bits hold. -/
def IsWord (i : Int) : Prop := 0 ≤ i ∧ i < 2 ^ 256

instance (i : Int) : Decidable (IsWord i) := inferInstanceAs (Decidable (_ ∧ _))

structure SubstateAlloc.WellFormed (alloc : SubstateAlloc) : Prop where
  nonNil : ∀ addr, alloc.lookup addr ≠ some none
  balance : ∀ addr account, alloc.lookup addr = some (some account) → IsWord account.balance

structure Substate.WellFormed (s : Substate) : Prop where
  inputAlloc : s.inputAlloc.WellFormed
  outputAlloc : s.outputAlloc.WellFormed
  difficulty : IsWord s.env.difficulty
  baseFee : ∀ fee, s.env.baseFee = some fee → IsWord fee
  gasPrice : IsWord s.message.gasPrice
  value : IsWord s.message.value
  gasFeeCap : IsWord s.message.gasFeeCap
  gasTipCap : IsWord s.message.gasTipCap

theorem SubstateAccount.equal_refl (x : Option SubstateAccount) :
    SubstateAccount.equal x x = true := by
  cases x with
  | none => rfl
  | some x => simp [SubstateAccount.equal, Map.anyKey_eq_false]

theorem SubstateAlloc.equal_refl (x : SubstateAlloc) : SubstateAlloc.equal x x = true := by
  simp only [SubstateAlloc.equal, Bool.and_eq_true, decide_eq_true_eq, Bool.not_eq_true',
    Map.anyKey_eq_false]
  refine ⟨trivial, ?_⟩
  intro addr member
  obtain ⟨account, found⟩ := (x.mem_keys_iff addr).mp member
  simp [found, SubstateAccount.equal_refl]

end IDWDetector
