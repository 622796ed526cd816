import IDWDetector.Common.Types
import Mathlib.Data.List.Nodup

namespace IDWDetector.Abi

/-- `abi.Type` of the arguments that contracts declare: integers and byte arrays with their sizes, `size` elements of
    a type, and structures. -/
inductive AbiType
  | int (size : Nat)
  | uint (size : Nat)
  | bool
  | string
  | slice (elem : AbiType)
  | array (size : Nat) (elem : AbiType)
  | tuple (elems : List AbiType)
  | address
  | fixedBytes (size : { size : Nat // 0 < size ∧ size ≤ 32 })
  | bytes
  | function

/-- What the decoder returns: integers of one of the four machine widths, all others as `*big.Int`, and the values of
    the other types. -/
inductive Value
  | machine (signed : Bool) (size : Nat) (value : Int)
  | big (value : Int)
  | bool (value : Bool)
  | string (bytes : Bytes)
  | slice (values : List Value)
  | array (values : List Value)
  | tuple (values : List Value)
  | address (addr : Address)
  | fixedBytes (bytes : Bytes)
  | bytes (bytes : Bytes)
  | function (bytes : Bytes)

def machineSize (size : Nat) : Bool := size = 8 || size = 16 || size = 32 || size = 64

mutual

def isDynamicType : AbiType → Bool
  | .string => true
  | .bytes => true
  | .slice _ => true
  | .array _ elem => isDynamicType elem
  | .tuple elems => anyDynamic elems
  | _ => false

def anyDynamic : List AbiType → Bool
  | [] => false
  | elem :: rest => isDynamicType elem || anyDynamic rest

end

mutual

def getTypeSize : AbiType → Nat
  | .array size elem => if isDynamicType elem then 32 else size * getTypeSize elem
  | .tuple elems => if anyDynamic elems then 32 else totalSize elems
  | _ => 32

def totalSize : List AbiType → Nat
  | [] => 0
  | elem :: rest => getTypeSize elem + totalSize rest

end

/-- The words that a value takes before the next one: static arrays and tuples are coded in place. -/
def headWords : AbiType → Nat
  | .array size elem => if isDynamicType elem then 1 else getTypeSize (.array size elem) / 32
  | .tuple elems => if anyDynamic elems then 1 else getTypeSize (.tuple elems) / 32
  | _ => 1

inductive StateMutability
  | pure
  | view
  | nonpayable
  | payable
  | unspecified
deriving DecidableEq

/-- `abi.Method`: its name, the first four bytes of the hash of its signature, and the types of its inputs, which a
    slice holds in memory. -/
structure Method where
  name : String
  id : Bytes
  inputs : List AbiType
  stateMutability : StateMutability := .nonpayable
  payable : Bool := false
  named : name ≠ "" := by decide
  length_id : id.length = 4 := by decide
  length_inputs : inputs.length < 2 ^ 48 := by decide

/-- The methods of a contract, in an order in which `range` yields them. -/
structure ABI where
  methods : List Method
  names : (methods.map Method.name).Nodup
  ids : (methods.map Method.id).Nodup

namespace ABI

variable (abi : ABI)

def methodById (sigdata : Bytes) : Option Method :=
  if sigdata.length < 4 then none else abi.methods.find? fun method => method.id = sigdata.take 4

def method (name : String) : Option Method := abi.methods.find? fun method => method.name = name

theorem method_eq_some_iff {name : String} {method : Method} :
    abi.method name = some method ↔ method ∈ abi.methods ∧ method.name = name := by
  constructor
  · intro found
    exact ⟨List.mem_of_find?_eq_some found, by simpa using List.find?_some found⟩
  · rintro ⟨member, rfl⟩
    obtain ⟨other, found⟩ := Option.isSome_iff_exists.mp
      (List.find?_isSome.mpr ⟨method, member, decide_eq_true rfl⟩ : (abi.method method.name).isSome)
    have same := List.inj_on_of_nodup_map abi.names (List.mem_of_find?_eq_some found) member
      (by simpa using List.find?_some found)
    rw [ABI.method, found, same]

theorem methodById_mem {sigdata : Bytes} {method : Method} (found : abi.methodById sigdata = some method) :
    method ∈ abi.methods := by
  unfold methodById at found
  split at found
  · cases found
  · exact List.mem_of_find?_eq_some found

end ABI

end IDWDetector.Abi
