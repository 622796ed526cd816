import IDWDetector.Abi.Unpack

namespace IDWDetector.Abi

open Rlp (wordBytes)

/-- How `Pack` ends without the bytes: with one of its errors, or in a panic of package reflect. -/
inductive PackFailure
  | countMismatch (got want : Nat)
  | methodNotFound (name : String)
  | cannotUse
  | notBytes
  | panicked
deriving DecidableEq

/-- `reflect.Kind`; that of an integer has its sign and its width. -/
inductive Kind
  | invalid
  | bool
  | integer (signed : Bool) (size : Nat)
  | pointer
  | string
  | slice
  | array
  | struct
deriving DecidableEq

def AbiType.kind : AbiType → Kind
  | .int size => if machineSize size then .integer true size else .pointer
  | .uint size => if machineSize size then .integer false size else .pointer
  | .bool => .bool
  | .string => .string
  | .slice _ => .slice
  | .array _ _ => .array
  | .tuple _ => .struct
  | .address => .array
  | .fixedBytes _ => .array
  | .bytes => .slice
  | .function => .array

namespace Value

def kind : Value → Kind
  | .machine signed size _ => .integer signed size
  | .big _ => .pointer
  | .bool _ => .bool
  | .string _ => .string
  | .slice _ => .slice
  | .array _ => .array
  | .tuple _ => .struct
  | .address _ => .array
  | .fixedBytes _ => .array
  | .bytes _ => .slice
  | .function _ => .array

def elements : Value → List Value
  | .slice values => values
  | .array values => values
  | .address addr => (wordBytes 20 addr.toNat).map fun byte => .machine false 8 byte.toNat
  | .fixedBytes content => content.map fun byte => .machine false 8 byte.toNat
  | .bytes content => content.map fun byte => .machine false 8 byte.toNat
  | .function content => content.map fun byte => .machine false 8 byte.toNat
  | _ => []

def toBytes (value : Value) : Option Bytes :=
  value.elements.mapM fun element =>
    match element with
    | .machine false 8 byte => some (BitVec.ofInt 8 byte)
    | _ => none

def integer : Value → Option Int
  | .machine _ _ value => some value
  | .big value => some value
  | _ => none

end Value

/-- Nil is the zero `reflect.Value`. -/
def kindOf : Option Value → Kind
  | none => .invalid
  | some value => value.kind

/-- An array has a size. `Type` panics on the zero value; the kind of the elements is that of the first one. -/
def sliceTypeCheck (size : Option Nat) (elem : AbiType) (val : Option Value) : Except PackFailure Unit :=
  match val with
  | none => .error .panicked
  | some value =>
    if value.kind ≠ .slice ∧ value.kind ≠ .array then .error .cannotUse
    else if size.any (· ≠ value.elements.length) then .error .cannotUse
    else
      match value.elements with
      | [] => .ok ()
      | first :: _ =>
        match elem with
        | .slice inner => sliceTypeCheck none inner (some first)
        | .array inner_size inner => sliceTypeCheck (some inner_size) inner (some first)
        | elem => if first.kind ≠ elem.kind then .error .cannotUse else .ok ()

def typeCheck (t : AbiType) (value : Option Value) : Except PackFailure Unit :=
  match t with
  | .slice elem => sliceTypeCheck none elem value
  | .array size elem => sliceTypeCheck (some size) elem value
  | .fixedBytes size =>
    if kindOf value ≠ .array then .error .cannotUse
    else if (value.map fun value => value.elements.length) ≠ some size then .error .cannotUse
    else .ok ()
  | t => if kindOf value ≠ t.kind then .error .cannotUse else .ok ()

/-- `math.U256Bytes`: the number modulo 2^256. -/
def packNum (number : Int) : Bytes := wordBytes 32 (number % 2 ^ 256).toNat

def leftPadBytes (bytes : Bytes) (length : Nat) : Bytes := List.replicate (length - bytes.length) 0 ++ bytes

def rightPadBytes (bytes : Bytes) (length : Nat) : Bytes := bytes ++ List.replicate (length - bytes.length) 0

def packBytesSlice (bytes : Bytes) : Bytes :=
  packNum bytes.length ++ rightPadBytes bytes ((bytes.length + 31) / 32 * 32)

def packElement (t : AbiType) (value : Value) : Except PackFailure Bytes :=
  match t with
  | .bool =>
    match value with
    | .bool true => .ok (packNum 1)
    | .bool false => .ok (packNum 0)
    | _ => .error .panicked
  | .string =>
    match value with
    | .string bytes => .ok (packBytesSlice bytes)
    | _ => .error .panicked
  | .address =>
    match value.toBytes with
    | some bytes => .ok (leftPadBytes bytes 32)
    | none => .error .panicked
  | .bytes =>
    match value.toBytes with
    | some bytes => .ok (packBytesSlice bytes)
    | none => .error .notBytes
  | .fixedBytes _ =>
    match value.toBytes with
    | some bytes => .ok (rightPadBytes bytes 32)
    | none => .error .panicked
  | .function =>
    match value.toBytes with
    | some bytes => .ok (rightPadBytes bytes 32)
    | none => .error .panicked
  | _ =>
    match value.integer with
    | some number => .ok (packNum number)
    | none => .error .panicked

def headTail : Nat → List (Bool × Bytes) → Bytes × Bytes
  | _, [] => ([], [])
  | offset, (false, packed) :: rest =>
    let later := headTail offset rest
    (packed ++ later.1, later.2)
  | offset, (true, packed) :: rest =>
    let later := headTail (offset + packed.length) rest
    (packNum offset ++ later.1, packed ++ later.2)

def assemble (offset : Nat) (packed : List (Bool × Bytes)) : Bytes :=
  (headTail offset packed).1 ++ (headTail offset packed).2

mutual

def pack (t : AbiType) (value : Option Value) : Except PackFailure Bytes := do
  typeCheck t value
  match value with
  | none => .error .panicked
  | some value =>
    match t with
    | .slice elem =>
      let packed ← value.elements.mapM fun element => pack elem (some element)
      .ok (packNum packed.length ++
        assemble (getTypeSize elem * packed.length) (packed.map fun bytes => (isDynamicType elem, bytes)))
    | .array _ elem =>
      let packed ← value.elements.mapM fun element => pack elem (some element)
      .ok (assemble (getTypeSize elem * packed.length) (packed.map fun bytes => (isDynamicType elem, bytes)))
    | .tuple elems =>
      match value with
      | .tuple fields =>
        let packed ← packAll elems (fields.map some)
        .ok (assemble (totalSize elems) ((elems.map isDynamicType).zip packed))
      | _ => .error .panicked
    | t => packElement t value

def packAll (types : List AbiType) (values : List (Option Value)) : Except PackFailure (List Bytes) :=
  match types, values with
  | [], _ => .ok []
  | _ :: _, [] => .error .cannotUse
  | t :: types, value :: values => do
    let bytes ← pack t value
    let rest ← packAll types values
    .ok (bytes :: rest)

end

def packArguments (types : List AbiType) (args : List (Option Value)) : Except PackFailure Bytes :=
  if args.length ≠ types.length then .error (.countMismatch args.length types.length)
  else do
    let packed ← packAll types args
    .ok (assemble (totalSize types) ((types.map isDynamicType).zip packed))

def ABI.pack (abi : ABI) (name : String) (args : List (Option Value)) : Except PackFailure Bytes :=
  match abi.method name with
  | none => .error (.methodNotFound name)
  | some method => do
    let arguments ← packArguments method.inputs args
    .ok (method.id ++ arguments)

end IDWDetector.Abi
