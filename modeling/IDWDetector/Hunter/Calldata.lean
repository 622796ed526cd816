import IDWDetector.Hunter.Generation

namespace IDWDetector.Hunter

open Vm Abi Go

variable {t : AbiType} {value : Value}

mutual

/-- A value of the type whose integers are in the ranges that the type declares. -/
def InRange : AbiType → Value → Prop
  | .int size, value => ∃ number, value.integer = some number ∧ -2 ^ (size - 1) ≤ number ∧ number < 2 ^ (size - 1)
  | .uint size, value => ∃ number, value.integer = some number ∧ 0 ≤ number ∧ number < 2 ^ size
  | .bool, .bool _ => True
  | .string, .string _ => True
  | .slice elem, .slice values => ∀ value ∈ values, InRange elem value
  | .array size elem, .array values => values.length = size ∧ ∀ value ∈ values, InRange elem value
  | .tuple elems, .tuple values => AllInRange elems values
  | .address, .address _ => True
  | .fixedBytes size, .fixedBytes bytes => bytes.length = size
  | .bytes, .bytes _ => True
  | .function, .function bytes => bytes.length = 24
  | _, _ => False

def AllInRange : List AbiType → List Value → Prop
  | [], [] => True
  | t :: types, value :: values => InRange t value ∧ AllInRange types values
  | _, _ => False

end

/-- The types for which the generator has a case, with the widths that hold the 64-bit seeds or wrap them. -/
def generable : AbiType → Bool
  | .int size => machineSize size || 64 ≤ size
  | .uint size => machineSize size || 64 ≤ size
  | .bool => true
  | .string => true
  | .address => true
  | .fixedBytes size => size.1 = 4 || size.1 = 8 || size.1 = 32
  | .bytes => true
  | _ => false

def CallsWith (contract : Contract) (name : String) (data : Bytes) : Prop :=
  ∃ method args, contract.abi.method name = some method ∧ data.take 4 = method.id ∧
    unpack method.inputs (data.drop 4) = .ok args ∧ AllInRange method.inputs args

theorem allInRange_iff {types : List AbiType} {values : List Value} :
    AllInRange types values ↔ List.Forall₂ InRange types values := by
  induction types generalizing values with
  | nil => cases values <;> simp [AllInRange]
  | cons t types ih => cases values <;> simp [AllInRange, ih]

section Sent

def Sent (t : AbiType) (arg : Option Value) : Prop :=
  ∃ value code, arg = some value ∧ Coded t value code ∧ code.length ≤ 288

theorem sent_static (flat : t.flat = true) (static : isDynamicType t = false) (typed : HasType t value) :
    Sent t (some value) := by
  obtain ⟨code, coded⟩ := exists_coded flat typed
  exact ⟨value, code, rfl, coded, by rw [(coded.static static).length]; decide⟩

theorem length_packBytesSlice {content : Bytes} (short : content.length ≤ 256) :
    (packBytesSlice content).length ≤ 288 := by
  rw [packBytesSlice, List.length_append, length_packNum, rightPadBytes, List.length_append, List.length_replicate]
  omega

variable {inputs : List AbiType} {args : List (Option Value)}

theorem exists_coded_of_sent (sent : List.Forall₂ Sent inputs args) :
    ∃ coded : List (Value × Bytes), args = (coded.map Prod.fst).map some ∧
      List.Forall₂ (fun t c => Coded t c.1 c.2) inputs coded ∧
      (coded.map fun c => c.2.length).sum ≤ 288 * inputs.length := by
  induction sent with
  | nil => exact ⟨[], rfl, .nil, Nat.le_refl 0⟩
  | cons here later ih =>
    obtain ⟨value, code, rfl, coded, short⟩ := here
    obtain ⟨rest, rfl, each, sum⟩ := ih
    refine ⟨(value, code) :: rest, rfl, .cons coded each, ?_⟩
    simp only [List.map_cons, List.sum_cons, List.length_cons]
    omega

theorem unpack_of_sent (few : inputs.length < 2 ^ 48) (sent : List.Forall₂ Sent inputs args) :
    ∃ data values, args = values.map some ∧ packArguments inputs args = .ok data ∧ unpack inputs data = .ok values := by
  obtain ⟨coded, rfl, each, sum⟩ := exists_coded_of_sent sent
  obtain ⟨data, packs, unpacks⟩ := unpack_packArguments each (by omega)
  exact ⟨data, _, rfl, packs, unpacks⟩

theorem pack_none_ne (t : AbiType) (code : Bytes) : pack t none ≠ .ok code := by
  rw [pack.eq_def]
  cases typeCheck t none
  all_goals rintro ⟨⟩

theorem packAll_ok {codes : List Bytes} (same : args.length = inputs.length)
    (packs : packAll inputs args = .ok codes) :
    List.Forall₂ (fun t arg => ∃ code, pack t arg = .ok code) inputs args := by
  induction inputs generalizing args codes with
  | nil =>
    rw [List.length_eq_zero_iff.mp same]
    exact .nil
  | cons t inputs ih =>
    cases args with
    | nil => cases same
    | cons arg args =>
      rw [packAll] at packs
      obtain ⟨code, here, packs⟩ := Machine.bind_ok.mp packs
      obtain ⟨rest, later, -⟩ := Machine.bind_ok.mp packs
      exact .cons ⟨code, here⟩ (ih (by simpa using same) later)

end Sent

structure Generated (t : AbiType) (arg : Option Value) : Prop where
  sent : ∀ code, pack t arg = .ok code → Sent t arg
  inRange : generable t = true → Sent t arg ∧ ∃ value, arg = some value ∧ InRange t value

theorem Generated.of_sent (sent : Sent t (some value)) (inRange : generable t = true → InRange t value) :
    Generated t (some value) :=
  ⟨fun _ _ => sent, fun known => ⟨sent, value, rfl, inRange known⟩⟩

theorem Generated.of_unpackable {arg : Option Value} (unknown : generable t = false)
    (fails : ∀ code, pack t arg ≠ .ok code) : Generated t arg :=
  ⟨fun code packs => absurd packs (fails code), fun known => by simp [unknown] at known⟩

def SeedPool.Stocked (pool : SeedPool) : Prop := ∀ note, initSeedPool.has note → pool.lists note

theorem SeedPool.Stocked.nonempty {pool : SeedPool} (stocked : pool.Stocked) :
    pool.intSeedList ≠ [] ∧ pool.uintSeedList ≠ [] ∧ pool.addressSeedList ≠ [] ∧ pool.etherAmountSeedList ≠ [] :=
  ⟨List.ne_nil_of_mem (stocked _ (constant_int List.mem_cons_self)),
    List.ne_nil_of_mem (stocked _ (constant_uint List.mem_cons_self)),
    List.ne_nil_of_mem (stocked _ (constant_address List.mem_cons_self)),
    List.ne_nil_of_mem (stocked _ (constant_ether List.mem_cons_self))⟩

theorem stocked_of_found {seed seed' : Seed} {order : SeedOrder} {txList : List ExternalTx} {sender : Address}
    {pool : SeedPool} (fits : order.Fits seed txList) (extracted : seed.initSeedFromFrontTxs order txList = .ok seed')
    (found : seed'.seedPoolMap.lookup sender = some pool) (fresh : seed.Fresh) : (seed'.poolOf sender).Stocked := by
  intro note constant
  rw [Seed.poolOf, found]
  exact lists_constant fits extracted found fresh constant

section Integers

variable {signed : Bool} {size : Nat} {wrapped held : Int}

theorem inBits_toInt {width : Nat} (number : BitVec width) : InBits true width number.toInt :=
  ⟨number.le_toInt, number.toInt_lt⟩

theorem inBits_toNat {width : Nat} (number : BitVec width) : InBits false width number.toNat :=
  ⟨Int.natCast_nonneg _, by exact_mod_cast number.isLt⟩

theorem inRange_integer :
    InRange (integerType signed size) value ↔ ∃ number, value.integer = some number ∧ InBits signed size number := by
  cases signed
  all_goals simp [integerType, InRange, InBits]

theorem generable_integer : generable (integerType signed size) = (machineSize size || 64 ≤ size) := by
  cases signed
  all_goals rfl

theorem selected_integer (fits : InBits signed size wrapped) (small : InBits signed 64 held) :
    HasType (integerType signed size) (if machineSize size then .machine signed size wrapped else .big held) ∧
      (generable (integerType signed size) = true →
        InRange (integerType signed size) (if machineSize size then .machine signed size wrapped else .big held)) := by
  rw [generable_integer]
  cases machine : machineSize size with
  | true => exact ⟨hasType_machine.mpr ⟨machine, fits⟩, fun _ => inRange_integer.mpr ⟨wrapped, rfl, fits⟩⟩
  | false =>
    refine ⟨hasType_big.mpr ⟨machine, small.mono (by decide)⟩,
      fun wide => inRange_integer.mpr ⟨held, rfl, small.mono ?_⟩⟩
    simpa using wide

theorem generable_of_inRange (signed : Bool) (large : ¬InBits signed 63 held)
    (inRange : InRange (integerType signed size)
      (if machineSize size then .machine signed size wrapped else .big held)) :
    generable (integerType signed size) = true := by
  rw [generable_integer]
  cases machine : machineSize size with
  | true => rfl
  | false =>
    rw [machine, inRange_integer] at inRange
    obtain ⟨_, ⟨⟩, inBits⟩ := inRange
    by_contra narrow
    simp only [Bool.false_or, decide_eq_true_eq] at narrow
    exact large (inBits.mono (by omega))

end Integers

section Types

variable {pool : SeedPool} (sender : Address) (stocked : pool.Stocked)

theorem readBytes_ends (length : Nat) :
    Random.Ends (fun _ => False) (fun content => content.length = length) (readBytes length) := by
  refine (Random.Ends.length_mapM fun _ _ => ?_).imp (fun _ => id) fun content same => ?_
  · exact (Random.Ends.int (by decide) _).bind fun _ _ => .pure trivial
  · rw [same, List.length_range]

theorem generateString_ends :
    Random.Ends (fun _ => False) (fun content => content.length ≤ 256) generateString := by
  refine (Random.Ends.int (by decide) _).bind fun n inside => ?_
  refine (Random.Ends.length_mapM fun _ _ => ?_).imp (fun _ => id) fun content same => ?_
  · exact (Random.Ends.pick (by decide) _ _).imp (fun _ => id) fun _ _ => trivial
  · rw [same, List.length_range]
    omega

theorem generateBytes_ends :
    Random.Ends (fun _ => False) (fun content => content.length ≤ 256) generateBytes := by
  refine (Random.Ends.pick (by decide) _ _).bind fun length listed => ?_
  have short : length ≤ 256 := by
    revert length
    decide
  exact (readBytes_ends length).imp (fun _ => id) fun content same => by omega

theorem generated_fixedBytes {size : { size : Nat // 0 < size ∧ size ≤ 32 }} {content : Bytes}
    (length : content.length = if generable (.fixedBytes size) then size.1 else 0) :
    Generated (.fixedBytes size) (some (.fixedBytes content)) := by
  cases known : generable (.fixedBytes size) with
  | true =>
    rw [known, if_pos rfl] at length
    exact .of_sent (sent_static rfl rfl (by simpa [HasType] using length)) fun _ => by simpa [InRange] using length
  | false =>
    rw [known, if_neg (by decide)] at length
    refine .of_unpackable known fun code packs => ?_
    have checked : typeCheck (.fixedBytes size) (some (.fixedBytes content)) = .error .cannotUse := by
      simp [typeCheck, kindOf, Value.kind, Value.elements, length, show 0 ≠ size.1 by omega]
    rw [pack.eq_def, checked] at packs
    cases packs

theorem generateFixBytes_ends (size : { size : Nat // 0 < size ∧ size ≤ 32 }) :
    Random.Ends (fun _ => False) (fun content => content.length = if generable (.fixedBytes size) then size.1 else 0)
      (generateFixBytes size) := by
  have listed : size.1 ∈ [4, 8, 32, 64, 96, 128, 160, 192, 224, 256] ↔ generable (.fixedBytes size) = true := by
    simp only [List.mem_cons, List.not_mem_nil, or_false, generable, Bool.or_eq_true, decide_eq_true_eq]
    omega
  simp only [generateFixBytes, listed]
  cases generable (.fixedBytes size) with
  | true => exact readBytes_ends size
  | false => exact .pure rfl

include stocked

theorem generateTypeInput_ends (t : AbiType) :
    Random.Ends (fun _ => False) (Generated t) (pool.generateTypeInput sender t) := by
  obtain ⟨integers, naturals, addresses, -⟩ := stocked.nonempty
  have absent {t : AbiType} (unknown : generable t = false) :
      Random.Ends (fun _ => False) (Generated t) (pure none : Random Panic (Option Value)) :=
    .pure (.of_unpackable unknown (pack_none_ne t))
  cases t with
  | int size =>
    refine (Random.Ends.int (List.length_pos_iff.mpr integers) _).bind fun n inside => ?_
    rw [SeedPool.selectInt, List.getElem?_eq_getElem inside]
    obtain ⟨typed, inRange⟩ :=
      selected_integer (inBits_toInt (pool.intSeedList[n].setWidth size)) (inBits_toInt pool.intSeedList[n])
    exact .pure (.of_sent (sent_static rfl rfl typed) inRange)
  | uint size =>
    refine (Random.Ends.int (List.length_pos_iff.mpr naturals) _).bind fun n inside => ?_
    rw [SeedPool.selectUint, List.getElem?_eq_getElem inside]
    obtain ⟨typed, inRange⟩ :=
      selected_integer (inBits_toNat (pool.uintSeedList[n].setWidth size)) (inBits_toNat pool.uintSeedList[n])
    exact .pure (.of_sent (sent_static rfl rfl typed) inRange)
  | bool =>
    refine (Random.Ends.pick (by decide) _ _).bind fun value _ => .pure (.of_sent (sent_static rfl rfl ?_) fun _ => ?_)
    · simp [HasType]
    · simp [InRange]
  | address =>
    have drawn : Random.Ends (fun _ => False) (fun _ => True) (pool.selectAddress sender 50) := by
      refine (Random.Ends.int (by decide) _).bind fun r _ => ?_
      split
      · exact .pure trivial
      · exact (Random.Ends.pick addresses _ _).imp (fun _ => id) fun _ _ => trivial
    refine drawn.bind fun value _ => .pure (.of_sent (sent_static rfl rfl ?_) fun _ => ?_)
    · simp [HasType]
    · simp [InRange]
  | fixedBytes size =>
    exact (generateFixBytes_ends size).bind fun content length => .pure (generated_fixedBytes length)
  | bytes =>
    refine generateBytes_ends.bind fun content short => .pure (.of_sent ?_ fun _ => by simp [InRange])
    exact ⟨_, _, rfl, coded_bytes content, length_packBytesSlice short⟩
  | string =>
    refine generateString_ends.bind fun content short => .pure (.of_sent ?_ fun _ => by simp [InRange])
    exact ⟨_, _, rfl, coded_string content, length_packBytesSlice short⟩
  | slice elem => exact absent rfl
  | array size elem => exact absent rfl
  | tuple elems => exact absent rfl
  | function => exact absent rfl

omit stocked in
theorem canReturn_selected {select : Nat → Except Panic Value} {bound n : Nat} (inside : n < bound)
    (selected : select n = .ok value) :
    Random.CanReturn (do
      let n ← draw bound
      let value ← Random.lift (select n)
      pure (some value)) (some value) := by
  refine (Random.CanReturn.int inside _).bind ?_
  rw [selected]
  exact (Random.CanReturn.lift value).bind (.pure _)

theorem exists_worst (t : AbiType) :
    ∃ arg, Random.CanReturn (pool.generateTypeInput sender t) arg ∧
      ∀ value, arg = some value → InRange t value → generable t = true := by
  have absent {t : AbiType} (same : pool.generateTypeInput sender t = pure none) :
      ∃ arg, Random.CanReturn (pool.generateTypeInput sender t) arg ∧
        ∀ value, arg = some value → InRange t value → generable t = true :=
    ⟨none, same ▸ .pure none, nofun⟩
  have bytes (length : Nat) : Random.CanReturn (readBytes length) ((List.range length).map fun _ => 0) :=
    .mapM (List.forall₂_map_right_iff.mpr (List.forall₂_same.mpr fun _ _ =>
      (Random.CanReturn.int (n := 0) (by decide) _).bind (.pure _)))
  cases t with
  | int size =>
    have listed := stocked _ (constant_int (show 10 ^ 20 ∈ intPool by decide))
    rw [parseIntValue_itoa] at listed
    obtain ⟨n, inside, drawn⟩ := selectInt_of_mem listed size
    refine ⟨_, canReturn_selected inside drawn, ?_⟩
    rintro _ ⟨⟩
    exact generable_of_inRange true fun small => absurd small.2 (by decide)
  | uint size =>
    have listed := stocked _ (constant_uint (show 10 ^ 20 ∈ uintPool by decide))
    rw [parseUintValue_decimal] at listed
    obtain ⟨n, inside, drawn⟩ := selectUint_of_mem listed size
    refine ⟨_, canReturn_selected inside drawn, ?_⟩
    rintro _ ⟨⟩
    exact generable_of_inRange false fun small => absurd small.2 (by decide)
  | bool => exact ⟨_, (Random.CanReturn.pick (a := true) List.mem_cons_self _ _).bind (.pure _), fun _ _ _ => rfl⟩
  | address =>
    exact ⟨_, Random.CanReturn.bind (a := sender)
      ((Random.CanReturn.int (n := 0) (by decide) _).bind (.pure _)) (.pure _), fun _ _ _ => rfl⟩
  | fixedBytes size =>
    obtain ⟨content, returns⟩ : ∃ content, Random.CanReturn (generateFixBytes size) content := by
      unfold generateFixBytes
      split
      · exact ⟨_, bytes size⟩
      · exact ⟨_, .pure []⟩
    refine ⟨_, returns.bind (.pure _), ?_⟩
    rintro _ ⟨⟩ inRange
    obtain ⟨source, drawn⟩ := returns fun _ => 0
    have length := (generateFixBytes_ends size).of_ok drawn
    simp only [InRange] at inRange
    by_contra unknown
    rw [if_neg unknown] at length
    omega
  | bytes =>
    exact ⟨_, ((Random.CanReturn.pick (a := 0) List.mem_cons_self _ _).bind (bytes 0)).bind (.pure _), fun _ _ _ => rfl⟩
  | string =>
    exact ⟨_, ((Random.CanReturn.int (n := 0) (by decide) _).bind (.pure [])).bind (.pure _), fun _ _ _ => rfl⟩
  | slice elem => exact absent rfl
  | array size elem => exact absent rfl
  | tuple elems => exact absent rfl
  | function => exact absent rfl

end Types

section Method

variable {seed : Seed} {contract : Contract} {method : Method} {name : String} {sender : Address}

theorem generateInputData_ok (known : contract.abi.method name = some method) {source rest : Source} {data : Bytes} :
    seed.generateInputData contract name sender source = .ok (data, rest) ↔
      ∃ args, method.inputs.mapM ((seed.poolOf sender).generateTypeInput sender) source = .ok (args, rest) ∧
        packed contract name args = .ok data := by
  rw [Seed.generateInputData, Seed.inputsOf, known, Random.bind_ok]
  simp only [Option.map_some, Option.getD_some, Random.lift_ok]
  constructor
  · rintro ⟨args, _, drawn, data, packs, same⟩
    cases same
    exact ⟨args, drawn, packs⟩
  · rintro ⟨args, drawn, packs⟩
    exact ⟨args, rest, drawn, data, packs, rfl⟩

theorem packed_ok (known : contract.abi.method name = some method) {args : List (Option Value)} {data : Bytes}
    (packs : packed contract name args = .ok data) (starts : data.take 4 = method.id) :
    ∃ arguments, packArguments method.inputs args = .ok arguments ∧ data.drop 4 = arguments := by
  have length := method.length_id
  unfold packed ABI.pack at packs
  rw [known] at packs
  cases result : packArguments method.inputs args with
  | ok arguments =>
    simp only [result, bind, Except.bind, Except.ok.injEq] at packs
    exact ⟨arguments, rfl, by rw [← packs, ← length, List.drop_left]⟩
  | error failure =>
    simp only [result, bind, Except.bind] at packs
    split at packs
    · contradiction
    · contradiction
    · cases packs
      rw [← starts] at length
      cases length

theorem exists_method (listed : name ∈ contract.methodList) : ∃ method, contract.abi.method name = some method := by
  obtain ⟨method, kept, named⟩ := List.mem_map.mp listed
  exact ⟨method, (contract.abi.method_eq_some_iff).mpr ⟨(List.mem_filter.mp kept).1, named⟩⟩

theorem inRange_of_map {arg : AbiType → Option Value} {inputs : List AbiType} {values : List Value}
    (inRange : List.Forall₂ InRange inputs values) (same : inputs.map arg = values.map some) :
    ∀ t ∈ inputs, ∃ value, arg t = some value ∧ InRange t value := by
  induction inRange with
  | nil => exact nofun
  | cons here later ih =>
    obtain ⟨first, rest⟩ := List.cons.inj same
    intro t member
    rcases List.mem_cons.mp member with rfl | member
    · exact ⟨_, first, here⟩
    · exact ih rest t member

variable (stocked : (seed.poolOf sender).Stocked) (known : contract.abi.method name = some method)
include stocked known

theorem generable_of_callsWith
    (calls : ∀ source, ∃ data rest, seed.generateInputData contract name sender source = .ok (data, rest) ∧
      CallsWith contract name data) : ∀ t ∈ method.inputs, generable t = true := by
  choose worst returns bad using exists_worst sender stocked
  have each : List.Forall₂ (fun t arg => Random.CanReturn ((seed.poolOf sender).generateTypeInput sender t) arg)
      method.inputs (method.inputs.map worst) :=
    List.forall₂_map_right_iff.mpr (List.forall₂_same.mpr fun t _ => returns t)
  obtain ⟨source, drawn⟩ := Random.CanReturn.mapM each fun _ => 0
  obtain ⟨data, rest, generated, _, values, known', starts, unpacks, inRange⟩ := calls source
  rw [known] at known'
  cases known'
  obtain ⟨args, drawn', packs⟩ := (generateInputData_ok known).mp generated
  rw [drawn] at drawn'
  cases drawn'
  obtain ⟨arguments, packs, rfl⟩ := packed_ok known packs starts
  have related := (Random.Ends.mapM fun t _ => generateTypeInput_ends sender stocked t).of_ok drawn
  have sent : List.Forall₂ Sent method.inputs (method.inputs.map worst) := by
    unfold packArguments at packs
    rw [if_neg (by simp)] at packs
    obtain ⟨codes, packs, -⟩ := Machine.bind_ok.mp packs
    have packable := packAll_ok (by simp) packs
    rw [List.forall₂_map_right_iff, List.forall₂_same] at packable related ⊢
    intro t member
    obtain ⟨code, here⟩ := packable t member
    exact (related t member).sent code here
  obtain ⟨_, values', same, packs', unpacks'⟩ := unpack_of_sent method.length_inputs sent
  rw [packs] at packs'
  cases packs'
  rw [unpacks] at unpacks'
  cases unpacks'
  intro t member
  obtain ⟨value, here, inRange⟩ := inRange_of_map (allInRange_iff.mp inRange) same t member
  exact bad t value here inRange

theorem callsWith_of_generable (types : ∀ t ∈ method.inputs, generable t = true) (source : Source) :
    ∃ data rest, seed.generateInputData contract name sender source = .ok (data, rest) ∧
      CallsWith contract name data := by
  have ends : Random.Ends (fun _ => False) (List.Forall₂ (fun t arg => Sent t arg ∧
      ∃ value, arg = some value ∧ InRange t value) method.inputs)
      (method.inputs.mapM ((seed.poolOf sender).generateTypeInput sender)) :=
    Random.Ends.mapM fun t member => (generateTypeInput_ends sender stocked t).imp (fun _ => id)
      fun arg generated => generated.inRange (types t member)
  cases drawn : method.inputs.mapM ((seed.poolOf sender).generateTypeInput sender) source with
  | error panic => exact (ends.of_error drawn).elim
  | ok result =>
    obtain ⟨args, rest⟩ := result
    have related := ends.of_ok drawn
    obtain ⟨arguments, values, rfl, packs, unpacks⟩ :=
      unpack_of_sent method.length_inputs (related.imp fun _ _ => And.left)
    have length := method.length_id
    refine ⟨method.id ++ arguments, rest, (generateInputData_ok known).mpr ⟨_, drawn, ?_⟩, method, values, known,
      ?_, ?_, ?_⟩
    · simp only [packed, ABI.pack, known, packs]
      rfl
    · rw [← length, List.take_left]
    · rw [← length, List.drop_left, unpacks]
    · rw [List.forall₂_map_right_iff] at related
      refine allInRange_iff.mpr (related.imp ?_)
      rintro t value ⟨-, _, same, inRange⟩
      cases same
      exact inRange

end Method

/-- The calldata that is generated for a method is that of a call of it. -/
theorem generateInputData_callsWith_iff (loadABI : Address → ABI) (proxyInfo : ProxyInfo) {order : SeedOrder}
    {txList : List ExternalTx} {seed' : Seed} {sender : Address} {pool : SeedPool}
    (fits : order.Fits (Seed.initSeed loadABI proxyInfo) txList)
    (extracted : (Seed.initSeed loadABI proxyInfo).initSeedFromFrontTxs order txList = .ok seed')
    (found : seed'.seedPoolMap.lookup sender = some pool) (contract : Contract) {name : String}
    (listed : name ∈ contract.methodList) :
    (∀ source, ∃ data rest, seed'.generateInputData contract name sender source = .ok (data, rest) ∧
      CallsWith contract name data) ↔ ∀ t ∈ Seed.inputsOf contract name, generable t = true := by
  have stocked := stocked_of_found fits extracted found (Seed.initSeed_fresh loadABI proxyInfo)
  obtain ⟨method, known⟩ := exists_method listed
  rw [Seed.inputsOf, known, Option.map_some, Option.getD_some]
  exact ⟨generable_of_callsWith stocked known, callsWith_of_generable stocked known⟩

/-- A method of generable types, one that takes `bytes16`, one that takes `uint256[]` and one that takes `uint24`. -/
def mixedContract : Contract where
  abi := {
    methods := [
      { name := "swap", id := [1, 1, 1, 1], inputs := [.uint 256, .address, .fixedBytes ⟨32, by decide⟩, .bytes],
        length_id := length_methodId_one },
      { name := "sign", id := [2, 2, 2, 2], inputs := [.fixedBytes ⟨16, by decide⟩] },
      { name := "sum", id := [3, 3, 3, 3], inputs := [.slice (.uint 256)] },
      { name := "tick", id := [4, 4, 4, 4], inputs := [.uint 24] }]
    names := by decide
    ids := by decide }

theorem generateInputData_swap : ∃ order : SeedOrder, order.Fits payableSeed [reaching .call (some 5)] ∧
    ∃ seed', payableSeed.initSeedFromFrontTxs order [reaching .call (some 5)] = .ok seed' ∧
      ∀ source, ∃ data rest, seed'.generateInputData mixedContract "swap" 0x20 source = .ok (data, rest) ∧
        CallsWith mixedContract "swap" data := by
  obtain ⟨order, fits⟩ := exists_fits payableSeed [reaching .call (some 5)]
  obtain ⟨seed', extracted⟩ : ∃ seed', payableSeed.initSeedFromFrontTxs order [reaching .call (some 5)] = .ok seed' :=
    ⟨_, rfl⟩
  have found := lookup_of_sends extracted (Seed.initSeed_fresh _ _) ⟨_, List.mem_singleton_self _, rfl⟩
  have types : (Seed.inputsOf mixedContract "swap").all generable = true := rfl
  exact ⟨order, fits, seed', extracted, (generateInputData_callsWith_iff _ _ fits extracted found mixedContract
    List.mem_cons_self).mpr (List.all_eq_true.mp types)⟩

/-- The other methods are never called with calldata, make the fuzzer panic, or get numbers of more than 24 bits. -/
theorem mixedContract_unfuzzed : ∃ order : SeedOrder, order.Fits payableSeed [reaching .call (some 5)] ∧
    ∃ seed', payableSeed.initSeedFromFrontTxs order [reaching .call (some 5)] = .ok seed' ∧
      (∀ source, seed'.generateInputData mixedContract "sign" 0x20 source = .ok ([], source)) ∧
      (∀ source, seed'.generateInputData mixedContract "sum" 0x20 source = .error .zeroValue) ∧
      ¬∀ source, ∃ data rest, seed'.generateInputData mixedContract "tick" 0x20 source = .ok (data, rest) ∧
        CallsWith mixedContract "tick" data := by
  obtain ⟨order, fits⟩ := exists_fits payableSeed [reaching .call (some 5)]
  obtain ⟨seed', extracted⟩ : ∃ seed', payableSeed.initSeedFromFrontTxs order [reaching .call (some 5)] = .ok seed' :=
    ⟨_, rfl⟩
  have fresh := Seed.initSeed_fresh (fun _ => payableABI) ⟨[0x10], []⟩
  have found := lookup_of_sends extracted fresh ⟨_, List.mem_singleton_self _, rfl⟩
  refine ⟨order, fits, seed', extracted, fun _ => rfl, fun _ => rfl, fun calls => ?_⟩
  have stocked := stocked_of_found fits extracted found fresh
  cases generable_of_callsWith stocked rfl calls (.uint 24) List.mem_cons_self

end IDWDetector.Hunter
