import IDWDetector.Hunter.Seeding

namespace IDWDetector.Hunter

open Vm Abi Go

variable {number : Nat} {note : PoolNote} {value : Value}

def numberOf : Value → Int
  | .machine _ _ value => value
  | .big value => value
  | _ => 0

def SeedPool.lists (pool : SeedPool) : PoolNote → Prop
  | .int number => number ∈ pool.intSeedList
  | .uint number => number ∈ pool.uintSeedList
  | .address addr => addr ∈ pool.addressSeedList
  | .ether text => text ∈ pool.etherAmountSeedList

theorem PoolOrder.Enumerates.lists {order : PoolOrder} {pool : SeedPool} (enumerates : order.Enumerates pool)
    (note : PoolNote) : (SeedPool.updateMapToList order).lists note ↔ pool.has note := by
  cases note with
  | int number => exact enumerates.ints.mem_iff number
  | uint number => exact enumerates.uints.mem_iff number
  | address addr => exact enumerates.addresses.mem_iff addr
  | ether text => exact enumerates.ethers.mem_iff text

section Listed

variable {pool : SeedPool}

theorem selectInt_of_mem {number : BitVec 64} (listed : pool.lists (.int number)) (size : Nat) :
    ∃ draw, draw < pool.intSeedList.length ∧ pool.selectInt size draw =
      .ok (if machineSize size then .machine true size (number.setWidth size).toInt else .big number.toInt) := by
  obtain ⟨draw, inside, rfl⟩ := List.getElem_of_mem listed
  exact ⟨draw, inside, by rw [SeedPool.selectInt, List.getElem?_eq_getElem inside]⟩

theorem selectUint_of_mem {number : Uint64} (listed : pool.lists (.uint number)) (size : Nat) :
    ∃ draw, draw < pool.uintSeedList.length ∧ pool.selectUint size draw =
      .ok (if machineSize size then .machine false size (number.setWidth size).toNat else .big number.toNat) := by
  obtain ⟨draw, inside, rfl⟩ := List.getElem_of_mem listed
  exact ⟨draw, inside, by rw [SeedPool.selectUint, List.getElem?_eq_getElem inside]⟩

theorem selectEtherAmount_of_mem {text : Bytes} (listed : pool.lists (.ether text)) :
    ∃ draw, draw < pool.etherAmountSeedList.length ∧ pool.selectEtherAmount draw = .ok (setString 10 text) := by
  obtain ⟨draw, inside, rfl⟩ := List.getElem_of_mem listed
  exact ⟨draw, inside, by rw [SeedPool.selectEtherAmount, List.getElem?_eq_getElem inside]⟩

end Listed

/-- The lists are made of the maps as they are when all transactions are parsed. -/
def SeedOrder.Fits (order : SeedOrder) (seed : Seed) (txList : List ExternalTx) : Prop :=
  ∀ parsed, txList.foldlM Seed.parseTxForSeed seed = .ok parsed →
    ∀ sender pool, parsed.seedPoolMap.lookup sender = some pool → (order.pools sender).Enumerates pool

section Statement

variable (abis : Address → Option ABI) (txList : List ExternalTx)

def Calls (sender : Address) (method : Method) (input : Bytes) : Prop :=
  ∃ exTx ∈ txList, (rootOf exTx).map InternalTx.fromAddr = some sender ∧ ∃ node ∈ callsOf exTx,
    node.1.input = input ∧ ∃ abi, abis node.1.toAddr = some abi ∧ abi.methodById input = some method

def WellFormed : Prop :=
  ∀ sender method input, Calls abis txList sender method input → ∃ args, unpack method.inputs (input.drop 4) = .ok args

def Wide : Prop :=
  ∀ sender method input, Calls abis txList sender method input → ∀ t ∈ method.inputs, narrow t = false

/-- The value is a top-level argument of a call in a transaction of the sender. -/
def Passes (sender : Address) (t : AbiType) (value : Value) : Prop :=
  ∃ method input args, ∃ index : Nat, Calls abis txList sender method input ∧
    unpack method.inputs (input.drop 4) = .ok args ∧
    method.inputs[index]? = some t ∧ args[index]? = some value

end Statement

section Offers

variable (seed : Seed) (order : SeedOrder) (txList : List ExternalTx) (sender : Address)

/-- `InitSeedFromFrontTxs` returns, and the pool of the sender has the property. -/
def Pooled (property : SeedPool → Prop) : Prop :=
  ∃ seed' pool, seed.initSeedFromFrontTxs order txList = .ok seed' ∧ seed'.seedPoolMap.lookup sender = some pool ∧
    property pool

def OffersInt (size : Nat) (value : Value) : Prop :=
  Pooled seed order txList sender fun pool => (∃ number ∈ pool.intSeedList, number.toInt = numberOf value) ∧
    ∃ draw, pool.selectInt size draw = .ok value

def OffersUint (size : Nat) (value : Value) : Prop :=
  Pooled seed order txList sender fun pool => (∃ number ∈ pool.uintSeedList, (number.toNat : Int) = numberOf value) ∧
    ∃ draw, pool.selectUint size draw = .ok value

def HoldsInt (number : Int) : Prop :=
  Pooled seed order txList sender fun pool => ∃ held ∈ pool.intSeedList, held.toInt = number

def HoldsUint (number : Nat) : Prop :=
  Pooled seed order txList sender fun pool => ∃ held ∈ pool.uintSeedList, held.toNat = number

def OffersEther (number : Nat) : Prop :=
  Pooled seed order txList sender fun pool => ∃ draw, pool.selectEtherAmount draw = .ok (some (number : Int))

end Offers

theorem mem_keys_foldl_seen {κ : Type} [DecidableEq κ] (keys : List κ) (counts : Map κ Nat) (key : κ) :
    key ∈ (keys.foldl seen counts).keys ↔ key ∈ counts.keys ∨ key ∈ keys := by
  induction keys generalizing counts with
  | nil => simp
  | cons first rest ih => rw [List.foldl_cons, ih, mem_keys_seen, List.mem_cons, or_assoc]

theorem constant_int {number : Int} (constant : number ∈ intPool) :
    initSeedPool.has (.int (BitVec.ofInt 64 (parseIntValue (itoa number)))) :=
  (mem_keys_foldl_seen _ _ _).mpr (.inr (List.mem_map_of_mem constant))

theorem constant_uint (constant : number ∈ uintPool) :
    initSeedPool.has (.uint (BitVec.ofNat 64 (parseUintValue (decimal number)))) :=
  (mem_keys_foldl_seen _ _ _).mpr (.inr (List.mem_map_of_mem constant))

theorem constant_address {addr : Address} (constant : addr ∈ addressPool) : initSeedPool.has (.address addr) :=
  (mem_keys_foldl_seen _ _ _).mpr (.inr constant)

theorem constant_ether (constant : number ∈ etherPool) : initSeedPool.has (.ether (decimal number)) :=
  (mem_keys_foldl_seen _ _ _).mpr (.inr (List.mem_map_of_mem constant))

section Pools

variable {seed : Seed} {order : SeedOrder} {txList : List ExternalTx} {sender : Address}

theorem WellFormed.parses_iff (wellFormed : WellFormed seed.abis txList) (fresh : seed.Fresh) :
    (∃ parsed, txList.foldlM Seed.parseTxForSeed seed = .ok parsed) ↔ Wide seed.abis txList := by
  have fit {sender : Address} {method : Method} {input : Bytes} (called : Calls seed.abis txList sender method input) :
      ArgsFit method.inputs (unpackedArgs method.inputs input) ↔ ∀ t ∈ method.inputs, narrow t = false := by
    obtain ⟨args, decoded⟩ := wellFormed sender method input called
    rw [unpackedArgs_of_ok decoded]
    exact argsFit_iff (unpack_haveTypes decoded)
  rw [parseTxs_ok_iff fresh.opened]
  constructor
  · intro fits sender method input called
    have here := fit called
    obtain ⟨exTx, member, -, node, inside, rfl, abi, known, byId⟩ := called
    exact here.mp (fits exTx member node inside abi known method byId)
  · intro wide exTx member node inside abi known method byId
    obtain ⟨root, found⟩ : ∃ root, rootOf exTx = some root := by
      cases found : rootOf exTx with
      | none =>
        rw [callsOf, found] at inside
        cases inside
      | some root => exact ⟨root, rfl⟩
    have called : Calls seed.abis txList root.fromAddr method node.1.input :=
      ⟨exTx, member, by rw [found]; rfl, node, inside, rfl, abi, known, byId⟩
    exact (fit called).mpr (wide _ _ _ called)

variable {property : SeedPool → Prop}

theorem Pooled.wide (pooled : Pooled seed order txList sender property) (wellFormed : WellFormed seed.abis txList)
    (fresh : seed.Fresh) : Wide seed.abis txList := by
  obtain ⟨seed', pool, extracted, -⟩ := pooled
  obtain ⟨parsed, here, -⟩ := Machine.bind_ok.mp extracted
  exact (wellFormed.parses_iff fresh).mp ⟨parsed, here⟩

section

variable (wellFormed : WellFormed seed.abis txList) (fresh : seed.Fresh) (fits : order.Fits seed txList)
  (wide : Wide seed.abis txList)
include wellFormed fresh fits wide

theorem pooled_of_notes {exTx : ExternalTx} (member : exTx ∈ txList) (noted : TxNotes seed.abis exTx (sender, note))
    (holds : ∀ pool, pool.lists note → property pool) :
    Pooled seed order txList sender property := by
  obtain ⟨parsed, here⟩ := (wellFormed.parses_iff fresh).mpr wide
  obtain ⟨pool, found, has⟩ := ((parseTxs_view fresh.opened here).1 (sender, note)).mpr (.inr ⟨exTx, member, noted⟩)
  refine ⟨_, SeedPool.updateMapToList (order.pools sender), Machine.bind_ok.mpr ⟨parsed, here, rfl⟩, ?_,
    holds _ (((fits parsed here sender pool found).lists note).mpr has)⟩
  simp only [Map.mapValues, Map.filterMap, found, Option.bind_some]

theorem pooled_of_constant (sends : ∃ exTx ∈ txList, (rootOf exTx).map InternalTx.fromAddr = some sender)
    (constant : initSeedPool.has note) (holds : ∀ pool, pool.lists note → property pool) :
    Pooled seed order txList sender property := by
  obtain ⟨exTx, member, sent⟩ := sends
  exact pooled_of_notes wellFormed fresh fits wide member ⟨sent, .inl constant⟩ holds

end

theorem Passes.noted {t : AbiType} (passes : Passes seed.abis txList sender t value)
    (noted : argNote t (some value) = some note) : ∃ exTx ∈ txList, TxNotes seed.abis exTx (sender, note) := by
  obtain ⟨method, input, args, index, ⟨exTx, member, sent, node, inside, rfl, abi, known, byId⟩,
    decoded, typed, passed⟩ :=
    passes
  refine ⟨exTx, member, sent, .inr ⟨node, inside, abi, known, .inl ⟨method, byId, (t, index), ?_, ?_⟩⟩⟩
  · exact List.mem_zipIdx_iff_getElem?.mpr typed
  · rw [unpackedArgs_of_ok decoded, passed]
    exact noted

theorem Passes.big {t : AbiType} (passes : Passes seed.abis txList sender t value) (wide : Wide seed.abis txList) :
    HasType t value ∧ narrow t = false := by
  obtain ⟨method, input, args, index, called, decoded, typed, passed⟩ := passes
  obtain ⟨inside, rfl⟩ := List.getElem?_eq_some_iff.mp typed
  obtain ⟨inside', rfl⟩ := List.getElem?_eq_some_iff.mp passed
  exact ⟨(List.forall₂_iff_get.mp (unpack_haveTypes decoded).forall₂).2 index inside inside',
    wide sender method input called _ (List.getElem_mem inside)⟩

section Values

variable (wellFormed : WellFormed seed.abis txList) (fresh : seed.Fresh) (fits : order.Fits seed txList)

include wellFormed fresh fits

theorem offersInt_iff {size : Nat} (passes : Passes seed.abis txList sender (.int size) value) :
    OffersInt seed order txList sender size value ↔
      Wide seed.abis txList ∧ -2 ^ 63 ≤ numberOf value ∧ numberOf value < 2 ^ 63 := by
  constructor
  · intro offers
    obtain ⟨_, _, -, -, ⟨number, -, same⟩, -⟩ := id offers
    have lower := number.le_toInt
    have upper := number.toInt_lt
    exact ⟨offers.wide wellFormed fresh, by omega, by omega⟩
  · rintro ⟨wide, lower, upper⟩
    obtain ⟨typed, wideType⟩ := passes.big wide
    cases value
    case big value =>
      obtain ⟨exTx, member, noted⟩ := passes.noted rfl
      refine pooled_of_notes wellFormed fresh fits wide member noted ?_
      intro pool listed
      obtain ⟨draw, -, selected⟩ := selectInt_of_mem listed size
      have same : (BitVec.ofInt 64 value).toInt = value := BitVec.toInt_ofInt_eq_self (by decide) lower upper
      have narrowSize : machineSize size = false := wideType
      rw [narrowSize, same] at selected
      exact ⟨⟨_, listed, same⟩, draw, selected⟩
    all_goals simp_all [HasType, narrow]

theorem offersUint_iff {size : Nat} (passes : Passes seed.abis txList sender (.uint size) value) :
    OffersUint seed order txList sender size value ↔ Wide seed.abis txList ∧ numberOf value < 2 ^ 64 := by
  constructor
  · intro offers
    obtain ⟨_, _, -, -, ⟨number, -, same⟩, -⟩ := id offers
    exact ⟨offers.wide wellFormed fresh, by omega⟩
  · rintro ⟨wide, upper⟩
    obtain ⟨typed, wideType⟩ := passes.big wide
    cases value
    case big value =>
      obtain ⟨exTx, member, noted⟩ := passes.noted rfl
      refine pooled_of_notes wellFormed fresh fits wide member noted ?_
      intro pool listed
      obtain ⟨draw, -, selected⟩ := selectUint_of_mem listed size
      have lower : 0 ≤ value := by
        simp only [HasType] at typed
        exact typed.2.1
      have same : ((BitVec.ofNat 64 value.natAbs).toNat : Int) = value := by
        simp only [numberOf] at upper
        rw [BitVec.toNat_ofNat]
        omega
      have narrowSize : machineSize size = false := wideType
      rw [narrowSize, same] at selected
      exact ⟨⟨_, listed, same⟩, draw, selected⟩
    all_goals simp_all [HasType, narrow]

variable (sends : ∃ exTx ∈ txList, (rootOf exTx).map InternalTx.fromAddr = some sender)

include sends

theorem holdsInt_iff {number : Int} (constant : number ∈ intPool) :
    HoldsInt seed order txList sender number ↔ Wide seed.abis txList ∧ -2 ^ 63 ≤ number ∧ number < 2 ^ 63 := by
  constructor
  · intro holds
    obtain ⟨_, _, -, -, held, -, same⟩ := id holds
    have lower := held.le_toInt
    have upper := held.toInt_lt
    exact ⟨holds.wide wellFormed fresh, by omega, by omega⟩
  · rintro ⟨wide, lower, upper⟩
    have value : parseIntValue (itoa number) = number := by
      rw [parseIntValue_itoa]
      omega
    have known := constant_int constant
    rw [value] at known
    refine pooled_of_constant wellFormed fresh fits wide sends known ?_
    intro pool listed
    exact ⟨_, listed, BitVec.toInt_ofInt_eq_self (by decide) lower upper⟩

theorem holdsUint_iff (constant : number ∈ uintPool) :
    HoldsUint seed order txList sender number ↔ Wide seed.abis txList ∧ number < 2 ^ 64 := by
  constructor
  · intro holds
    obtain ⟨_, _, -, -, held, -, same⟩ := id holds
    exact ⟨holds.wide wellFormed fresh, by omega⟩
  · rintro ⟨wide, upper⟩
    have value : parseUintValue (decimal number) = number := by
      rw [parseUintValue_decimal]
      omega
    have known := constant_uint constant
    rw [value] at known
    refine pooled_of_constant wellFormed fresh fits wide sends known ?_
    intro pool listed
    exact ⟨_, listed, by rw [BitVec.toNat_ofNat, Nat.mod_eq_of_lt upper]⟩

theorem offersEther_iff (constant : number ∈ etherPool) :
    OffersEther seed order txList sender number ↔ Wide seed.abis txList := by
  constructor
  · intro offers
    exact offers.wide wellFormed fresh
  · intro wide
    refine pooled_of_constant wellFormed fresh fits wide sends (constant_ether constant) ?_
    intro pool listed
    obtain ⟨draw, -, selected⟩ := selectEtherAmount_of_mem listed
    exact ⟨draw, by rw [selected, setString_decimal]⟩

end Values

end Pools

/-- Which arguments and constants the pool of a sender offers with their values. -/
theorem seeds_faithful_iff (loadABI : Address → ABI) (proxyInfo : ProxyInfo) (order : SeedOrder)
    (txList : List ExternalTx) (wellFormed : WellFormed (Seed.initSeed loadABI proxyInfo).abis txList)
    (fits : order.Fits (Seed.initSeed loadABI proxyInfo) txList) :
    let seed := Seed.initSeed loadABI proxyInfo
    (∀ sender size value, Passes seed.abis txList sender (.int size) value →
      (OffersInt seed order txList sender size value ↔
        Wide seed.abis txList ∧ -2 ^ 63 ≤ numberOf value ∧ numberOf value < 2 ^ 63)) ∧
    (∀ sender size value, Passes seed.abis txList sender (.uint size) value →
      (OffersUint seed order txList sender size value ↔ Wide seed.abis txList ∧ numberOf value < 2 ^ 64)) ∧
    ∀ sender, (∃ exTx ∈ txList, (rootOf exTx).map InternalTx.fromAddr = some sender) →
      (∀ number ∈ intPool, HoldsInt seed order txList sender number ↔
        Wide seed.abis txList ∧ -2 ^ 63 ≤ number ∧ number < 2 ^ 63) ∧
      (∀ number ∈ uintPool, HoldsUint seed order txList sender number ↔ Wide seed.abis txList ∧ number < 2 ^ 64) ∧
      ∀ number ∈ etherPool, OffersEther seed order txList sender number ↔ Wide seed.abis txList := by
  have fresh := Seed.initSeed_fresh loadABI proxyInfo
  refine ⟨fun sender size value passes => offersInt_iff wellFormed fresh fits passes,
    fun sender size value passes => offersUint_iff wellFormed fresh fits passes, ?_⟩
  intro sender sends
  exact ⟨fun number constant => holdsInt_iff wellFormed fresh fits sends constant,
    fun number constant => holdsUint_iff wellFormed fresh fits sends constant,
    fun number constant => offersEther_iff wellFormed fresh fits sends constant⟩

theorem exists_fits (seed : Seed) (txList : List ExternalTx) : ∃ order : SeedOrder, order.Fits seed txList := by
  cases result : txList.foldlM Seed.parseTxForSeed seed with
  | error panic =>
    refine ⟨⟨fun _ => ⟨[], [], [], []⟩, []⟩, fun parsed here => ?_⟩
    rw [result] at here
    cases here
  | ok parsed =>
    refine ⟨⟨fun sender => ((parsed.seedPoolMap.lookup sender).map fun pool => ⟨pool.intSeedMap.keys.toList,
      pool.uintSeedMap.keys.toList, pool.addressSeedMap.keys.toList, pool.etherAmountSeedMap.keys.toList⟩).getD
        ⟨[], [], [], []⟩, []⟩, ?_⟩
    intro parsed' here sender pool found
    rw [result] at here
    cases here
    simp only [found, Option.map_some, Option.getD_some]
    exact ⟨Map.enumerates_toList _, Map.enumerates_toList _, Map.enumerates_toList _,
      Map.enumerates_toList _⟩

def tokenMethod : Method where
  name := "deposit"
  id := [1, 1, 1, 1]
  inputs := [.uint 256]

def tokenSeed : Seed := Seed.initSeed (fun _ => ⟨[tokenMethod], by decide, by decide⟩) ⟨[0x10], []⟩

def amountInput (amount : Nat) : Bytes := [1, 1, 1, 1] ++ Rlp.wordBytes 32 amount

theorem unpack_word {word : Bytes} (length : word.length = 32) :
    unpack [.uint 256] word = .ok [.big (Rlp.bytesNat word : Int)] := by
  have nonempty : word ≠ [] := by
    rintro rfl
    cases length
  have same : wordAt word (32 * 0) = word := by
    rw [wordAt, Nat.mul_zero, List.drop_zero, List.take_of_length_le (Nat.le_of_eq length)]
  have decoded : toGoType (.uint 256) (32 * 0) word = .ok (.big (Rlp.bytesNat word : Int)) := by
    rw [toGoType.eq_def, if_neg (by omega)]
    simp only [same, readInteger, if_neg (show ¬machineSize 256 = true by decide), Bool.false_and, Bool.false_eq_true,
      if_false]
  rw [unpack, if_neg nonempty, unpackFrom, decoded]
  rfl

theorem unpack_amount (amount : Nat) :
    unpack tokenMethod.inputs ((amountInput amount).drop 4) = .ok [.big ((amount % 256 ^ 32 : Nat) : Int)] := by
  have input : (amountInput amount).drop 4 = Rlp.wordBytes 32 amount := by
    rw [amountInput, List.drop_left' (by rfl)]
  rw [input, tokenMethod, unpack_word (Rlp.length_wordBytes 32 amount), Rlp.bytesNat_wordBytes]

section Token

variable {amount : Nat} {sender : Address} {method : Method} {input : Bytes}

theorem tokenCalls (called : Calls tokenSeed.abis [callWith (amountInput amount)] sender method input) :
    method = tokenMethod ∧ input = amountInput amount := by
  obtain ⟨exTx, member, -, node, inside, rfl, abi, known, byId⟩ := called
  cases List.mem_singleton.mp member
  cases List.mem_singleton.mp inside
  cases known
  cases byId
  exact ⟨rfl, rfl⟩

theorem tokenSeed_wellFormed : WellFormed tokenSeed.abis [callWith (amountInput amount)] := by
  intro sender method input called
  obtain ⟨rfl, rfl⟩ := tokenCalls called
  exact ⟨_, unpack_amount amount⟩

theorem tokenSeed_wide : Wide tokenSeed.abis [callWith (amountInput amount)] := by
  intro sender method input called t member
  obtain ⟨rfl, rfl⟩ := tokenCalls called
  cases List.mem_singleton.mp member
  rfl

theorem tokenSeed_passes (small : amount < 256 ^ 32) :
    Passes tokenSeed.abis [callWith (amountInput amount)] 0x20 (.uint 256) (.big amount) := by
  refine ⟨tokenMethod, amountInput amount, _, 0,
    ⟨_, List.mem_singleton_self _, rfl, _, List.mem_singleton_self _, rfl, _,
    rfl, rfl⟩, unpack_amount amount, rfl, ?_⟩
  rw [Nat.mod_eq_of_lt small]
  rfl

end Token

/-- A deposit of five is offered again. -/
theorem seeds_faithful_five : ∃ order : SeedOrder, order.Fits tokenSeed [callWith (amountInput 5)] ∧
    WellFormed tokenSeed.abis [callWith (amountInput 5)] ∧
    OffersUint tokenSeed order [callWith (amountInput 5)] 0x20 256 (.big 5) := by
  obtain ⟨order, fits⟩ := exists_fits tokenSeed [callWith (amountInput 5)]
  exact ⟨order, fits, tokenSeed_wellFormed, ((seeds_faithful_iff _ _ order _ tokenSeed_wellFormed fits).2.1 0x20 256 _
    (tokenSeed_passes (by decide))).mpr ⟨tokenSeed_wide, by decide⟩⟩

/-- A deposit of a hundred tokens with eighteen decimals is not offered again, and neither is the constant. -/
theorem hundredTokens_lost : ∃ order : SeedOrder, order.Fits tokenSeed [callWith (amountInput (10 ^ 20))] ∧
    WellFormed tokenSeed.abis [callWith (amountInput (10 ^ 20))] ∧
    Passes tokenSeed.abis [callWith (amountInput (10 ^ 20))] 0x20 (.uint 256) (.big (10 ^ 20)) ∧
    ¬OffersUint tokenSeed order [callWith (amountInput (10 ^ 20))] 0x20 256 (.big (10 ^ 20)) ∧
    (10 ^ 20 ∈ intPool ∧ ¬HoldsInt tokenSeed order [callWith (amountInput (10 ^ 20))] 0x20 (10 ^ 20)) ∧
    10 ^ 20 ∈ uintPool ∧ ¬HoldsUint tokenSeed order [callWith (amountInput (10 ^ 20))] 0x20 (10 ^ 20) := by
  obtain ⟨order, fits⟩ := exists_fits tokenSeed [callWith (amountInput (10 ^ 20))]
  have fresh := Seed.initSeed_fresh (fun _ => ⟨[tokenMethod], by decide, by decide⟩) ⟨[0x10], []⟩
  have wellFormed : WellFormed tokenSeed.abis [callWith (amountInput (10 ^ 20))] := tokenSeed_wellFormed
  have sends : ∃ exTx ∈ [callWith (amountInput (10 ^ 20))], (rootOf exTx).map InternalTx.fromAddr = some 0x20 :=
    ⟨_, List.mem_singleton_self _, rfl⟩
  have passes : Passes tokenSeed.abis [callWith (amountInput (10 ^ 20))] 0x20 (.uint 256) (.big (10 ^ 20)) :=
    tokenSeed_passes (by decide)
  refine ⟨order, fits, wellFormed, passes, ?_, ⟨by decide, ?_⟩, by decide, ?_⟩
  · rw [offersUint_iff wellFormed fresh fits passes]
    rintro ⟨-, small⟩
    exact absurd small (by decide)
  · rw [holdsInt_iff wellFormed fresh fits sends (by decide)]
    omega
  · rw [holdsUint_iff wellFormed fresh fits sends (by decide)]
    omega

end IDWDetector.Hunter
