import IDWDetector.Abi.PackRoundTrip
import IDWDetector.Go.Rand
import IDWDetector.Hunter.SeedValues
import IDWDetector.Research.SubstateRlp

namespace IDWDetector.Hunter

open Vm Abi Go

abbrev draw (bound : Nat) : Random Panic Nat := Random.int .emptyDraw bound

abbrev drawFrom {α : Type} (list : List α) : Random Panic α := Random.pick .emptyDraw .indexOutOfRange list

def readBytes (length : Nat) : Random Panic Bytes :=
  (List.range length).mapM fun _ => do
    let byte ← draw 256
    pure (BitVec.ofNat 8 byte)

def letters : Bytes := "abcdefghijklmnopqrstuvwxyzABCDEFGHIJKLMNOPQRSTUVWXYZ".toList.map fun c => BitVec.ofNat 8 c.toNat

def generateString : Random Panic Bytes := do
  let n ← draw 100
  (List.range n).mapM fun _ => drawFrom letters

/-- Of the sizes of the source, those beyond 32 are no sizes of a fixed array. -/
def generateFixBytes (length : Nat) : Random Panic Bytes :=
  if length ∈ [4, 8, 32, 64, 96, 128, 160, 192, 224, 256] then readBytes length else pure []

def generateBytes : Random Panic Bytes := do
  let length ← drawFrom [0, 32, 64, 96, 128, 160, 192, 224, 256]
  readBytes length

namespace SeedPool

variable (pool : SeedPool) (sender : Address)

def selectAddress (rateForFrom : Nat) : Random Panic Address := do
  let r ← draw 100
  if r ≤ rateForFrom then pure sender else drawFrom pool.addressSeedList

def generateTypeInput (t : AbiType) : Random Panic (Option Value) :=
  match t with
  | .int size => do
    let n ← draw pool.intSeedList.length
    let value ← Random.lift (pool.selectInt size n)
    pure (some value)
  | .uint size => do
    let n ← draw pool.uintSeedList.length
    let value ← Random.lift (pool.selectUint size n)
    pure (some value)
  | .bool => do
    let value ← drawFrom [true, false]
    pure (some (.bool value))
  | .address => do
    let addr ← pool.selectAddress sender 50
    pure (some (.address addr))
  | .fixedBytes size => do
    let content ← generateFixBytes size
    pure (some (.fixedBytes content))
  | .bytes => do
    let content ← generateBytes
    pure (some (.bytes content))
  | .string => do
    let content ← generateString
    pure (some (.string content))
  | _ => pure none

end SeedPool

def Contract.methodList (contract : Contract) : List String :=
  (contract.abi.methods.filter fun method => method.stateMutability ≠ .view).map Method.name

/-- The error of `Pack` is only printed, and leaves no data. -/
def packed (contract : Contract) (name : String) (args : List (Option Value)) : Except Panic Bytes :=
  match contract.abi.pack name args with
  | .ok data => .ok data
  | .error .panicked => .error .zeroValue
  | .error _ => .ok []

/-- A message of the fuzzer; its amount is nil where the seed is no number. -/
structure FuzzMessage where
  fromAddr : Address
  toAddr : Address
  nonce : Uint64 := 0
  amount : Option Int
  gasLimit : Uint64 := 8000000
  gasPrice : Int := 350000000000
  gasFeeCap : Int := 350000000000
  gasTipCap : Int := 350000000000
  data : Bytes

namespace Seed

variable (seed : Seed) (contract : Contract) (name : String)

def poolOf (sender : Address) : SeedPool := (seed.seedPoolMap.lookup sender).getD {}

def inputsOf : List AbiType :=
  ((contract.abi.method name).map Method.inputs).getD []

def generateInputData (sender : Address) : Random Panic Bytes := do
  let args ← (inputsOf contract name).mapM ((seed.poolOf sender).generateTypeInput sender)
  Random.lift (packed contract name args)

def mutateInputData (data : Bytes) (sender : Address) : Random Panic Bytes := do
  let originArgs := unpackedArgs (inputsOf contract name) data
  let args ← (inputsOf contract name).zipIdx.mapM fun input =>
    match input.1 with
    | .int size => (seed.poolOf sender).generateTypeInput sender (.int size)
    | .uint size => (seed.poolOf sender).generateTypeInput sender (.uint size)
    | .address => (seed.poolOf sender).generateTypeInput sender .address
    | .bool => (seed.poolOf sender).generateTypeInput sender .bool
    | _ =>
      match originArgs[input.2]? with
      | some arg => pure (some arg)
      | none => Random.lift (.error .indexOutOfRange)
  Random.lift (packed contract name args)

def msgValue (sender : Address) : Random Panic (Option Int) :=
  if ((contract.abi.method name).map Method.payable).getD false then do
    let n ← draw (seed.poolOf sender).etherAmountSeedList.length
    Random.lift ((seed.poolOf sender).selectEtherAmount n)
  else pure (some 0)

def msgData (sender : Address) : Random Panic Bytes :=
  match contract.methodCallMap.lookup name with
  | some inputs => do
    let data ← drawFrom inputs
    seed.mutateInputData contract name data sender
  | none => seed.generateInputData contract name sender

def generateMsg (sender target : Address) : Random Panic FuzzMessage := do
  let contract ← Random.lift (deref (seed.contracts.lookup target))
  let name ← drawFrom contract.methodList
  let amount ← seed.msgValue contract name sender
  let data ← seed.msgData contract name sender
  pure { fromAddr := sender, toAddr := target, amount := amount, data := data }

def selectSender : Random Panic (Address × Nat) := drawFrom seed.senderSeedList.zipIdx

def selectTo : Random Panic Address := drawFrom seed.toSeedList

def removeSender (index : Nat) : Seed := { seed with senderSeedList := seed.senderSeedList.eraseIdx index }

end Seed

section Extracted

variable {seed seed' : Seed} {order : SeedOrder} {txList : List ExternalTx} {sender : Address} {pool : SeedPool}
  (fits : order.Fits seed txList) (extracted : seed.initSeedFromFrontTxs order txList = .ok seed')
  (found : seed'.seedPoolMap.lookup sender = some pool) (fresh : seed.Fresh)

include fits extracted found

theorem extracted_pool : ∃ parsed raw, txList.foldlM Seed.parseTxForSeed seed = .ok parsed ∧
    parsed.seedPoolMap.lookup sender = some raw ∧ ∀ note, pool.lists note ↔ raw.has note := by
  obtain ⟨parsed, here, result⟩ := Machine.bind_ok.mp extracted
  cases result
  rw [Map.lookup_mapValues] at found
  obtain ⟨raw, known, rfl⟩ := Option.map_eq_some_iff.mp found
  exact ⟨parsed, raw, here, known, (fits parsed here sender raw known).lists⟩

include fresh

theorem lists_constant {note : PoolNote} (constant : initSeedPool.has note) : pool.lists note := by
  obtain ⟨parsed, raw, here, known, lists⟩ := extracted_pool fits extracted found
  rw [lists]
  exact (parseTxs_opened fresh.opened here).1.constants sender raw known note constant

theorem lists_iff (note : PoolNote) :
    pool.lists note ↔ ∃ exTx ∈ txList, TxNotes seed.abis exTx (sender, note) := by
  obtain ⟨parsed, raw, here, known, lists⟩ := extracted_pool fits extracted found
  have noted := (parseTxs_opened fresh.opened here).2 (sender, note)
  simp only [Seed.pools, known, fresh.pools, Map.lookup_empty, Option.some.injEq, exists_eq_left', reduceCtorEq,
    false_and, exists_false, false_or] at noted
  rw [lists, noted]

omit fits found in
theorem lookup_of_sends (sends : ∃ exTx ∈ txList, (rootOf exTx).map InternalTx.fromAddr = some sender) :
    seed'.seedPoolMap.lookup sender = some (SeedPool.updateMapToList (order.pools sender)) := by
  obtain ⟨exTx, member, sent⟩ := sends
  obtain ⟨parsed, here, result⟩ := Machine.bind_ok.mp extracted
  cases result
  obtain ⟨pool, known, -⟩ := ((parseTxs_opened fresh.opened here).2 (sender, .address 0)).mpr
    (.inr ⟨exTx, member, sent, .inl (constant_address List.mem_cons_self)⟩)
  rw [Map.lookup_mapValues, known, Option.map_some]

end Extracted

section Ether

/-- The value of the message can be transferred. -/
def Usable (amount : Option Int) : Prop := ∃ value, amount = some value ∧ 0 ≤ value

/-- Every call of the sender to a contract of the seed records an amount, as `StaticCall` and `DelegateCall` do not. -/
def RecordsAmounts (abis : Address → Option ABI) (txList : List ExternalTx) (sender : Address) : Prop :=
  ∀ exTx ∈ txList, (rootOf exTx).map InternalTx.fromAddr = some sender → ∀ node ∈ callsOf exTx,
    (abis node.1.toAddr).isSome → Usable node.1.value

theorem usable_etherText (value : Option Int) : Usable (setString 10 (etherText value)) ↔ Usable value := by
  cases value with
  | none => exact iff_of_false (fun ⟨_, parsed, _⟩ => nomatch parsed) (fun ⟨_, parsed, _⟩ => nomatch parsed)
  | some value => rw [etherText, setString_itoa]

variable {seed seed' : Seed} {order : SeedOrder} {txList : List ExternalTx} {sender : Address} {pool : SeedPool}

theorem argNote_ne_ether (t : AbiType) (arg : Option Value) (text : Bytes) : argNote t arg ≠ some (.ether text) := by
  unfold argNote
  split
  all_goals simp

theorem selectEtherAmount_ok {n : Nat} {amount : Option Int} (selected : pool.selectEtherAmount n = .ok amount) :
    ∃ text, pool.lists (.ether text) ∧ amount = setString 10 text := by
  unfold SeedPool.selectEtherAmount at selected
  split at selected
  · cases selected
  · rename_i text here
    cases selected
    exact ⟨text, List.mem_of_getElem? here, rfl⟩

theorem ethers_usable_iff (fresh : seed.Fresh) (fits : order.Fits seed txList)
    (extracted : seed.initSeedFromFrontTxs order txList = .ok seed')
    (found : seed'.seedPoolMap.lookup sender = some pool) :
    (∀ text, pool.lists (.ether text) → Usable (setString 10 text)) ↔ RecordsAmounts seed.abis txList sender := by
  simp only [lists_iff fits extracted found fresh]
  constructor
  · intro usable exTx member sent node inside known
    obtain ⟨abi, known⟩ := Option.isSome_iff_exists.mp known
    rw [← usable_etherText]
    exact usable _ ⟨exTx, member, sent, .inr ⟨node, inside, abi, known, .inr rfl⟩⟩
  · rintro records text ⟨exTx, member, sent, constant | ⟨node, inside, abi, known, noted | same⟩⟩
    · rcases (mem_keys_foldl_seen _ _ _).mp constant with empty | listed
      · cases empty
      · obtain ⟨number, -, rfl⟩ := List.mem_map.mp listed
        exact ⟨number, setString_decimal number, by omega⟩
    · obtain ⟨method, -, input, -, noted⟩ := noted
      exact absurd noted (argNote_ne_ether _ _ _)
    · cases same
      rw [usable_etherText]
      exact records exTx member sent node inside (by rw [known]; rfl)

theorem generateMsg_amount {target : Address} {source rest : Source} {msg : FuzzMessage}
    (generated : seed.generateMsg sender target source = .ok (msg, rest)) :
    msg.amount = some 0 ∨ ∃ n, (seed.poolOf sender).selectEtherAmount n = .ok msg.amount := by
  obtain ⟨contract, _, -, generated⟩ := Random.bind_ok.mp generated
  obtain ⟨name, _, -, generated⟩ := Random.bind_ok.mp generated
  obtain ⟨amount, _, drawn, generated⟩ := Random.bind_ok.mp generated
  obtain ⟨data, _, -, result⟩ := Random.bind_ok.mp generated
  cases result
  unfold Seed.msgValue at drawn
  split at drawn
  · obtain ⟨n, _, -, drawn⟩ := Random.bind_ok.mp drawn
    obtain ⟨_, selected, same⟩ := Random.lift_ok.mp drawn
    cases same
    exact .inr ⟨n, selected⟩
  · cases drawn
    exact .inl rfl

/-- The pool of the sender has only amounts, and every message has one. -/
theorem etherSeeds_usable_iff (loadABI : Address → ABI) (proxyInfo : ProxyInfo)
    (fits : order.Fits (Seed.initSeed loadABI proxyInfo) txList)
    (extracted : (Seed.initSeed loadABI proxyInfo).initSeedFromFrontTxs order txList = .ok seed')
    (found : seed'.seedPoolMap.lookup sender = some pool) :
    ((∀ n < pool.etherAmountSeedList.length, ∃ amount, pool.selectEtherAmount n = .ok amount ∧ Usable amount) ∧
      ∀ target source msg rest, seed'.generateMsg sender target source = .ok (msg, rest) → Usable msg.amount) ↔
    RecordsAmounts (Seed.initSeed loadABI proxyInfo).abis txList sender := by
  rw [← ethers_usable_iff (Seed.initSeed_fresh loadABI proxyInfo) fits extracted found]
  constructor
  · rintro ⟨drawn, -⟩ text listed
    obtain ⟨n, inside, selected⟩ := selectEtherAmount_of_mem listed
    obtain ⟨amount, same, usable⟩ := drawn n inside
    rw [selected] at same
    cases same
    exact usable
  · intro usable
    have selects {n : Nat} {amount : Option Int} (selected : pool.selectEtherAmount n = .ok amount) :
        Usable amount := by
      obtain ⟨text, listed, rfl⟩ := selectEtherAmount_ok selected
      exact usable text listed
    constructor
    · intro n inside
      have selected : pool.selectEtherAmount n = .ok (setString 10 pool.etherAmountSeedList[n]) := by
        rw [SeedPool.selectEtherAmount, List.getElem?_eq_getElem inside]
      exact ⟨_, selected, selects selected⟩
    · intro target source msg rest generated
      rcases generateMsg_amount generated with zero | ⟨n, selected⟩
      · exact ⟨0, zero, Int.le_refl 0⟩
      · rw [Seed.poolOf, found] at selected
        exact selects selected

end Ether

def payableMethod : Method :=
  { tokenMethod with inputs := [], stateMutability := .payable, payable := true, length_inputs := by decide }

def payableABI : ABI := ⟨[payableMethod], by decide, by decide⟩

def payableSeed : Seed := Seed.initSeed (fun _ => payableABI) ⟨[0x10], []⟩

theorem payable_canReturn {seed : Seed} {pool : SeedPool} {n : Nat} {amount : Option Int}
    (known : seed.contracts.lookup 0x10 = some { abi := payableABI }) (found : seed.seedPoolMap.lookup 0x20 = some pool)
    (inside : n < pool.etherAmountSeedList.length) (selected : pool.selectEtherAmount n = .ok amount) :
    Random.CanReturn (seed.generateMsg 0x20 0x10)
      { fromAddr := 0x20, toAddr := 0x10, amount := amount, data := [1, 1, 1, 1] } := by
  have payable : ((payableABI.method "deposit").map Method.payable).getD false = true := rfl
  have value : Random.CanReturn (seed.msgValue { abi := payableABI } "deposit" 0x20) amount := by
    rw [Seed.msgValue, if_pos payable, Seed.poolOf, found]
    refine (Random.CanReturn.int inside _).bind ?_
    simp only [Option.getD_some, selected]
    exact .lift amount
  rw [Seed.generateMsg, known]
  refine (Random.CanReturn.lift _).bind ((Random.CanReturn.pick (a := "deposit") List.mem_cons_self _ _).bind ?_)
  exact value.bind (Random.CanReturn.bind (a := [1, 1, 1, 1]) (.lift _) (.pure _))

def reaching (callType : CallType) (value : Option Int) : ExternalTx :=
  ⟨7, 0, [⟨0x20, 0x30, true, some 0, .call, [], [], [⟨0x30, 0x10, true, value, callType, [], [], []⟩]⟩]⟩

/-- A call that carries five wei. -/
theorem etherSeeds_usable_five : ∃ order : SeedOrder, order.Fits payableSeed [reaching .call (some 5)] ∧
    ∃ seed' pool, payableSeed.initSeedFromFrontTxs order [reaching .call (some 5)] = .ok seed' ∧
      seed'.seedPoolMap.lookup 0x20 = some pool ∧
      ∀ n < pool.etherAmountSeedList.length, ∃ amount, pool.selectEtherAmount n = .ok amount ∧ Usable amount := by
  obtain ⟨order, fits⟩ := exists_fits payableSeed [reaching .call (some 5)]
  obtain ⟨seed', extracted⟩ : ∃ seed', payableSeed.initSeedFromFrontTxs order [reaching .call (some 5)] = .ok seed' :=
    ⟨_, rfl⟩
  have found := lookup_of_sends extracted (Seed.initSeed_fresh _ _) ⟨_, List.mem_singleton_self _, rfl⟩
  refine ⟨order, fits, seed', _, extracted, found, ((etherSeeds_usable_iff _ _ fits extracted found).mpr ?_).1⟩
  intro exTx member _ node inside _
  cases List.mem_singleton.mp member
  rcases List.mem_cons.mp inside with rfl | inside
  · exact ⟨0, rfl, by decide⟩
  · cases List.mem_singleton.mp inside
    exact ⟨5, rfl, by decide⟩

/-- After a static call to the contract, the message of a payable method may have no value. -/
theorem staticCall_spoils : ∃ order : SeedOrder, order.Fits payableSeed [reaching .staticCall none] ∧
    ∃ seed' pool, payableSeed.initSeedFromFrontTxs order [reaching .staticCall none] = .ok seed' ∧
      seed'.seedPoolMap.lookup 0x20 = some pool ∧
      (∃ n < pool.etherAmountSeedList.length, pool.selectEtherAmount n = .ok none) ∧
      ∃ source msg rest, seed'.generateMsg 0x20 0x10 source = .ok (msg, rest) ∧ msg.amount = none := by
  obtain ⟨order, fits⟩ := exists_fits payableSeed [reaching .staticCall none]
  obtain ⟨seed', extracted, known⟩ : ∃ seed',
      payableSeed.initSeedFromFrontTxs order [reaching .staticCall none] = .ok seed' ∧
        seed'.contracts.lookup 0x10 = some { abi := payableABI } := ⟨_, rfl, rfl⟩
  have fresh := Seed.initSeed_fresh (fun _ => payableABI) ⟨[0x10], []⟩
  have found := lookup_of_sends extracted fresh ⟨_, List.mem_singleton_self _, rfl⟩
  have listed := (lists_iff fits extracted found fresh (.ether (etherText none))).mpr
    ⟨_, List.mem_singleton_self _, rfl, .inr ⟨_, List.mem_cons_of_mem _ List.mem_cons_self, _, rfl, .inr rfl⟩⟩
  obtain ⟨n, inside, selected⟩ := selectEtherAmount_of_mem listed
  have generated := payable_canReturn known found inside selected
  obtain ⟨source, sent⟩ := generated fun _ => 0
  exact ⟨order, fits, seed', _, extracted, found, ⟨n, inside, selected⟩, source, _, _, sent, rfl⟩

end IDWDetector.Hunter
