import IDWDetector.Hunter.Seeds
import IDWDetector.Vm.Visits

namespace IDWDetector.Hunter

open Vm Abi Go Machine

variable {data : Bytes} {contract : Contract} {args : List Value}

/-- What a call adds to a pool. -/
inductive PoolNote
  | int (number : BitVec 64)
  | uint (number : Uint64)
  | address (addr : Address)
  | ether (text : Bytes)

namespace SeedPool

def has (pool : SeedPool) : PoolNote → Prop
  | .int number => number ∈ pool.intSeedMap.keys
  | .uint number => number ∈ pool.uintSeedMap.keys
  | .address addr => addr ∈ pool.addressSeedMap.keys
  | .ether text => text ∈ pool.etherAmountSeedMap.keys

end SeedPool

theorem mem_keys_seen {κ : Type} [DecidableEq κ] (counts : Map κ Nat) (key other : κ) :
    other ∈ (seen counts key).keys ↔ other ∈ counts.keys ∨ other = key := by
  rw [Map.mem_keys, Map.mem_keys, seen, Map.lookup_upsert]
  split
  · rename_i same
    simp [same]
  · rename_i differ
    simp [differ]

theorem SeedPool.has_ether (pool : SeedPool) (text : Bytes) (note : PoolNote) :
    SeedPool.has { pool with etherAmountSeedMap := seen pool.etherAmountSeedMap text } note ↔
      pool.has note ∨ note = .ether text := by
  cases note
  all_goals simp [SeedPool.has, mem_keys_seen]

section Args

def argNote : AbiType → Option Value → Option PoolNote
  | .int _, some (.big value) => some (.int (BitVec.ofInt 64 value))
  | .uint _, some (.big value) => some (.uint (BitVec.ofNat 64 value.natAbs))
  | .address, some (.address addr) => some (.address addr)
  | _, _ => none

def ArgFits (t : AbiType) (arg : Option Value) : Prop :=
  match t with
  | .int _ => ∃ value, arg = some (.big value)
  | .uint _ => ∃ value, arg = some (.big value)
  | .address => ∃ addr, arg = some (.address addr)
  | _ => True

theorem parseArg_ok_iff (pool : SeedPool) (t : AbiType) (arg : Option Value) :
    (∃ pool', parseArg pool t arg = .ok pool') ↔ ArgFits t arg := by
  have asserted : ∀ value, (∃ pool', parseArg pool t (some value) = .ok pool') ↔ ArgFits t (some value) := by
    intro value
    cases t <;> cases value <;> simp [parseArg, ArgFits]
  cases arg with
  | some value => exact asserted value
  | none => cases t <;> simp [parseArg, ArgFits]

theorem parseArg_view {pool pool' : SeedPool} {t : AbiType} {arg : Option Value}
    (parsed : parseArg pool t arg = .ok pool') (note : PoolNote) :
    pool'.has note ↔ pool.has note ∨ argNote t arg = some note := by
  have fits := (parseArg_ok_iff pool t arg).mp ⟨pool', parsed⟩
  have silent (none : argNote t arg = Option.none) (same : parseArg pool t arg = .ok pool) :
      pool'.has note ↔ pool.has note ∨ argNote t arg = some note := by
    rw [same] at parsed
    cases parsed
    simp [none]
  cases t with
  | int size =>
    obtain ⟨value, rfl⟩ := fits
    cases parsed
    cases note
    all_goals simp [SeedPool.has, argNote, mem_keys_seen, eq_comm]
  | uint size =>
    obtain ⟨value, rfl⟩ := fits
    cases parsed
    cases note
    all_goals simp [SeedPool.has, argNote, mem_keys_seen, eq_comm]
  | address =>
    obtain ⟨addr, rfl⟩ := fits
    cases parsed
    cases note
    all_goals simp [SeedPool.has, argNote, mem_keys_seen, eq_comm]
  | bool => exact silent rfl rfl
  | string => exact silent rfl rfl
  | slice elem => exact silent rfl rfl
  | array size elem => exact silent rfl rfl
  | tuple elems => exact silent rfl rfl
  | fixedBytes size => exact silent rfl rfl
  | bytes => exact silent rfl rfl
  | function => exact silent rfl rfl

def ArgsFit (inputs : List AbiType) (args : List Value) : Prop :=
  ∀ input ∈ inputs.zipIdx, ArgFits input.1 args[input.2]?

def narrow : AbiType → Bool
  | .int size => machineSize size
  | .uint size => machineSize size
  | _ => false

theorem ArgFits.of_hasType {t : AbiType} {value : Value} (typed : HasType t value) :
    ArgFits t (some value) ↔ narrow t = false := by
  cases t
  all_goals cases value
  all_goals simp_all [ArgFits, narrow, HasType]

theorem argsFit_iff {inputs : List AbiType} (typed : HaveTypes inputs args) :
    ArgsFit inputs args ↔ ∀ t ∈ inputs, narrow t = false := by
  have each := List.forall₂_iff_get.mp typed.forall₂
  have here {index : Nat} (inside : index < inputs.length) :
      ArgFits inputs[index] args[index]? ↔ narrow inputs[index] = false := by
    rw [List.getElem?_eq_getElem (by omega)]
    exact ArgFits.of_hasType (each.2 index inside (by omega))
  constructor
  · intro fit t member
    obtain ⟨index, inside, rfl⟩ := List.getElem_of_mem member
    exact (here inside).mp (fit (inputs[index], index) (List.mem_zipIdx_iff_getElem?.mpr (by simp)))
  · intro wide input member
    obtain ⟨inside, same⟩ := List.getElem?_eq_some_iff.mp (List.mem_zipIdx_iff_getElem?.mp member)
    rw [← same]
    exact (here inside).mpr (wide _ (List.getElem_mem inside))

end Args

section Calls

def Noted (abi : ABI) (data : Bytes) (note : PoolNote) : Prop :=
  ∃ method, abi.methodById data = some method ∧
    ∃ input ∈ method.inputs.zipIdx, argNote input.1 (unpackedArgs method.inputs data)[input.2]? = some note

def InputFits (abi : ABI) (data : Bytes) : Prop :=
  ∀ method, abi.methodById data = some method → ArgsFit method.inputs (unpackedArgs method.inputs data)

theorem parseArgs_ok_iff (pool : SeedPool) (inputs : List AbiType) (args : List Value) :
    (∃ pool', inputs.zipIdx.foldlM (fun pool input => parseArg pool input.1 args[input.2]?) pool = .ok pool') ↔
      ArgsFit inputs args :=
  foldlM_ok_iff (fun _ => True) (fun _ _ _ _ _ => trivial)
    (fun pool input _ => parseArg_ok_iff pool input.1 args[input.2]?) trivial inputs.zipIdx

theorem parseMethodArgs_ok_iff (pool : SeedPool) (contract : Contract) (data : Bytes) :
    (∃ result, parseMethodArgs pool contract data = .ok result) ↔ InputFits contract.abi data := by
  unfold parseMethodArgs InputFits
  cases found : contract.abi.methodById data with
  | none => exact iff_of_true ⟨_, rfl⟩ nofun
  | some method =>
    simp only [Option.some.injEq, forall_eq']
    exact exists_bind_pure (parseArgs_ok_iff pool _ _)

theorem parseMethodArgs_view {pool pool' : SeedPool} {contract' : Contract}
    (parsed : parseMethodArgs pool contract data = .ok (pool', contract')) :
    contract'.abi = contract.abi ∧ (∀ note, pool'.has note ↔ pool.has note ∨ Noted contract.abi data note) ∧
      ∀ name input, input ∈ contract'.methodCallMap.getD name [] ↔ input ∈ contract.methodCallMap.getD name [] ∨
        input = data ∧ ∃ method, contract.abi.methodById data = some method ∧ method.name = name := by
  unfold parseMethodArgs at parsed
  unfold Noted
  cases found : contract.abi.methodById data with
  | none =>
    rw [found] at parsed
    cases parsed
    simp
  | some method =>
    rw [found] at parsed
    obtain ⟨pool'', loop, result⟩ := bind_ok.mp parsed
    cases result
    refine ⟨rfl, ?_, ?_⟩
    · intro note
      have added := (foldlM_view (fun _ => True) SeedPool.has
        (fun input note => argNote input.1 (unpackedArgs method.inputs data)[input.2]? = some note)
        (fun _ _ _ _ here => ⟨trivial, parseArg_view here⟩) trivial loop).2 note
      simpa using added
    · intro name input
      rw [Map.getD_upsert]
      simp only [Option.some.injEq, exists_eq_left']
      split
      · rename_i same
        rw [List.mem_append, List.mem_singleton, same]
        simp [Map.getD]
      · rename_i differ
        simp [Ne.symm differ]

def Interfaces (abis : Address → Option ABI) (contracts : Map Address Contract) : Prop :=
  ∀ addr, (contracts.lookup addr).map Contract.abi = abis addr

def Stores (contracts : Map Address Contract) (kept : Address × String × Bytes) : Prop :=
  ∃ contract, contracts.lookup kept.1 = some contract ∧ kept.2.2 ∈ contract.methodCallMap.getD kept.2.1 []

section Tree

variable (abis : Address → Option ABI)

def CallFits (node : InternalTx × List Entry) : Prop :=
  ∀ abi, abis node.1.toAddr = some abi → InputFits abi node.1.input

def CallNotes (node : InternalTx × List Entry) (note : PoolNote) : Prop :=
  ∃ abi, abis node.1.toAddr = some abi ∧ (Noted abi node.1.input note ∨ note = .ether (etherText node.1.value))

def CallStores (node : InternalTx × List Entry) (kept : Address × String × Bytes) : Prop :=
  ∃ abi method, abis node.1.toAddr = some abi ∧ abi.methodById node.1.input = some method ∧
    kept = (node.1.toAddr, method.name, node.1.input)

def parseNode (state : SeedPool × Map Address Contract) (node : InternalTx × List Entry) :
    Except Panic (SeedPool × Map Address Contract) :=
  parseCall state node.1.toAddr node.1.input node.1.value

variable {abis} {state state' : SeedPool × Map Address Contract}

theorem parseNode_ok_iff (interfaces : Interfaces abis state.2) (node : InternalTx × List Entry) :
    (∃ state', parseNode state node = .ok state') ↔ CallFits abis node := by
  unfold parseNode parseCall CallFits
  rw [← interfaces]
  cases found : state.2.lookup node.1.toAddr with
  | none => exact iff_of_true ⟨state, rfl⟩ nofun
  | some contract =>
    simp only [Option.map_some, Option.some.injEq, forall_eq', ← parseMethodArgs_ok_iff state.1, bind_ok]
    constructor
    · rintro ⟨_, result, parsed, -⟩
      exact ⟨result, parsed⟩
    · rintro ⟨result, parsed⟩
      exact ⟨_, result, parsed, rfl⟩

theorem parseNode_view (interfaces : Interfaces abis state.2) {node : InternalTx × List Entry}
    (parsed : parseNode state node = .ok state') :
    Interfaces abis state'.2 ∧ (∀ note, state'.1.has note ↔ state.1.has note ∨ CallNotes abis node note) ∧
      ∀ kept, Stores state'.2 kept ↔ Stores state.2 kept ∨ CallStores abis node kept := by
  have known := interfaces node.1.toAddr
  unfold parseNode parseCall at parsed
  unfold CallNotes CallStores
  cases found : state.2.lookup node.1.toAddr with
  | none =>
    rw [found] at parsed known
    cases parsed
    simp [← known, interfaces]
  | some contract =>
    rw [found] at parsed known
    obtain ⟨⟨pool, contract'⟩, here, result⟩ := bind_ok.mp parsed
    obtain ⟨sameAbi, notes, inputs⟩ := parseMethodArgs_view here
    cases result
    refine ⟨?_, ?_, ?_⟩
    · intro addr
      rw [Map.lookup_set]
      split_ifs with same
      · rw [same, ← known, Option.map_some, Option.map_some, sameAbi]
      · exact interfaces addr
    · intro note
      rw [SeedPool.has_ether, notes, or_assoc, ← known]
      simp
    · rintro ⟨addr, name, input⟩
      have kept := inputs name input
      rw [← known]
      simp only [Stores, Map.lookup_set, Option.map_some, Option.some.injEq, exists_and_left, exists_eq_left',
        Prod.mk.injEq]
      split
      · rename_i same
        subst same
        simp only [Option.some.injEq, exists_eq_left', found, kept, true_and]
        apply or_congr_right
        constructor
        · rintro ⟨rfl, method, byId, rfl⟩
          exact ⟨method, byId, rfl, rfl⟩
        · rintro ⟨method, byId, rfl, rfl⟩
          exact ⟨rfl, method, byId, rfl⟩
      · rename_i differ
        simp [differ]

mutual

theorem parseTxForSeedUtil_eq (tx : InternalTx) (state : SeedPool × Map Address Contract) :
    parseTxForSeedUtil tx state = tx.nodes.foldlM parseNode state := by
  obtain ⟨_, _, _, _, _, _, _, inTxs⟩ := tx
  rw [parseTxForSeedUtil, InternalTx.nodes, List.foldlM_cons]
  congr 1
  funext state
  exact parseTxsForSeed_eq inTxs state

theorem parseTxsForSeed_eq (txs : List InternalTx) (state : SeedPool × Map Address Contract) :
    parseTxsForSeed txs state = (nodesOf txs).foldlM parseNode state := by
  cases txs with
  | nil => rfl
  | cons tx rest =>
    rw [parseTxsForSeed, nodesOf, List.foldlM_append, parseTxForSeedUtil_eq tx state]
    congr 1
    funext state
    exact parseTxsForSeed_eq rest state

end

end Tree

end Calls

section History

def rootOf (exTx : ExternalTx) : Option InternalTx :=
  match exTx.inTxs with
  | [root] => some root
  | _ => none

def callsOf (exTx : ExternalTx) : List (InternalTx × List Entry) := ((rootOf exTx).map InternalTx.nodes).getD []

def Seed.pools (seed : Seed) (pooled : Address × PoolNote) : Prop :=
  ∃ pool, seed.seedPoolMap.lookup pooled.1 = some pool ∧ pool.has pooled.2

structure Seed.Opened (abis : Address → Option ABI) (seed : Seed) : Prop where
  interfaces : Interfaces abis seed.contracts
  constants : ∀ sender pool, seed.seedPoolMap.lookup sender = some pool → ∀ note, initSeedPool.has note → pool.has note

def TxNotes (abis : Address → Option ABI) (exTx : ExternalTx) (pooled : Address × PoolNote) : Prop :=
  (rootOf exTx).map InternalTx.fromAddr = some pooled.1 ∧
    (initSeedPool.has pooled.2 ∨ ∃ node ∈ callsOf exTx, CallNotes abis node pooled.2)

def TxStores (abis : Address → Option ABI) (exTx : ExternalTx) (kept : Address × String × Bytes) : Prop :=
  ∃ node ∈ callsOf exTx, CallStores abis node kept

variable {abis : Address → Option ABI} {seed seed' : Seed} {exTx : ExternalTx} {root : InternalTx}

theorem parseTxForSeed_none (none : rootOf exTx = none) : seed.parseTxForSeed exTx = .ok seed := by
  unfold rootOf at none
  unfold Seed.parseTxForSeed
  rcases shape : exTx.inTxs with _ | ⟨root, _ | ⟨second, rest⟩⟩
  · rfl
  · simp only [shape] at none
    cases none
  · rfl

theorem parseTxForSeed_some (found : rootOf exTx = some root) :
    seed.parseTxForSeed exTx = (root.nodes.foldlM parseNode
      ((seed.seedPoolMap.lookup root.fromAddr).getD initSeedPool, seed.contracts)).map fun state =>
        { seed with
          senderSeedMap := seen seed.senderSeedMap root.fromAddr
          contracts := state.2
          seedPoolMap := seed.seedPoolMap.set root.fromAddr state.1 } := by
  unfold rootOf at found
  unfold Seed.parseTxForSeed
  rcases shape : exTx.inTxs with _ | ⟨only, _ | ⟨second, rest⟩⟩ <;> simp only [shape] at found
  · cases found
  · cases found
    simp only [parseTxForSeedUtil_eq]
    cases root.nodes.foldlM parseNode ((seed.seedPoolMap.lookup root.fromAddr).getD initSeedPool, seed.contracts)
    · rfl
    · rfl
  · cases found

variable (opened : seed.Opened abis)
include opened

theorem parseTxForSeed_ok_iff (exTx : ExternalTx) :
    (∃ seed', seed.parseTxForSeed exTx = .ok seed') ↔ ∀ node ∈ callsOf exTx, CallFits abis node := by
  unfold callsOf
  cases found : rootOf exTx with
  | none => exact iff_of_true ⟨seed, parseTxForSeed_none found⟩ nofun
  | some root =>
    have walk := foldlM_ok_iff (fun state : SeedPool × Map Address Contract => Interfaces abis state.2)
      (fun _ _ _ interfaces parsed => (parseNode_view interfaces parsed).1)
      (fun _ node interfaces => parseNode_ok_iff interfaces node)
      (show Interfaces abis ((seed.seedPoolMap.lookup root.fromAddr).getD initSeedPool, seed.contracts).2 from
        opened.interfaces) root.nodes
    rw [Option.map_some, Option.getD_some, ← walk, parseTxForSeed_some found]
    simp only [map_ok]
    exact ⟨fun ⟨_, state, parsed, _⟩ => ⟨state, parsed⟩, fun ⟨state, parsed⟩ => ⟨_, state, parsed, rfl⟩⟩

theorem Seed.Opened.start (sender : Address) (note : PoolNote) :
    ((seed.seedPoolMap.lookup sender).getD initSeedPool).has note ↔
      seed.pools (sender, note) ∨ initSeedPool.has note := by
  unfold Seed.pools
  cases found : seed.seedPoolMap.lookup sender with
  | none => simp
  | some pool =>
    simp only [Option.getD_some, Option.some.injEq, exists_eq_left']
    exact ⟨.inl, fun has => has.elim id (opened.constants sender pool found note)⟩

theorem parseTxForSeed_view (parsed : seed.parseTxForSeed exTx = .ok seed') :
    seed'.Opened abis ∧ (∀ pooled, seed'.pools pooled ↔ seed.pools pooled ∨ TxNotes abis exTx pooled) ∧
      ∀ kept, Stores seed'.contracts kept ↔ Stores seed.contracts kept ∨ TxStores abis exTx kept := by
  unfold TxNotes TxStores callsOf
  cases found : rootOf exTx with
  | none =>
    rw [parseTxForSeed_none found] at parsed
    cases parsed
    simp [opened]
  | some root =>
    rw [parseTxForSeed_some found] at parsed
    obtain ⟨⟨pool, contracts⟩, walked, rfl⟩ := map_ok.mp parsed
    have start : Interfaces abis ((seed.seedPoolMap.lookup root.fromAddr).getD initSeedPool, seed.contracts).2 :=
      opened.interfaces
    have noted := foldlM_view (fun state : SeedPool × Map Address Contract => Interfaces abis state.2)
      (fun state => state.1.has) (CallNotes abis) (fun _ _ _ interfaces parsed =>
        ⟨(parseNode_view interfaces parsed).1, (parseNode_view interfaces parsed).2.1⟩) start walked
    have stored := foldlM_view (fun state : SeedPool × Map Address Contract => Interfaces abis state.2)
      (fun state => Stores state.2) (CallStores abis) (fun _ _ _ interfaces parsed =>
        ⟨(parseNode_view interfaces parsed).1, (parseNode_view interfaces parsed).2.2⟩) start walked
    have has (note : PoolNote) : pool.has note ↔ seed.pools (root.fromAddr, note) ∨ initSeedPool.has note ∨
        ∃ node ∈ root.nodes, CallNotes abis node note := by
      rw [noted.2, opened.start, or_assoc]
    refine ⟨⟨noted.1, ?_⟩, ?_, stored.2⟩
    · intro sender other known note new
      rcases Map.of_lookup_set known with ⟨-, rfl⟩ | known
      · exact (has note).mpr (.inr (.inl new))
      · exact opened.constants sender other known note new
    · rintro ⟨sender, note⟩
      rcases eq_or_ne sender root.fromAddr with rfl | differ
      · simpa [Seed.pools] using has note
      · simp [Seed.pools, Map.lookup_set, differ, Ne.symm differ]

theorem parseTxs_ok_iff (txList : List ExternalTx) :
    (∃ seed', txList.foldlM Seed.parseTxForSeed seed = .ok seed') ↔
      ∀ exTx ∈ txList, ∀ node ∈ callsOf exTx, CallFits abis node :=
  foldlM_ok_iff (Seed.Opened abis) (fun _ _ _ opened parsed => (parseTxForSeed_view opened parsed).1)
    (fun _ exTx opened => parseTxForSeed_ok_iff opened exTx) opened txList

theorem parseTxs_opened {txList : List ExternalTx} (parsed : txList.foldlM Seed.parseTxForSeed seed = .ok seed') :
    seed'.Opened abis ∧ ∀ pooled, seed'.pools pooled ↔ seed.pools pooled ∨ ∃ exTx ∈ txList, TxNotes abis exTx pooled :=
  foldlM_view (Seed.Opened abis) Seed.pools (TxNotes abis) (fun _ _ _ opened parsed =>
    ⟨(parseTxForSeed_view opened parsed).1, (parseTxForSeed_view opened parsed).2.1⟩) opened parsed

theorem parseTxs_view {txList : List ExternalTx} (parsed : txList.foldlM Seed.parseTxForSeed seed = .ok seed') :
    (∀ pooled, seed'.pools pooled ↔ seed.pools pooled ∨ ∃ exTx ∈ txList, TxNotes abis exTx pooled) ∧
      Interfaces abis seed'.contracts ∧
      ∀ kept, Stores seed'.contracts kept ↔ Stores seed.contracts kept ∨ ∃ exTx ∈ txList, TxStores abis exTx kept := by
  have stored := foldlM_view (Seed.Opened abis) (fun seed => Stores seed.contracts) (TxStores abis)
    (fun _ _ _ opened parsed => ⟨(parseTxForSeed_view opened parsed).1, (parseTxForSeed_view opened parsed).2.2⟩)
    opened parsed
  exact ⟨(parseTxs_opened opened parsed).2, stored.1.interfaces, stored.2⟩

end History

namespace Seed

def abis (seed : Seed) (addr : Address) : Option ABI := (seed.contracts.lookup addr).map Contract.abi

structure Fresh (seed : Seed) : Prop where
  pools : seed.seedPoolMap = .empty
  inputs : ∀ kept, ¬Stores seed.contracts kept

theorem Fresh.opened {seed : Seed} (fresh : seed.Fresh) : seed.Opened seed.abis where
  interfaces := fun _ => rfl
  constants := by
    intro sender pool found
    rw [fresh.pools] at found
    cases found

theorem Fresh.initContract {seed : Seed} (fresh : seed.Fresh) (loadABI : Address → ABI) (contract : Address) :
    (seed.initContract loadABI contract).Fresh where
  pools := fresh.pools
  inputs := by
    rintro kept ⟨found, known, stored⟩
    rcases Map.of_lookup_set known with ⟨-, rfl⟩ | known
    · cases stored
    · exact fresh.inputs kept ⟨found, known, stored⟩

theorem initSeed_rec {motive : Seed → Prop} {loadABI : Address → ABI} (start : motive {})
    (step : ∀ seed contract, motive seed → motive (seed.initContract loadABI contract)) (proxyInfo : ProxyInfo) :
    motive (initSeed loadABI proxyInfo) := by
  refine List.foldlRecOn _ _ (List.foldlRecOn _ _ start fun seed holds contract _ => step seed contract holds) ?_
  intro seed holds token _
  split
  · exact step seed token holds
  · exact holds

theorem initSeed_fresh (loadABI : Address → ABI) (proxyInfo : ProxyInfo) : (initSeed loadABI proxyInfo).Fresh :=
  initSeed_rec ⟨rfl, fun _ ⟨_, known, _⟩ => nomatch known⟩ (fun _ contract fresh => fresh.initContract loadABI contract)
    proxyInfo

/-- `InitSeedFromFrontTxs` returns, every stored input decodes under its method, and no mutation reads past the
    arguments. -/
def ExtractsSoundly (seed : Seed) (order : SeedOrder) (txList : List ExternalTx) : Prop :=
  ∃ seed', seed.initSeedFromFrontTxs order txList = .ok seed' ∧
    ∀ addr contract, seed'.contracts.lookup addr = some contract →
      ∀ name data, data ∈ contract.methodCallMap.getD name [] →
        (∃ method args, contract.abi.method name = some method ∧ unpack method.inputs (data.drop 4) = .ok args) ∧
          ∀ generate, ∃ newArgs, contract.mutateArgs generate name data = .ok newArgs

/-- The calls to seed contracts decode under their methods, which have no integers of a machine width. -/
def DecodesWide (abis : Address → Option ABI) (txList : List ExternalTx) : Prop :=
  ∀ exTx ∈ txList, ∀ node ∈ callsOf exTx, ∀ abi method, abis node.1.toAddr = some abi →
    abi.methodById node.1.input = some method →
      (∃ args, unpack method.inputs (node.1.input.drop 4) = .ok args) ∧ ∀ t ∈ method.inputs, narrow t = false

end Seed

theorem unpackedArgs_of_ok {inputs : List AbiType} (decoded : unpack inputs (data.drop 4) = .ok args) :
    unpackedArgs inputs data = args := by
  rw [unpackedArgs, decoded]
  rfl

theorem Contract.mutateArgs_ok {name : String} {method : Method} (known : contract.abi.method name = some method)
    (decoded : unpack method.inputs (data.drop 4) = .ok args) (generate : AbiType → Value) :
    ∃ newArgs, contract.mutateArgs generate name data = .ok newArgs := by
  unfold Contract.mutateArgs
  simp only [known, Option.map_some, Option.getD_some, unpackedArgs_of_ok decoded]
  apply mapM_total
  rintro ⟨t, index⟩ member
  have inside : index < args.length := by
    rw [← (unpack_haveTypes decoded).forall₂.length_eq]
    exact (List.getElem?_eq_some_iff.mp (List.mem_zipIdx_iff_getElem?.mp member)).1
  cases t
  all_goals simp [List.getElem?_eq_getElem inside]

theorem Interfaces.method {abis : Address → Option ABI} {contracts : Map Address Contract}
    (interfaces : Interfaces abis contracts) {addr : Address} {abi : ABI} {sigdata : Bytes} {method : Method}
    (found : contracts.lookup addr = some contract) (known : abis addr = some abi)
    (byId : abi.methodById sigdata = some method) : contract.abi.method method.name = some method := by
  have same := interfaces addr
  rw [found, known] at same
  rw [show contract.abi = abi from Option.some.inj same]
  exact (abi.method_eq_some_iff).mpr ⟨abi.methodById_mem byId, rfl⟩

theorem seedExtraction_sound_iff (loadABI : Address → ABI) (proxyInfo : ProxyInfo) (order : SeedOrder)
    (txList : List ExternalTx) :
    (Seed.initSeed loadABI proxyInfo).ExtractsSoundly order txList ↔
      Seed.DecodesWide (Seed.initSeed loadABI proxyInfo).abis txList := by
  have fresh := Seed.initSeed_fresh loadABI proxyInfo
  generalize Seed.initSeed loadABI proxyInfo = seed at fresh ⊢
  constructor
  · rintro ⟨seed', extracted, sound⟩ exTx member node inside abi method known byId
    obtain ⟨parsed, here, result⟩ := bind_ok.mp extracted
    cases result
    obtain ⟨-, interfaces, stored⟩ := parseTxs_view fresh.opened here
    have fits := (parseTxs_ok_iff fresh.opened txList).mp ⟨parsed, here⟩ exTx member node inside abi known method byId
    obtain ⟨contract, found, kept⟩ := (stored (node.1.toAddr, method.name, node.1.input)).mpr
      (.inr ⟨exTx, member, node, inside, abi, method, known, byId, rfl⟩)
    obtain ⟨⟨other, args, named, decoded⟩, -⟩ := sound node.1.toAddr contract found method.name node.1.input kept
    rw [interfaces.method found known byId] at named
    cases named
    rw [unpackedArgs_of_ok decoded] at fits
    exact ⟨⟨args, decoded⟩, (argsFit_iff (unpack_haveTypes decoded)).mp fits⟩
  · intro wide
    have completes : ∃ parsed, txList.foldlM Seed.parseTxForSeed seed = .ok parsed := by
      rw [parseTxs_ok_iff fresh.opened]
      intro exTx member node inside abi known method byId
      obtain ⟨⟨args, decoded⟩, types⟩ := wide exTx member node inside abi method known byId
      rw [unpackedArgs_of_ok decoded]
      exact (argsFit_iff (unpack_haveTypes decoded)).mpr types
    obtain ⟨parsed, here⟩ := completes
    obtain ⟨-, interfaces, stored⟩ := parseTxs_view fresh.opened here
    refine ⟨_, bind_ok.mpr ⟨parsed, here, rfl⟩, ?_⟩
    intro addr contract found name data kept
    rcases (stored (addr, name, data)).mp ⟨contract, found, kept⟩ with before | later
    · exact absurd before (fresh.inputs _)
    obtain ⟨exTx, member, node, inside, abi, method, known, byId, same⟩ := later
    cases same
    obtain ⟨⟨args, decoded⟩, -⟩ := wide exTx member node inside abi method known byId
    have named := interfaces.method found known byId
    exact ⟨⟨method, args, named, decoded⟩, Contract.mutateArgs_ok named decoded⟩

theorem length_methodId_one : ([1, 1, 1, 1] : Bytes).length = 4 := rfl

theorem length_methodId_two : ([2, 2, 2, 2] : Bytes).length = 4 := rfl

def narrowABI : ABI where
  methods := [{ name := "f", id := [1, 1, 1, 1], inputs := [.uint 8], length_id := length_methodId_one },
    { name := "g", id := [2, 2, 2, 2], inputs := [.bytes], length_id := length_methodId_two }]
  names := by decide
  ids := by decide

def narrowSeed : Seed := Seed.initSeed (fun _ => narrowABI) ⟨[0x10], []⟩

def callWith (input : Bytes) : ExternalTx := ⟨7, 0, [⟨0x20, 0x10, true, some 0, .call, input, [], []⟩]⟩

/-- The well-formed argument 5 of `f` makes the extraction panic; the mutation of the stored input of `g` panics. -/
theorem narrowSeed_panics :
    (∀ order, narrowSeed.initSeedFromFrontTxs order [callWith ([1, 1, 1, 1] ++ List.replicate 31 0 ++ [5])] =
      .error .typeAssertion) ∧
    ∀ order, ∃ seed' contract, narrowSeed.initSeedFromFrontTxs order [callWith [2, 2, 2, 2]] = .ok seed' ∧
      seed'.contracts.lookup 0x10 = some contract ∧ [2, 2, 2, 2] ∈ contract.methodCallMap.getD "g" [] ∧
      contract.mutateArgs (fun _ => .big 0) "g" [2, 2, 2, 2] = .error .indexOutOfRange := by
  refine ⟨fun _ => rfl, fun _ => ⟨_, _, rfl, rfl, ?_, rfl⟩⟩
  decide

end IDWDetector.Hunter
