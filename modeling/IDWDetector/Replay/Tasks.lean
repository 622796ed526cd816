import IDWDetector.Core.StateTransition
import IDWDetector.Hunter.Collectors
import IDWDetector.Research.Writing
import IDWDetector.State.Noted

namespace IDWDetector.Replay

open State Vm IDWDetector.Core Hunter Go Machine

inductive TaskError
  | applyMessage (err : TransitionError)
  | noBlockHashes (num : Uint64)
  | blockHashMissing (num : Uint64)
  | inconsistentOutput
deriving DecidableEq

/-- What the tasks use of the chain configuration and of package crypto. -/
structure Chain where
  keccak : Bytes → Hash
  createAddress : Address → Uint64 → Address
  logsBloom : List Log → BitVec 2048
  isByzantium : Uint64 → Bool
  isEIP158 : Uint64 → Bool

/-- What `core.ApplyMessage` did: its results, the operations on the accounts, the block hashes asked for, the call
    tree and the logs. -/
structure Applied where
  ops : List Op
  result : Except TransitionError ExecutionResult
  asked : List Uint64
  inTxs : List InternalTx
  logs : List Log

/-- The orders in which Go iterates the input alloc and its storage maps. -/
structure Orders where
  order : List Address
  slots : Address → List Hash

structure Orders.Enumerate (orders : Orders) (alloc : SubstateAlloc) : Prop where
  order : Map.Enumerates orders.order alloc
  slots : ∀ addr sa, alloc.lookup addr = some (some sa) → Map.Enumerates (orders.slots addr) sa.storage

structure Collectors where
  dapps : DappMaps
  tokenSwapMap : Map Address String

/-- What a task returns, and what its collectors dumped. -/
structure Report where
  outcome : Option TaskError
  history : Finset (HistoryKind × String) := ∅
  swaps : Finset String := ∅
  env : Finset String := ∅

/-- `hashError` after the calls of `getHash`; `made` says that `BlockHashes` is not nil. -/
def hashError (made : Bool) (blockHashes : Map Uint64 Hash) (asked : List Uint64) : Option TaskError :=
  asked.foldl (fun err num =>
    if !made then some (.noBlockHashes num)
    else if (blockHashes.lookup num).isNone then some (.blockHashMissing num) else err) none

def txHash : Hash := 0x0200000000000000000000000000000000000000000000000000000000000000

section Tasks

variable (chain : Chain) (collectors : Collectors) (made : Bool) (substate : Substate) (tx : Int) (applied : Applied)

def prepared (orders : Orders) : Except Panic StateDB := do
  let statedb ← makeOffTheChainStateDB chain.keccak substate.inputAlloc orders.order orders.slots
  .ok (statedb.prepare txHash tx)

def execute (orders : Orders) : Except Panic (Nat × StateDB) := do
  let statedb ← prepared chain substate tx orders
  let (_, after) ← statedb.snapshot.2.operate chain.keccak applied.ops
  .ok (statedb.snapshot.1, after)

def finish (statedb : StateDB) : Except Panic SubstateAlloc := do
  let number := substate.env.number
  let statedb ←
    if chain.isByzantium number then statedb.finalise chain.keccak true
    else statedb.intermediateRoot chain.keccak (chain.isEIP158 number)
  .ok statedb.researchPostAlloc

def evmResult (msgResult : ExecutionResult) : SubstateResult where
  status := if msgResult.err.isSome then 0 else 1
  bloom := chain.logsBloom applied.logs
  logs := applied.logs
  contractAddress := if substate.message.toAddr = none then
    chain.createAddress substate.message.fromAddr substate.message.nonce else 0
  gasUsed := msgResult.usedGas

def checkOutput (evmAlloc : SubstateAlloc) (evmResult : SubstateResult) : Option TaskError :=
  if substate.result.equal evmResult && substate.outputAlloc.equal evmAlloc then none else some .inconsistentOutput

def replayTask (orders : Orders) : Except Panic Report := do
  let (snapshot, statedb) ← execute chain substate tx applied orders
  match applied.result with
  | .error err => do
    let _ ← statedb.revertToSnapshot snapshot
    .ok { outcome := some (.applyMessage err) }
  | .ok msgResult =>
    match hashError made substate.env.blockHashes applied.asked with
    | some err => .ok { outcome := some err }
    | none => do
      let evmAlloc ← finish chain substate statedb
      .ok { outcome := checkOutput substate evmAlloc (evmResult chain substate applied msgResult) }

/-- The collectors of `executeRegularMsgs`, which look at a successful message only. -/
def collectHistory (msgResult : ExecutionResult) : Except Panic Report :=
  if msgResult.err = none then do
    let history ← TxCollector.parseTxAndDump collectors.dapps false true applied.inTxs
    let swaps := TokenCollector.collectTokenSwap collectors.tokenSwapMap true applied.inTxs
    .ok { outcome := none, history := history, swaps := swaps }
  else .ok { outcome := none }

/-- `msgResult.Err` is read before `err` is checked, and `msgResult` is nil if there is one. -/
def executeRegularMsgs (orders : Orders) : Except Panic
    (Report × Except TaskError (SubstateAlloc × SubstateResult)) := do
  let (_, statedb) ← execute chain substate tx applied orders
  match applied.result with
  | .error _ => .error .nilDereference
  | .ok msgResult => do
    let report ← collectHistory collectors applied msgResult
    match hashError made substate.env.blockHashes applied.asked with
    | some err => .ok (report, .error err)
    | none => do
      let evmAlloc ← finish chain substate statedb
      .ok (report, .ok (evmAlloc, evmResult chain substate applied msgResult))

def replayTaskSu (orders : Orders) : Except Panic Report := do
  let (report, executed) ← executeRegularMsgs chain collectors made substate tx applied orders
  match executed with
  | .error err => .ok { report with outcome := some err }
  | .ok (evmAlloc, evmResult) => .ok { report with outcome := checkOutput substate evmAlloc evmResult }

/-- The environment is collected before `err` is checked. -/
def seedGenerationTask (orders : Orders) : Except Panic Report := do
  let (snapshot, statedb) ← execute chain substate tx applied orders
  let env := EnvCollector.collectEnv collectors.dapps true applied.inTxs
  match applied.result with
  | .error err => do
    let _ ← statedb.revertToSnapshot snapshot
    .ok { outcome := some (.applyMessage err), env := env }
  | .ok msgResult =>
    match hashError made substate.env.blockHashes applied.asked with
    | some err => .ok { outcome := some err, env := env }
    | none => do
      let evmAlloc ← finish chain substate statedb
      .ok { outcome := checkOutput substate evmAlloc (evmResult chain substate applied msgResult), env := env }

end Tasks

section Starting

def startLedger (alloc : SubstateAlloc) : State.Ledger where
  accounts := fun addr => (alloc.lookup addr).join.map Account.rebuilt
  changes := []
  sticky := fun _ => 0
  record := .empty
  revisions := [(-1, 0)]
  next := 0

theorem startLedger_noted (alloc : SubstateAlloc) : (startLedger alloc).Noted := by
  constructor
  · intro addr sa found
    cases found
  · intro addr member
    cases member
  · intro addr _
    exact ⟨rfl, fun change member => by cases member⟩

theorem accounts_of_setAccounts {alloc : SubstateAlloc} {slots : Address → List Hash} {s t : StateDB}
    {order : List Address} (made : State.setAccounts alloc slots s order = .ok t) :
    ∀ addr ∈ order, ∃ sa, alloc.lookup addr = some (some sa) := by
  induction order generalizing s with
  | nil => simp
  | cons first rest ih =>
    rw [State.setAccounts] at made
    split at made
    · cases made
    · rename_i sa found
      intro addr member
      rcases List.mem_cons.mp member with rfl | member
      · exact ⟨sa, Option.join_eq_some_iff.mp found⟩
      · exact ih made addr member

theorem pending_of_commit {keccak : Bytes → Hash} {s t : StateDB} (committed : s.commit keccak false = .ok t) :
    t.stateObjectsPending = ∅ := by
  obtain ⟨middle, first, second⟩ := bind_ok.mp committed
  obtain ⟨final, -, flushed⟩ := bind_ok.mp first
  unfold StateDB.flushPending at flushed
  unfold StateDB.commitObjects at second
  split at flushed
  · cases flushed
  · split at second
    · cases second
    · cases flushed
      cases second
      rfl

variable (chain : Chain) (substate : Substate) (tx : Int) {orders : Orders}

def Allocated (alloc : SubstateAlloc) : Prop := ∀ addr, alloc.lookup addr ≠ some none

theorem prepared_ok (enumerate : orders.Enumerate substate.inputAlloc) (allocated : Allocated substate.inputAlloc) :
    ∃ s, prepared chain substate tx orders = .ok s ∧ s.researchPostAlloc = .empty ∧ s.stateObjectsPending = ∅ ∧
      StateDB.Models (fun _ => False) s.snapshot.2.nextRevisionId s.snapshot.2 (startLedger substate.inputAlloc) := by
  have accounts : ∀ addr ∈ orders.order, ∃ sa, substate.inputAlloc.lookup addr = some (some sa) ∧
      Map.Enumerates (orders.slots addr) sa.storage := by
    intro addr member
    obtain ⟨entry, found⟩ := (Map.mem_keys_iff _ _).mp ((enumerate.order.mem_iff addr).mp member)
    cases entry with
    | none => exact absurd found (allocated addr)
    | some sa => exact ⟨sa, found, enumerate.slots addr sa found⟩
  obtain ⟨t, built, journal, revisions, stored, absent⟩ : ∃ t, makeOffTheChainStateDB chain.keccak
      substate.inputAlloc orders.order orders.slots = .ok t ∧ _ := makeOffTheChainStateDB_spec enumerate.order accounts
  have boundary := StateDB.offTheChain_boundary journal revisions stored absent
  have pending : t.stateObjectsPending = ∅ := by
    obtain ⟨middle, -, committed⟩ := bind_ok.mp built
    exact pending_of_commit committed
  refine ⟨t.prepare txHash tx, bind_ok.mpr ⟨t, built, rfl⟩, rfl, pending, ?_⟩
  have sound := boundary.sound (fun _ _ marked => marked) txHash tx
  have same (addr : Address) : ((t.prepare txHash tx).ledger t.nextRevisionId).accounts addr =
      (substate.inputAlloc.lookup addr).join.map Account.rebuilt := StateDB.offTheChain_accounts stored absent addr
  refine ⟨{ sound with }, ?_⟩
  have revised : (t.prepare txHash tx).validRevisions = [] := revisions
  have entries : (t.prepare txHash tx).journal = .new := journal
  simp only [StateDB.ledger, StateDB.snapshot, startLedger, State.Ledger.mk.injEq, revised, entries]
  refine ⟨funext same, rfl, rfl, rfl, ?_, ?_⟩
  · simp only [List.nil_append, List.map_cons, List.map_nil, Journal.length, Journal.new, List.length_nil,
      List.cons.injEq, and_true, Prod.mk.injEq]
    push_cast
    omega
  · exact Int.sub_self _

theorem allocated_of_prepared (enumerate : orders.Enumerate substate.inputAlloc) {s : StateDB}
    (found : prepared chain substate tx orders = .ok s) : Allocated substate.inputAlloc := by
  obtain ⟨t, built, -⟩ := bind_ok.mp found
  obtain ⟨middle, set, -⟩ := bind_ok.mp built
  intro addr nil
  have member : addr ∈ orders.order := by
    rw [enumerate.order.mem_iff, Map.mem_keys_iff]
    exact ⟨none, nil⟩
  obtain ⟨sa, present⟩ := accounts_of_setAccounts set addr member
  rw [nil] at present
  cases present

end Starting

section Settling

variable (chain : Chain) (substate : Substate) {first : Nat} {s t : StateDB} {l : State.Ledger}

theorem flushPending_ok {keccak : Bytes → Hash} {deleteEmptyObjects : Bool} {s' : StateDB}
    (pending : s.stateObjectsPending = ∅) (finalised : s.finalise keccak deleteEmptyObjects = .ok s') :
    ∃ u, s'.flushPending = .ok u ∧ u.researchPostAlloc = s'.researchPostAlloc := by
  obtain ⟨_, _, _, -, ⟨_, _, _, rfl⟩, closed, -⟩ := StateDB.finalise_ok finalised
  have found : ∀ addr ∈ s'.stateObjectsPending, (s'.stateObjects.lookup addr).isSome = true := by
    intro addr member
    subst closed
    have dirty := (Finset.mem_union.mp member).resolve_left (by rw [pending]; exact Finset.notMem_empty addr)
    have present := (Finset.mem_filter.mp dirty).2
    simp only [StateDB.finaliseDirty, Map.lookup_mapValues, Option.isSome_map]
    exact present
  unfold StateDB.flushPending
  rw [if_neg]
  · exact ⟨_, rfl, rfl⟩
  · rw [Map.anyKey_iff]
    rintro ⟨addr, member, absent⟩
    have present := found addr member
    rw [absent] at present
    cases present

theorem finish_ok (models : StateDB.Models (fun _ => False) first s l) (posted : s.researchPostAlloc = .empty)
    (pending : s.stateObjectsPending = ∅) (noted : l.Noted) :
    ∃ evmAlloc, finish chain substate s = .ok evmAlloc ∧ ∀ addr, evmAlloc.lookup addr =
      (l.postAccount chain.keccak (chain.isByzantium substate.env.number || chain.isEIP158 substate.env.number) addr
        (decide (addr ∈ s.journal.dirties.keys))).map some := by
  unfold finish
  simp only
  cases byzantium : chain.isByzantium substate.env.number with
  | true =>
    obtain ⟨s', finalised, -, post⟩ := models.finalise_noted chain.keccak true posted noted
      fun _ impossible => impossible.elim
    exact ⟨s'.researchPostAlloc, bind_ok.mpr ⟨s', finalised, rfl⟩, post⟩
  | false =>
    obtain ⟨s', finalised, -, post⟩ := models.finalise_noted chain.keccak (chain.isEIP158 substate.env.number) posted
      noted fun _ impossible => impossible.elim
    obtain ⟨u, flushed, same⟩ := flushPending_ok pending finalised
    refine ⟨u.researchPostAlloc, bind_ok.mpr ⟨u, bind_ok.mpr ⟨s', finalised, flushed⟩, rfl⟩, ?_⟩
    rw [same]
    exact post

theorem finish_eq (models : StateDB.Models (fun _ => False) first s l) {first' : Nat}
    (models' : StateDB.Models (fun _ => False) first' t l) (posted : s.researchPostAlloc = .empty)
    (posted' : t.researchPostAlloc = .empty) (pending : s.stateObjectsPending = ∅)
    (pending' : t.stateObjectsPending = ∅) (noted : l.Noted) :
    ∃ evmAlloc, finish chain substate s = .ok evmAlloc ∧ finish chain substate t = .ok evmAlloc := by
  obtain ⟨evmAlloc, finished, lookups⟩ := finish_ok chain substate models posted pending noted
  obtain ⟨evmAlloc', finished', lookups'⟩ := finish_ok chain substate models' posted' pending' noted
  have same : evmAlloc' = evmAlloc := by
    apply Map.ext
    intro addr
    have dirty : addr ∈ t.journal.dirties.keys ↔ addr ∈ s.journal.dirties.keys := by
      rw [models.mem_dirties_of_fresh, models'.mem_dirties_of_fresh]
    rw [lookups, lookups', decide_eq_decide.mpr dirty]
  rw [same] at finished'
  exact ⟨evmAlloc, finished, finished'⟩

end Settling

section Agreement

variable (chain : Chain) (collectors : Collectors) (made : Bool) (substate : Substate) (tx : Int) (applied : Applied)

/-- The operations are such as the EVM issues them: they do not fail, and accounts are created
    only after they were looked up. -/
def Issued (orders : Orders) : Prop :=
  ∀ s, prepared chain substate tx orders = .ok s →
    Machine.Along (StateDB.exec chain.keccak s.snapshot.2.nextRevisionId) StateDB.Looked s.snapshot.2 applied.ops ∧
      ∃ result, s.snapshot.2.operate chain.keccak applied.ops = .ok result

/-- The three tasks return, and they return the same: nil just if the recomputed result and
    alloc are `Equal` to the recorded ones. -/
def TasksAgree (first second third : Orders) : Prop :=
  ∃ one two three : Report, replayTask chain made substate tx applied first = .ok one ∧
    replayTaskSu chain collectors made substate tx applied second = .ok two ∧
    seedGenerationTask chain collectors made substate tx applied third = .ok three ∧
    two.outcome = one.outcome ∧ three.outcome = one.outcome ∧
    (one.outcome = none ↔ ∃ msgResult snapshot statedb evmAlloc, applied.result = .ok msgResult ∧
      hashError made substate.env.blockHashes applied.asked = none ∧
      execute chain substate tx applied first = .ok (snapshot, statedb) ∧ finish chain substate statedb = .ok evmAlloc ∧
      substate.result.equal (evmResult chain substate applied msgResult) = true ∧
      substate.outputAlloc.equal evmAlloc = true)

/-- No transfer in the tree lacks its amount. -/
def Readable (inTxs : List InternalTx) : Prop :=
  ∀ root, inTxs = [root] → ∀ node ∈ root.nodes, ∀ entry ∈ node.2, malformed entry = false

variable {chain collectors made substate tx applied}

theorem execute_models {orders : Orders} (enumerate : orders.Enumerate substate.inputAlloc)
    (allocated : Allocated substate.inputAlloc) (issued : Issued chain substate tx applied orders) :
    ∃ l : State.Ledger, l.Noted ∧ ∀ orders' : Orders, orders'.Enumerate substate.inputAlloc →
      ∃ snapshot last first, execute chain substate tx applied orders' = .ok (snapshot, last) ∧
        StateDB.Models (fun _ => False) first last l ∧ last.researchPostAlloc = .empty ∧
        last.stateObjectsPending = ∅ := by
  obtain ⟨s, found, -, -, models⟩ := prepared_ok chain substate tx enumerate allocated
  obtain ⟨looked, ⟨values, last⟩, operated⟩ := issued s found
  obtain ⟨⟨_, l⟩, run, same, -⟩ := (models.run applied.ops).ok operated
  cases same
  have step (u : StateDB) (m : State.Ledger) (op : Op)
      (related : StateDB.Models (fun _ => False) s.snapshot.2.nextRevisionId u m) (_ : u.Looked op) :
      Agrees (StateDB.Models (fun _ => False) s.snapshot.2.nextRevisionId)
        (u.exec chain.keccak s.snapshot.2.nextRevisionId op) (m.exec chain.keccak op) := related.exec op
  have along := looked.transfer step (fun _ _ _ related granted => related.looked granted) models
  refine ⟨l, (startLedger_noted substate.inputAlloc).run along run, ?_⟩
  intro orders' enumerate'
  obtain ⟨s', found', posted, pending, models'⟩ := prepared_ok chain substate tx enumerate' allocated
  obtain ⟨⟨_, last'⟩, operated', same', related⟩ := (models'.run applied.ops).ok_right run
  have frame : last'.frame = s'.snapshot.2.frame := StateDB.operate_frame operated'
  have executed : execute chain substate tx applied orders' = .ok (s'.snapshot.1, last') :=
    bind_ok.mpr ⟨s', found', bind_ok.mpr ⟨_, operated', rfl⟩⟩
  refine ⟨s'.snapshot.1, last', s'.snapshot.2.nextRevisionId, executed, related, ?_, ?_⟩
  · exact (congrArg Prod.fst frame).trans posted
  · exact (congrArg (fun fields => fields.2.1) frame).trans pending

theorem collectHistory_ok_iff (msgResult : ExecutionResult) :
    (∃ report, collectHistory collectors applied msgResult = .ok report) ↔
      (msgResult.err = none → Readable applied.inTxs) := by
  unfold collectHistory
  by_cases succeeded : msgResult.err = none
  · rw [if_pos succeeded]
    have parsed : (∃ history, TxCollector.parseTxAndDump collectors.dapps false true applied.inTxs = .ok history) ↔
        Readable applied.inTxs := by
      rcases applied.inTxs with _ | ⟨root, _ | ⟨second, rest⟩⟩
      · constructor
        · rintro _ root ⟨⟩
        · exact fun _ => ⟨_, rfl⟩
      · have walked := TxCollector.parseTxTreeUtil_ok_iff collectors.dapps root {}
        constructor
        · rintro ⟨history, parsed⟩ other same
          cases same
          obtain ⟨dicts, found, -⟩ := bind_ok.mp parsed
          exact walked.mp ⟨dicts, found⟩
        · intro readable
          obtain ⟨dicts, found⟩ := walked.mpr (readable root rfl)
          exact ⟨_, bind_ok.mpr ⟨dicts, found, rfl⟩⟩
      · constructor
        · rintro _ root ⟨⟩
        · exact fun _ => ⟨_, rfl⟩
    constructor
    · rintro ⟨report, collected⟩ _
      obtain ⟨history, found, -⟩ := bind_ok.mp collected
      exact parsed.mp ⟨history, found⟩
    · intro readable
      obtain ⟨history, found⟩ := parsed.mpr (readable succeeded)
      exact ⟨_, bind_ok.mpr ⟨history, found, rfl⟩⟩
  · rw [if_neg succeeded]
    exact ⟨fun _ failed => absurd failed succeeded, fun _ => ⟨_, rfl⟩⟩

/-- The replay commands agree just on messages that `ApplyMessage` accepts, if successful transfers have an amount. -/
theorem tasks_agree_iff {first second third : Orders} (enumerate : first.Enumerate substate.inputAlloc)
    (enumerate' : second.Enumerate substate.inputAlloc) (enumerate'' : third.Enumerate substate.inputAlloc)
    (issued : Issued chain substate tx applied first) :
    TasksAgree chain collectors made substate tx applied first second third ↔
      Allocated substate.inputAlloc ∧ ∃ msgResult, applied.result = .ok msgResult ∧
        (msgResult.err = none → Readable applied.inTxs) := by
  constructor
  · rintro ⟨one, two, three, -, ran, -⟩
    obtain ⟨⟨report, executed⟩, regular, -⟩ := bind_ok.mp ran
    obtain ⟨⟨snapshot, statedb⟩, begun, rest⟩ := bind_ok.mp regular
    obtain ⟨s, found, -⟩ := bind_ok.mp begun
    refine ⟨allocated_of_prepared chain substate tx enumerate' found, ?_⟩
    cases result : applied.result with
    | error err =>
      rw [result] at rest
      cases rest
    | ok msgResult =>
      rw [result] at rest
      obtain ⟨report, collected, -⟩ := bind_ok.mp rest
      exact ⟨msgResult, rfl, (collectHistory_ok_iff msgResult).mp ⟨report, collected⟩⟩
  · rintro ⟨allocated, msgResult, accepted, readable⟩
    obtain ⟨l, noted, executes⟩ := execute_models enumerate allocated issued
    obtain ⟨snapshot, s, _, executed, models, posted, pending⟩ := executes first enumerate
    obtain ⟨snapshot', s', _, executed', models', posted', pending'⟩ := executes second enumerate'
    obtain ⟨snapshot'', s'', _, executed'', models'', posted'', pending''⟩ := executes third enumerate''
    obtain ⟨evmAlloc, finished, finished'⟩ :=
      finish_eq chain substate models models' posted posted' pending pending' noted
    obtain ⟨evmAlloc', same, finished''⟩ :=
      finish_eq chain substate models models'' posted posted'' pending pending'' noted
    rw [finished] at same
    cases same
    obtain ⟨report, collected⟩ : ∃ report, collectHistory collectors applied msgResult = .ok report :=
      (collectHistory_ok_iff msgResult).mpr readable
    simp only [TasksAgree, replayTask, replayTaskSu, executeRegularMsgs, seedGenerationTask, executed, executed',
      executed'', accepted, collected, Bind.bind, Except.bind]
    cases missing : hashError made substate.env.blockHashes applied.asked with
    | some err =>
      refine ⟨_, _, _, rfl, rfl, rfl, rfl, rfl, ?_⟩
      simp
    | none =>
      simp only [finished, finished', finished'']
      refine ⟨_, _, _, rfl, rfl, rfl, rfl, rfl, ?_⟩
      simp only [checkOutput]
      constructor
      · intro equal
        split at equal
        · rename_i both
          obtain ⟨results, allocs⟩ := Bool.and_eq_true_iff.mp both
          exact ⟨msgResult, snapshot, s, evmAlloc, rfl, trivial, rfl, finished, results, allocs⟩
        · cases equal
      · rintro ⟨_, _, _, alloc, ⟨⟩, -, ⟨⟩, settled, results, allocs⟩
        rw [finished] at settled
        cases settled
        rw [if_pos (Bool.and_eq_true_iff.mpr ⟨results, allocs⟩)]

def mainnet : Chain where
  keccak := stopKeccak
  createAddress := fun _ _ => 0
  logsBloom := fun _ => 0
  isByzantium := fun _ => true
  isEIP158 := fun _ => true

def plainSubstate : Substate where
  inputAlloc := (Map.empty.set 0x30 (some ⟨0, 0, .empty, []⟩)).set 0x40 (some ⟨0, 1, .empty, [0x00]⟩)
  outputAlloc := (Map.empty.set 0x30 (some ⟨1, 0, .empty, []⟩)).set 0x40 (some ⟨0, 1, .empty, [0x00]⟩)
  env := ⟨0xc0, 0, 1000000, 5000000, 0, .empty, none⟩
  message := ⟨0, true, 0, 21000, 0x30, some 0x40, 0, [], none, [], 0, 0⟩
  result := ⟨1, 0, [], 0, 21000⟩

def plainApplied : Applied where
  ops := [.getNonce 0x30, .getCodeHash 0x30, .getBalance 0x30, .subBalance 0x30 0, .getNonce 0x30, .setNonce 0x30 1,
    .snapshot, .exist 0x40, .subBalance 0x30 0, .addBalance 0x40 0, .getCode 0x40, .getCodeHash 0x40,
    .addBalance 0x30 0, .addBalance 0xc0 0]
  result := .ok ⟨21000, none, []⟩
  asked := []
  inTxs := [⟨0x30, 0x40, true, some 0, .call, [], [], []⟩]
  logs := []

def rejectedSubstate : Substate :=
  { plainSubstate with message := { plainSubstate.message with nonce := 5 } }

/-- The nonce is too high: `preCheck` reads it and nothing else. -/
def rejectedApplied : Applied where
  ops := [.getNonce 0x30]
  result := .error .nonceTooHigh
  asked := []
  inTxs := []
  logs := []

def plainOrders : Orders := ⟨[0x30, 0x40], fun _ => []⟩

def noCollectors : Collectors := ⟨⟨.empty, .empty⟩, .empty⟩

theorem plainOrders_enumerate : plainOrders.Enumerate plainSubstate.inputAlloc := by
  constructor
  · constructor
    · decide
    · intro addr
      simp only [plainOrders, plainSubstate, Map.keys_set, Map.keys_empty, List.mem_cons, List.not_mem_nil,
        or_false, Finset.mem_insert, Finset.notMem_empty]
      exact or_comm
  · intro addr sa found
    have empty : sa.storage = .empty := by
      rcases Map.of_lookup_set found with ⟨-, ⟨⟩⟩ | found
      · rfl
      · obtain ⟨-, ⟨⟩⟩ := Map.of_lookup_single found
        rfl
    rw [empty]
    exact ⟨List.nodup_nil, fun k => by simp [plainOrders]⟩

theorem plainSubstate_allocated : Allocated plainSubstate.inputAlloc := by
  intro addr
  simp only [plainSubstate, Map.lookup_set, Map.lookup_empty]
  split
  · simp
  · split
    · simp
    · simp

theorem issued_of_no_creation {chain : Chain} {substate : Substate} {tx : Int} {applied : Applied} {orders : Orders}
    (none : ∀ addr, Op.createAccount addr ∉ applied.ops)
    (runs : (execute chain substate tx applied orders).toOption.isSome = true) :
    Issued chain substate tx applied orders := by
  intro s found
  constructor
  · apply Along.of_forall
    intro op member t
    cases op with
    | createAccount addr => exact absurd member (none addr)
    | _ => trivial
  · cases operated : s.snapshot.2.operate chain.keccak applied.ops with
    | ok result => exact ⟨result, rfl⟩
    | error panic =>
      simp only [execute, found, operated, Bind.bind, Except.bind, Except.toOption, Option.isSome_none] at runs
      cases runs

theorem tasks_agree_plain :
    TasksAgree mainnet noCollectors true plainSubstate 0 plainApplied plainOrders plainOrders plainOrders ∧
      (replayTask mainnet true plainSubstate 0 plainApplied plainOrders).toOption.any
        (fun report => decide (report.outcome = none)) = true := by
  have issued : Issued mainnet plainSubstate 0 plainApplied plainOrders :=
    issued_of_no_creation (by simp [plainApplied]) (by decide +kernel)
  constructor
  · rw [tasks_agree_iff plainOrders_enumerate plainOrders_enumerate plainOrders_enumerate issued]
    refine ⟨plainSubstate_allocated, ⟨21000, none, []⟩, rfl, ?_⟩
    rintro - root ⟨⟩
    decide +kernel
  · decide +kernel

/-- `replayTask` returns the error of `ApplyMessage`, `replayTaskSu` reads a field of its nil result. -/
theorem rejected_message_panics :
    ((replayTask mainnet true rejectedSubstate 0 rejectedApplied plainOrders).toOption.map Report.outcome) =
      some (some (.applyMessage .nonceTooHigh)) ∧
    (∀ orders, orders.Enumerate rejectedSubstate.inputAlloc →
      ∀ report, replayTaskSu mainnet noCollectors true rejectedSubstate 0 rejectedApplied orders ≠ .ok report) ∧
    ¬ TasksAgree mainnet noCollectors true rejectedSubstate 0 rejectedApplied plainOrders plainOrders plainOrders := by
  have panics (orders : Orders) (report : Report) :
      replayTaskSu mainnet noCollectors true rejectedSubstate 0 rejectedApplied orders ≠ .ok report := by
    intro ran
    obtain ⟨_, regular, -⟩ := bind_ok.mp ran
    obtain ⟨_, -, impossible⟩ := bind_ok.mp regular
    cases impossible
  refine ⟨by decide +kernel, fun orders _ => panics orders, ?_⟩
  rintro ⟨one, two, three, -, ran, -⟩
  exact panics plainOrders two ran

end Agreement

end IDWDetector.Replay
