import IDWDetector.Core.Settling
import IDWDetector.State.Composition

namespace IDWDetector.State

open StateDB

section Opening

variable {keccak : Bytes → Hash} {s t : StateDB} {slots : Address → List Hash} {alloc : SubstateAlloc}
  {order : List Address} {listings : List Listing}

theorem setAccount_refund (s : StateDB) (addr : Address) (a : SubstateAccount) (slots : List Hash) :
    (setAccount s addr a slots).refund = s.refund := by
  have kept {op : Op} {s t : StateDB} {value : Value} (forward : ∀ number, op ≠ .revertToSnapshot number)
      (executed : s.exec (fun _ => 0) 0 op = .ok (value, t)) :
        t.refund = s.refund := (exec_adds forward executed).refund
  have slots' (s : StateDB) : (slots.foldl
    (fun s key => s.setState addr key (a.storage.getD key 0)) s).refund = s.refund := by
    induction slots generalizing s with
    | nil => rfl
    | cons key rest ih =>
      rw [List.foldl_cons, ih]
      exact kept (show ∀ number, Op.setState addr key (a.storage.getD key 0) ≠ .revertToSnapshot number from nofun) rfl
  have code : (s.setCode addr a.code).refund = s.refund :=
    kept (show ∀ number, Op.setCode addr a.code ≠ .revertToSnapshot number from nofun) rfl
  have nonce (s : StateDB) : (s.setNonce addr a.nonce).refund = s.refund :=
    kept (show ∀ number, Op.setNonce addr a.nonce ≠ .revertToSnapshot number from nofun) rfl
  have balance (s : StateDB) : (s.setBalance addr a.balance).refund = s.refund :=
    kept (show ∀ number, Op.setBalance addr a.balance ≠ .revertToSnapshot number from nofun) rfl
  exact (slots' _).trans ((balance _).trans ((nonce _).trans code))

theorem setAccounts_refund (executed : setAccounts alloc slots s order = .ok t) : t.refund = s.refund := by
  induction order generalizing s with
  | nil =>
    cases executed
    rfl
  | cons addr rest ih =>
    rw [setAccounts] at executed
    split at executed
    · cases executed
    · rw [ih executed, setAccount_refund]

theorem setAccounts_filled (executed : setAccounts alloc slots s order = .ok t) :
    ∀ addr ∈ order, alloc.lookup addr ≠ some none := by
  induction order generalizing s with
  | nil => exact fun _ member => nomatch member
  | cons addr rest ih =>
    rw [setAccounts] at executed
    split at executed
    · cases executed
    · rename_i found
      intro a member missing
      rcases List.mem_cons.mp member with rfl | member
      · rw [missing] at found
        cases found
      · exact ih executed a member missing

theorem setAllocs_spec (executed : setAllocs s listings = .ok t) :
    t.refund = s.refund ∧ ∀ listing ∈ listings, ∀ addr ∈ listing.order, listing.alloc.lookup addr ≠ some none := by
  induction listings generalizing s with
  | nil =>
    cases executed
    exact ⟨rfl, fun _ member => nomatch member⟩
  | cons listing rest ih =>
    obtain ⟨middle, first, later⟩ := Machine.bind_ok.mp executed
    obtain ⟨refund, filled⟩ := ih later
    refine ⟨refund.trans (setAccounts_refund first), ?_⟩
    intro other member
    rcases List.mem_cons.mp member with rfl | member
    · exact setAccounts_filled first
    · exact filled other member

theorem commit_refund {deleteEmptyObjects : Bool} (committed : s.commit keccak deleteEmptyObjects = .ok t)
    (start : s.refund = 0) : t.refund = 0 := by
  obtain ⟨middle, intermediate, last⟩ := Machine.bind_ok.mp committed
  obtain ⟨finalised, finalising, flushed⟩ := Machine.bind_ok.mp intermediate
  obtain ⟨_, _, _, -, -, rfl, -, -, refund, -⟩ := finalise_ok finalising
  have flushing : middle.refund = 0 := by
    unfold flushPending at flushed
    split at flushed
    · cases flushed
    · cases flushed
      exact refund start
  unfold commitObjects at last
  split at last
  · cases last
  · cases last
    exact flushing

theorem makeOffTheChainStateDBWithTxs_opens (enumerated : ∀ listing ∈ listings, listing.Enumerates)
    (made : makeOffTheChainStateDBWithTxs keccak listings = .ok t) :
    ∃ origin : Origin, origin.Closed ∧ t.RevertsTo origin ∧ t.journal = .new ∧ t.validRevisions = [] := by
  obtain ⟨s, executed, committed⟩ := Machine.bind_ok.mp made
  obtain ⟨refund, listed⟩ := setAllocs_spec executed
  have filled : ∀ listing ∈ listings, ∀ addr, listing.alloc.lookup addr ≠ some none := by
    intro listing member addr missing
    have inside := ((enumerated listing member).order.mem_iff addr).mpr ((Go.Map.mem_keys_iff _ _).mpr ⟨_, missing⟩)
    exact listed listing member addr inside missing
  obtain ⟨s', executed', overlaid⟩ := Overlaid.start.setAllocs enumerated filled
  rw [executed] at executed'
  cases executed'
  obtain ⟨t', committed', journal, revisions, stored, absent⟩ := overlaid.commit keccak
  rw [committed] at committed'
  cases committed'
  have boundary := offTheChain_boundary journal revisions stored absent
  have unloaded (addr : Address) (missing : t.stateObjects.lookup addr = none) : t.trie.lookup addr = none := by
    have absent' := absent addr fun member => by
      obtain ⟨obj, sa, found, -⟩ := stored addr member
      rw [missing] at found
      cases found
    simpa [peek, missing] using absent'
  have refund' := commit_refund committed refund
  refine ⟨⟨(t.ledger 0).bare, 0⟩, ⟨rfl, ?_⟩, ⟨⟨fun _ => False, ?_, ?_⟩, ?_⟩, journal, revisions⟩
  · intro addr x found
    obtain ⟨y, live, rfl⟩ := Option.map_eq_some_iff.mp found
    obtain ⟨obj, peeked, seen⟩ := Option.bind_eq_some_iff.mp live
    cases looked : t.stateObjects.lookup addr with
    | none =>
      rw [peek, looked] at peeked
      simp only at peeked
      rw [unloaded addr looked] at peeked
      cases peeked
    | some obj' =>
      rw [peek, looked] at peeked
      cases peeked
      have kept : obj.deleted = false := by
        by_contra marked
        exact boundary.deleted addr obj looked (Bool.eq_true_of_not_eq_false marked)
      rw [StateObject.live_of_not_deleted kept] at seen
      cases seen
      exact ⟨boundary.alive addr obj looked kept, funext (boundary.clean addr obj looked kept)⟩
  · refine ⟨boundary.keyed, ?_, fun addr _ => unloaded addr, ?_, ?_, boundary.deleted, ?_⟩
    · rw [journal]
      rintro addr ⟨⟩
    · rw [journal]
      exact fun _ => Int.le_refl 0
    · rw [journal]
      rintro addr ⟨⟩
    · rw [journal]
      rintro prev ⟨⟩
  · show Coherent _ (t.journal.entries.map JournalEntry.change) _
    rw [journal]
    rfl
  · rw [journal]
    exact refund'

end Opening

end IDWDetector.State

namespace IDWDetector.Replay

open State State.StateDB Vm IDWDetector.Core

def someEther : Int := 1000000000000000000000

/-- What `TestTask` carries from one message to the next: the gas pool, the EVM and the
    access list of its state. -/
structure Fuzzing where
  gaspool : Uint64
  evm : EVM
  accessList : Finset Address

/-- An epoch starts with a new EVM on the same state; a message is executed by the code
    that it calls. -/
inductive Turn
  | epoch
  | message (msg : Core.Message) (execution : Execution)

namespace Fuzzing

variable (ctx : Context) (gasLimit : Uint64)

def init (gaspool : Uint64) (statedb : StateDB) : Fuzzing := ⟨gaspool, { stateDB := statedb }, ∅⟩

def applied (fuzzing : Fuzzing) (msg : Core.Message) : StateTransition where
  gp := fuzzing.gaspool + gasLimit
  evm := { fuzzing.evm with stateDB := fuzzing.evm.stateDB.addBalance ctx.chain.keccak msg.fromAddr someEther }
  accessList := fuzzing.accessList

/-- One turn of the loops of `TestTask`, with what `ApplyMessageTest` returns and the
    internal transactions it recorded. -/
def turn (fuzzing : Fuzzing) :
    Turn → Except Panic (Option (Except TransitionError ExecutionResult × List InternalTx) × Fuzzing)
  | .epoch => .ok (none, { fuzzing with evm := { stateDB := fuzzing.evm.stateDB } })
  | .message msg execution =>
    if BitVec.allOnes 64 - gasLimit < fuzzing.gaspool then .error .gasPoolOverflow
    else do
      let (result, st) ← (fuzzing.applied ctx gasLimit msg).transitionDbTest ctx msg execution
      .ok (some (result, st.evm.exTx), ⟨st.gp, { st.evm with exTx := [] }, st.accessList⟩)

end Fuzzing

def Turn.Settles (ctx : Context) : Turn → Prop
  | .epoch => True
  | .message msg execution => execution.settles ctx msg = true

namespace Fuzzing

variable {ctx : Context} {gasLimit : Uint64} {origin : Origin}

structure Between (origin : Origin) (fuzzing : Fuzzing) : Prop where
  idle : fuzzing.evm.callStack = []
  writable : fuzzing.evm.readOnly = false
  numbered : fuzzing.evm.stateDB.Numbered
  reverts : fuzzing.evm.stateDB.RevertsTo origin
  harmless : ∀ entry ∈ fuzzing.evm.stateDB.journal.entries, entry.harmless = true
  accessList : fuzzing.accessList = ∅

theorem Between.applied {fuzzing : Fuzzing} (between : Between origin fuzzing) (ctx : Context) (gasLimit : Uint64)
    (msg : Core.Message) : (fuzzing.applied ctx gasLimit msg).Ready origin := by
  have ready : StateTransition.Ready origin { fuzzing.applied ctx gasLimit msg with evm := fuzzing.evm } :=
    ⟨between.idle, between.writable, between.numbered, between.reverts, between.harmless⟩
  exact ready.plain (addBalance_plain ctx.chain.keccak fuzzing.evm.stateDB msg.fromAddr someEther) rfl

theorem Between.turn {fuzzing fuzzing' : Fuzzing} {turn : Turn}
    {out : Option (Except TransitionError ExecutionResult × List InternalTx)} (between : Between origin fuzzing)
    (earlier : ctx.isBerlin = false) (settles : turn.Settles ctx)
    (taken : fuzzing.turn ctx gasLimit turn = .ok (out, fuzzing')) : Between origin fuzzing' := by
  cases turn with
  | epoch =>
    cases taken
    exact ⟨rfl, rfl, between.numbered, between.reverts, between.harmless, between.accessList⟩
  | message msg execution =>
    unfold Fuzzing.turn at taken
    simp only at taken
    split at taken
    · cases taken
    · obtain ⟨⟨result, st⟩, transitioned, last⟩ := Machine.bind_ok.mp taken
      cases last
      have ran : (fuzzing.applied ctx gasLimit msg).run ctx msg execution true = .ok (result, st) := transitioned
      obtain ⟨ready, accessList⟩ := (between.applied ctx gasLimit msg).run settles ran
      exact ⟨ready.idle, ready.writable, ready.numbered, ready.reverts, ready.harmless,
        (accessList earlier).trans between.accessList⟩

/-- Between two messages that settle, no transaction is open: neither before nor after the
    sender of the next message is given its ether. -/
theorem messages_closed (ctx : Context) (gasLimit gaspool : Uint64) (allocs : List Listing) (statedb : StateDB)
    (turns : List Turn) (outs : List (Option (Except TransitionError ExecutionResult × List InternalTx)))
    (last : Fuzzing) (enumerated : ∀ listing ∈ allocs, listing.Enumerates)
    (made : makeOffTheChainStateDBWithTxs ctx.chain.keccak allocs = .ok statedb) (earlier : ctx.isBerlin = false)
    (settles : ∀ turn ∈ turns, turn.Settles ctx)
    (ran : Machine.run (turn ctx gasLimit) (.init gaspool statedb) turns = .ok (outs, last)) :
    last.evm.stateDB.Closed ∧ last.accessList = ∅ ∧
      ∀ msg, (last.applied ctx gasLimit msg).evm.stateDB.Closed ∧ (last.applied ctx gasLimit msg).accessList = ∅ := by
  obtain ⟨origin, start, reverts, journal, revisions⟩ := makeOffTheChainStateDBWithTxs_opens enumerated made
  have initial : Between origin (.init gaspool statedb) := by
    refine ⟨rfl, rfl, ?_, reverts, ?_, rfl⟩
    · show statedb.Numbered
      unfold Numbered
      rw [revisions]
      exact fun _ member => nomatch member
    · show ∀ entry ∈ statedb.journal.entries, _
      rw [journal]
      exact fun _ member => nomatch member
  have along : Machine.Along (turn ctx gasLimit) (fun _ => Turn.Settles ctx) (.init gaspool statedb) turns :=
    .of_forall (fun input member _ => settles input member) _
  have between := Machine.run_along (fun _ _ _ _ settles between taken => Between.turn between earlier settles taken)
    initial along ran
  have closed := between.reverts.closed start between.harmless
  refine ⟨closed, between.accessList, fun msg => ⟨?_, between.accessList⟩⟩
  have ready := between.applied ctx gasLimit msg
  exact ready.reverts.closed start ready.harmless

def rejectedCode : Bytes := [0x60, 7, 0x60, 0, 0x55, 0x60, 0, 0x60, 0, 0xfd]

def clearingCode : Bytes := [0x60, 0, 0x60, 0, 0x55, 0]

def destructingCode : Bytes := [0x60, 0x40, 0xff]

def fuzzContext (isLondon : Bool) : Context where
  chain :=
    { london with
      isLondon := isLondon
      keccak := fun code =>
        if code = rejectedCode then 0x2ae1ee6b30d53ecbb49eb38f7bbc0e4bdfa360881886985722a9aad480ccdc35
        else if code = clearingCode then 0x8c4b19126ec61a89d742281f8ed6b09910f88795ac2909bd02d9478d8128c9b3
        else if code = destructingCode then 0x3f1df901e747b7f5bcef3465d2f0d23d26ec86a3a610b0cd3218701636dce962
        else london.keccak code }
  isIstanbul := true
  isBerlin := isLondon
  activePrecompiles := {1, 2, 3, 4, 5, 6, 7, 8, 9}
  noBaseFee := false
  baseFee := some 0
  coinbase := 0x50

def fuzzAlloc : SubstateAlloc :=
  (((Go.Map.empty.set 0x10 (some ⟨1, 0, .empty, callerCode⟩)).set 0x20 (some ⟨1, 0, .empty, rejectedCode⟩)).set
    0x21 (some ⟨1, 0, Go.Map.empty.set 0 5, clearingCode⟩)).set 0x22 (some ⟨1, 0, .empty, destructingCode⟩)

def fuzzTurn (addr : Address) (script : Script) (gasLeft : Uint64) : Turn :=
  .message { StateTransition.freeMessage with toAddr := some addr, isFake := true }
    ⟨script, none, 0, true, gasLeft, {addr}⟩

/-- The call of 0x10, whose callee writes a slot and reverts. -/
def rejectedTurn : Turn :=
  fuzzTurn 0x10 (.call .call 0x20 0 [] none
    (.read (.state 0) (.read (.committedState 0) (.sstore 0 7 (.done (.revert []))))) (.done (.stop []))) 50000

def clearingTurn : Turn :=
  fuzzTurn 0x21 (.read (.state 0) (.read (.committedState 0) (.addRefund 4800 (.sstore 0 0 (.done (.stop [])))))) 70000

def destructingTurn : Turn :=
  fuzzTurn 0x22 (.read (.empty 0x40) (.read (.balance 0x22) (.selfdestruct 0x40))) 70000

theorem messages_closed_rejected : ∃ statedb outs last,
    makeOffTheChainStateDBWithTxs (fuzzContext false).chain.keccak [.sorted fuzzAlloc] = .ok statedb ∧
    Machine.run (turn (fuzzContext false) 1000000) (.init 0 statedb) [.epoch, rejectedTurn] = .ok (outs, last) ∧
    last.evm.stateDB.Closed ∧ last.accessList = ∅ := by
  have ran : ((makeOffTheChainStateDBWithTxs (fuzzContext false).chain.keccak [.sorted fuzzAlloc]).toOption.any
      fun statedb => (Machine.run (turn (fuzzContext false) 1000000) (.init 0 statedb)
        [.epoch, rejectedTurn]).toOption.isSome) = true := by
    decide +kernel
  obtain ⟨statedb, made, ran⟩ := (Option.any_eq_true _ _).mp ran
  obtain ⟨⟨outs, last⟩, ran⟩ := Option.isSome_iff_exists.mp ran
  have made' := Machine.toOption_eq_some made
  have ran' := Machine.toOption_eq_some ran
  have enumerated : ∀ listing ∈ [Listing.sorted fuzzAlloc], listing.Enumerates := by
    intro listing member
    rw [List.mem_singleton.mp member]
    exact Listing.sorted_enumerates fuzzAlloc
  have settles : ∀ turn ∈ [Turn.epoch, rejectedTurn], turn.Settles (fuzzContext false) := by
    intro turn member
    rcases List.mem_cons.mp member with rfl | member
    · trivial
    · rw [List.mem_singleton.mp member]
      show Execution.settles _ _ _ = true
      decide +kernel
  have closed := messages_closed (fuzzContext false) 1000000 0 [.sorted fuzzAlloc] statedb [.epoch, rejectedTurn] outs
    last enumerated made' rfl settles ran'
  exact ⟨statedb, outs, last, made', ran', closed.1, closed.2.1⟩

/-- The refund, the slot, the access list and the destructed account of one message are still there for the next
    one. -/
theorem messages_not_closed : ∃ statedb outs first outs' second,
    makeOffTheChainStateDBWithTxs (fuzzContext true).chain.keccak [.sorted fuzzAlloc] = .ok statedb ∧
    Machine.run (turn (fuzzContext true) 1000000) (.init 0 statedb) [.epoch, clearingTurn] = .ok (outs, first) ∧
    first.evm.stateDB.refund = 4800 ∧ first.accessList ≠ ∅ ∧
    (first.evm.stateDB.getState 0x21 0).1 ≠ (first.evm.stateDB.getCommittedState 0x21 0).1 ∧
    Machine.run (turn (fuzzContext true) 1000000) first [destructingTurn] = .ok (outs', second) ∧
    (second.evm.stateDB.hasSuicided 0x22).1 = true ∧ second.evm.stateDB.refund = 4800 := by
  have ran : ((makeOffTheChainStateDBWithTxs (fuzzContext true).chain.keccak [.sorted fuzzAlloc]).toOption.any
      fun statedb => (Machine.run (turn (fuzzContext true) 1000000) (.init 0 statedb)
        [.epoch, clearingTurn]).toOption.any fun first =>
          decide (first.2.evm.stateDB.refund = 4800 ∧ first.2.accessList ≠ ∅ ∧
            (first.2.evm.stateDB.getState 0x21 0).1 ≠ (first.2.evm.stateDB.getCommittedState 0x21 0).1) &&
          (Machine.run (turn (fuzzContext true) 1000000) first.2 [destructingTurn]).toOption.any fun second =>
            decide ((second.2.evm.stateDB.hasSuicided 0x22).1 = true ∧ second.2.evm.stateDB.refund = 4800)) = true := by
    decide +kernel
  obtain ⟨statedb, made, ran⟩ := (Option.any_eq_true _ _).mp ran
  obtain ⟨⟨outs, first⟩, ran, left⟩ := (Option.any_eq_true _ _).mp ran
  obtain ⟨left, later⟩ := Bool.and_eq_true_iff.mp left
  obtain ⟨⟨outs', second⟩, ran', left'⟩ := (Option.any_eq_true _ _).mp later
  obtain ⟨refund, accessed, written⟩ := of_decide_eq_true left
  obtain ⟨suicided, refund'⟩ := of_decide_eq_true left'
  exact ⟨statedb, outs, first, outs', second, Machine.toOption_eq_some made, Machine.toOption_eq_some ran,
    refund, accessed, written, Machine.toOption_eq_some ran', suicided, refund'⟩

end Fuzzing

end IDWDetector.Replay
