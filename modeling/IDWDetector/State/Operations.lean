import IDWDetector.Machine.Run
import IDWDetector.State.Finalise
import Mathlib.Logic.Relation

namespace IDWDetector.State

open Machine

variable {addr : Address} {entry : JournalEntry} {first : Nat}

/-- The operations that the EVM issues on the accounts. A revert names its snapshot by the number of snapshots taken
    before it in the transaction. -/
inductive Op
  | exist (addr : Address)
  | empty (addr : Address)
  | getBalance (addr : Address)
  | getNonce (addr : Address)
  | getCode (addr : Address)
  | getCodeHash (addr : Address)
  | getState (addr : Address) (key : Hash)
  | getCommittedState (addr : Address) (key : Hash)
  | addBalance (addr : Address) (amount : Int)
  | subBalance (addr : Address) (amount : Int)
  | setBalance (addr : Address) (amount : Int)
  | setNonce (addr : Address) (nonce : Uint64)
  | setCode (addr : Address) (code : Bytes)
  | setState (addr : Address) (key value : Hash)
  | suicide (addr : Address)
  | createAccount (addr : Address)
  | snapshot
  | revertToSnapshot (number : Nat)
deriving DecidableEq

inductive Value
  | none
  | bool (value : Bool)
  | balance (value : Int)
  | nonce (value : Uint64)
  | code (value : Bytes)
  | hash (value : Hash)
deriving DecidableEq

namespace StateDB

def exec (keccak : Bytes → Hash) (first : Nat) (s : StateDB) : Op → Except Panic (Value × StateDB)
  | .exist addr => .ok (.bool (s.exist addr).1, (s.exist addr).2)
  | .empty addr => .ok (.bool (s.empty keccak addr).1, (s.empty keccak addr).2)
  | .getBalance addr => .ok (.balance (s.getBalance addr).1, (s.getBalance addr).2)
  | .getNonce addr => .ok (.nonce (s.getNonce addr).1, (s.getNonce addr).2)
  | .getCode addr => .ok (.code (s.getCode addr).1, (s.getCode addr).2)
  | .getCodeHash addr => .ok (.hash (s.getCodeHash keccak addr).1, (s.getCodeHash keccak addr).2)
  | .getState addr key => .ok (.hash (s.getState addr key).1, (s.getState addr key).2)
  | .getCommittedState addr key =>
    .ok (.hash (s.getCommittedState addr key).1, (s.getCommittedState addr key).2)
  | .addBalance addr amount => .ok (.none, s.addBalance keccak addr amount)
  | .subBalance addr amount => .ok (.none, s.subBalance addr amount)
  | .setBalance addr amount => .ok (.none, s.setBalance addr amount)
  | .setNonce addr nonce => .ok (.none, s.setNonce addr nonce)
  | .setCode addr code => .ok (.none, s.setCode addr code)
  | .setState addr key value => .ok (.none, s.setState addr key value)
  | .suicide addr => .ok (.bool (s.suicide addr).1, (s.suicide addr).2)
  | .createAccount addr => .ok (.none, s.createAccount addr)
  | .snapshot => .ok (.none, s.snapshot.2)
  | .revertToSnapshot number => do
    let s ← s.revertToSnapshot (first + number)
    .ok (.none, s)

/-- The operations of one transaction, from the state that `Prepare` left. -/
def operate (keccak : Bytes → Hash) (s : StateDB) (ops : List Op) : Except Panic (List Value × StateDB) :=
  Machine.run (exec keccak s.nextRevisionId) s ops

/-- `Prepare`, the operations of a transaction and `Finalise`. -/
def transact (keccak : Bytes → Hash) (deleteEmptyObjects : Bool) (thash : Hash) (ti : Int)
    (s : StateDB) (ops : List Op) : Except Panic (List Value × StateDB) := do
  let (values, s) ← (s.prepare thash ti).operate keccak ops
  let s ← s.finalise keccak deleteEmptyObjects
  .ok (values, s)

/-- The account the EVM sees at an address. -/
def liveObject (s : StateDB) (addr : Address) : Option StateObject :=
  (s.peek addr).filter fun obj => !obj.deleted

/-- `CreateAccount` is issued only for an address that was looked up in the
    transaction and has neither a nonce nor a code. -/
def Creatable (s : StateDB) : Op → Prop
  | .createAccount addr => s.researchPreAlloc.lookup addr ≠ none ∧
      ∀ obj, s.liveObject addr = some obj → obj.nonce = 0 ∧ obj.code = []
  | _ => True

/-- The account that `CreateAccount` replaces has no storage. -/
def Clear (s : StateDB) : Op → Prop
  | .createAccount addr => ∀ obj, s.liveObject addr = some obj → ∀ key, obj.committed key = 0
  | _ => True

end StateDB

/-- The entries that a transaction leaves which writes no slot, destructs no account and
    changes no refund. -/
def JournalEntry.harmless : JournalEntry → Bool
  | .suicideChange _ _ _ | .storageChange _ _ _ | .refundChange _ => false
  | _ => true

def JournalEntry.refunds : JournalEntry → Bool
  | .refundChange _ => true
  | _ => false

def JournalEntry.isLog : JournalEntry → Bool
  | .addLogChange _ => true
  | _ => false

def Op.settles : Op → Bool
  | .setState _ _ _ | .suicide _ => false
  | _ => true

def Op.allows (op : Op) (entry : JournalEntry) : Bool := entry.harmless || !op.settles && !entry.refunds

def Op.notes (op : Op) (entry : JournalEntry) : Bool := op.allows entry && !entry.isLog

theorem Op.not_refunds_of_allows {op : Op} (allows : op.allows entry = true) : entry.refunds = false := by
  cases entry with
  | refundChange prev => simp [Op.allows, JournalEntry.harmless, JournalEntry.refunds] at allows
  | _ => rfl

theorem Op.notes_of_harmless (op : Op) (harmless : entry.harmless = true) (other : entry.isLog = false) :
    op.notes entry = true := by
  rw [Op.notes, Op.allows, harmless, other]
  rfl

namespace StateDB

section Primitives

/-- The steps that the operations are made of. Only an address without an object gets a
    `createObjectChange`. -/
inductive Primitive (kind : JournalEntry → Bool) (s : StateDB) : StateDB → Prop
  | record (addr : Address) (account : Option SubstateAccount) : Primitive kind s (s.recordPre addr account)
  | put (obj : StateObject) : Primitive kind s (s.setStateObject obj)
  | note (entry : JournalEntry) (allowed : kind entry = true)
      (absent : ∀ addr, entry = .createObjectChange addr → s.stateObjects.lookup addr = none) :
      Primitive kind s (s.append entry)
  | mark (addr : Address) : Primitive kind s { s with journal := s.journal.dirty addr }
  | revise : Primitive kind s s.snapshot.2

abbrev Primitives (kind : JournalEntry → Bool) : StateDB → StateDB → Prop := Relation.ReflTransGen (Primitive kind)

variable {kind : JournalEntry → Bool} {s t : StateDB}

theorem Primitives.edit (before : Primitives kind s t) (obj : StateObject) (allowed : kind entry = true)
    (other : ∀ addr, entry ≠ .createObjectChange addr) :
    Primitives kind s ((t.append entry).setStateObject obj) :=
  (before.tail (.note entry allowed fun addr same => absurd same (other addr))).tail (.put obj)

theorem getDeletedStateObject_primitives (s : StateDB) (addr : Address) :
    Primitives kind s (s.getDeletedStateObject addr).2 := by
  unfold getDeletedStateObject
  split
  · exact .refl
  · split
    · exact .refl
    · exact .single (.put _)

theorem getStateObject_primitives (s : StateDB) (addr : Address) : Primitives kind s (s.getStateObject addr).2 := by
  have loaded : Primitives kind s (s.getDeletedStateObject addr).2 := getDeletedStateObject_primitives s addr
  unfold getStateObject
  split <;> rename_i found <;> rw [found] at loaded
  · split
    · exact loaded.tail (.record addr _)
    · exact loaded.tail (.record addr _)
  · exact loaded.tail (.record addr _)

theorem getDeletedStateObject_none (missing : s.getDeletedStateObject addr = (none, t)) :
    t.stateObjects.lookup addr = none := by
  unfold getDeletedStateObject at missing
  split at missing
  · cases missing
  · rename_i absent
    split at missing
    · cases missing
      exact absent
    · cases missing

theorem createObject_primitives (op : Op) (s : StateDB) (addr : Address) :
    Primitives op.notes s (s.createObject addr).2.2 := by
  have loaded : Primitives op.notes s (s.getDeletedStateObject addr).2 := getDeletedStateObject_primitives s addr
  unfold createObject
  split <;> rename_i found <;> rw [found] at loaded
  · have absent := getDeletedStateObject_none found
    refine (loaded.tail (.note (.createObjectChange addr) (op.notes_of_harmless rfl rfl) ?_)).tail (.put _)
    rintro other ⟨⟩
    exact absent
  · exact loaded.edit _ (op.notes_of_harmless rfl rfl) nofun

theorem getOrNewStateObject_primitives (op : Op) (s : StateDB) (addr : Address) :
    Primitives op.notes s (s.getOrNewStateObject addr).2 := by
  have looked : Primitives op.notes s (s.getStateObject addr).2 := getStateObject_primitives s addr
  unfold getOrNewStateObject
  split <;> rename_i found <;> rw [found] at looked
  · exact looked
  · exact looked.trans (createObject_primitives op _ addr)

theorem exec_primitives {keccak : Bytes → Hash} {op : Op} {value : Value}
    (forward : ∀ number, op ≠ .revertToSnapshot number) (executed : s.exec keccak first op = .ok (value, t)) :
    Primitives op.notes s t := by
  have looked (a : Address) : Primitives op.notes s (s.getStateObject a).2 := getStateObject_primitives s a
  have made (a : Address) : Primitives op.notes s (s.getOrNewStateObject a).2 := getOrNewStateObject_primitives op s a
  cases op with
  | revertToSnapshot number => exact absurd rfl (forward number)
  | snapshot =>
    cases executed
    exact .single .revise
  | exist a =>
    cases executed
    exact looked a
  | empty a | getBalance a | getNonce a | getCode a | getCodeHash a =>
    cases executed
    have found := looked a
    simp only [StateDB.empty, StateDB.getBalance, StateDB.getNonce, StateDB.getCode, StateDB.getCodeHash]
    split <;> rename_i object <;> rw [object] at found <;> exact found
  | getState a key | getCommittedState a key =>
    cases executed
    have found := looked a
    simp only [StateDB.getState, StateDB.getCommittedState]
    split <;> rename_i object <;> rw [object] at found
    · exact found
    · exact found.tail (.put _)
  | createAccount a =>
    cases executed
    have created := createObject_primitives (.createAccount a) s a
    unfold createAccount
    split <;> rename_i object <;> rw [object] at created
    · exact created
    · exact created.tail (.put _)
  | addBalance a amount =>
    cases executed
    simp only [StateDB.addBalance, StateDB.touch]
    split
    · split
      · have touched := (made a).tail (.note (.touchChange (s.getOrNewStateObject a).1.address) rfl nofun)
        split
        · exact touched.tail (.mark _)
        · exact touched
      · exact made a
    · exact (made a).edit _ rfl nofun
  | subBalance a amount =>
    cases executed
    simp only [StateDB.subBalance]
    split
    · exact made a
    · exact (made a).edit _ rfl nofun
  | setBalance a amount | setNonce a nonce | setCode a code =>
    cases executed
    exact (made a).edit _ rfl nofun
  | setState a key value =>
    cases executed
    simp only [StateDB.setState]
    split
    · exact (made a).tail (.put _)
    · exact (made a).edit _ rfl nofun
  | suicide a =>
    cases executed
    have found := looked a
    simp only [StateDB.suicide]
    split <;> rename_i object <;> rw [object] at found
    · exact found
    · exact found.edit _ rfl nofun

theorem modifyObject_primitives {body : StateObject → StateObject} (modified : s.modifyObject addr body = .ok t) :
    Primitives kind s t := by
  have looked : Primitives kind s (s.getStateObject addr).2 := getStateObject_primitives s addr
  unfold modifyObject at modified
  split at modified <;> rename_i found
  · cases modified
  · cases modified
    rw [found] at looked
    exact looked.tail (.put _)

theorem revertEntry_cases (reverted : s.revertEntry entry = .ok t) :
    Primitives kind s t ∨
    (∃ account, entry = .createObjectChange account ∧ t = { s with
      stateObjects := s.stateObjects.delete account
      stateObjectsDirty := s.stateObjectsDirty.erase account }) ∨
    (∃ prev, entry = .refundChange prev ∧ t = { s with refund := prev }) ∨
    ∃ txhash logs, entry = .addLogChange txhash ∧ t = { s with logs := logs, logSize := s.logSize - 1 } := by
  cases entry with
  | balanceChange | nonceChange | storageChange | codeChange => exact .inl (modifyObject_primitives reverted)
  | suicideChange account prev prevbalance =>
    have looked : Primitives kind s (s.getStateObject account).2 := getStateObject_primitives s account
    simp only [revertEntry] at reverted
    split at reverted <;> rename_i found <;> cases reverted <;> rw [found] at looked
    · exact .inl looked
    · exact .inl (looked.tail (.put _))
  | resetObjectChange prev =>
    cases reverted
    exact .inl (.single (.put prev))
  | touchChange account =>
    cases reverted
    exact .inl .refl
  | createObjectChange account =>
    cases reverted
    exact .inr (.inl ⟨account, rfl, rfl⟩)
  | refundChange prev =>
    cases reverted
    exact .inr (.inr (.inl ⟨prev, rfl, rfl⟩))
  | addLogChange txhash =>
    cases reverted
    exact .inr (.inr (.inr ⟨txhash, _, rfl, rfl⟩))

end Primitives

section Frame

def frame (s : StateDB) : SubstateAlloc × Finset Address × Go.Map Address StateAccount :=
  (s.researchPostAlloc, s.stateObjectsPending, s.trie)

variable {s t : StateDB}

theorem Primitives.frame {kind : JournalEntry → Bool} (primitives : Primitives kind s t) : t.frame = s.frame := by
  induction primitives with
  | refl => rfl
  | tail _ step ih =>
    rw [← ih]
    cases step with
    | record addr account =>
      unfold recordPre
      split <;> rfl
    | put | note | mark | revise => rfl

theorem revertEntry_frame (reverted : s.revertEntry entry = .ok t) : t.frame = s.frame := by
  rcases revertEntry_cases reverted with written | ⟨_, _, rfl⟩ | ⟨_, _, rfl⟩ | ⟨_, _, _, rfl⟩
  · exact (written : Primitives JournalEntry.harmless s t).frame
  · rfl
  · rfl
  · rfl

section Rules

variable {motive : StateDB → Prop} (start : motive s)
  (undo : ∀ u u' entry rest, motive u → u.journal.entries = entry :: rest → u.revertEntry entry = .ok u' →
    motive { u' with journal := { u'.journal.undirty entry with entries := rest } })
include start undo

theorem revertEntries_rule {snapshot : Nat} {entries : List JournalEntry} (journal : s.journal.entries = entries)
    (reverted : revertEntries snapshot entries s = .ok t) : motive t := by
  induction entries generalizing s with
  | nil =>
    cases reverted
    exact start
  | cons entry rest ih =>
    rw [revertEntries] at reverted
    split at reverted
    · obtain ⟨middle, first, later⟩ := bind_ok.mp reverted
      exact ih (undo s middle entry rest start journal first) rfl later
    · cases reverted
      exact start

theorem exec_rule {keccak : Bytes → Hash} {op : Op} {value : Value} (forward : Primitives op.notes s t → motive t)
    (revise : ∀ u revisions, motive u → motive { u with validRevisions := revisions })
    (executed : s.exec keccak first op = .ok (value, t)) : motive t := by
  by_cases reverts : ∃ number, op = .revertToSnapshot number
  · obtain ⟨number, rfl⟩ := reverts
    obtain ⟨middle, reverted, last⟩ := bind_ok.mp executed
    cases last
    unfold revertToSnapshot at reverted
    simp only at reverted
    split at reverted
    · cases reverted
    · split at reverted
      · cases reverted
      · obtain ⟨u, undone, last⟩ := bind_ok.mp reverted
        cases last
        exact revise u _ (revertEntries_rule start undo rfl undone)
  · exact forward (exec_primitives (fun number same => reverts ⟨number, same⟩) executed)

end Rules

variable {keccak : Bytes → Hash}

theorem exec_frame {op : Op} {value : Value} (executed : s.exec keccak first op = .ok (value, t)) :
    t.frame = s.frame := by
  refine exec_rule (motive := fun u => u.frame = s.frame) rfl ?_ Primitives.frame (fun _ _ same => same) executed
  intro u u' entry rest same _ undone
  exact (revertEntry_frame undone).trans same

theorem operate_frame {s t : StateDB} {ops : List Op} {values : List Value}
    (operated : s.operate keccak ops = .ok (values, t)) : t.frame = s.frame := by
  have kept (u : StateDB) (op : Op) (value : Value) (u' : StateDB) (same : u.frame = s.frame)
      (executed : u.exec keccak s.nextRevisionId op = .ok (value, u')) : u'.frame = s.frame :=
    (exec_frame executed).trans same
  exact run_invariant kept rfl operated

theorem operate_post {s t : StateDB} {ops : List Op} {values : List Value}
    (operated : s.operate keccak ops = .ok (values, t)) : t.researchPostAlloc = s.researchPostAlloc :=
  congrArg Prod.fst (operate_frame operated)

end Frame

end StateDB

/-- `GetCommittedState` is issued only for a slot that was read with `GetState` before. -/
def readBefore (seen : List Op) : List Op → Bool
  | [] => true
  | .getCommittedState addr key :: rest =>
    decide (.getState addr key ∈ seen) && readBefore (.getCommittedState addr key :: seen) rest
  | op :: rest => readBefore (op :: seen) rest

theorem getState_mem_of_readBefore {seen ops : List Op} {key : Hash} (before : readBefore seen ops = true)
    (member : .getCommittedState addr key ∈ ops) :
    Op.getState addr key ∈ seen ∨ .getState addr key ∈ ops := by
  induction ops generalizing seen with
  | nil => cases member
  | cons op rest ih =>
    have later (longer : readBefore (op :: seen) rest = true) (inside : .getCommittedState addr key ∈ rest) :
        Op.getState addr key ∈ seen ∨ .getState addr key ∈ op :: rest := by
      rcases ih longer inside with earlier | inside
      · rcases List.mem_cons.mp earlier with same | earlier
        · exact .inr (same ▸ List.mem_cons_self)
        · exact .inl earlier
      · exact .inr (List.mem_cons_of_mem _ inside)
    cases op with
    | getCommittedState a k =>
      simp only [readBefore, Bool.and_eq_true, decide_eq_true_eq] at before
      rcases List.mem_cons.mp member with same | inside
      · cases same
        exact .inl before.1
      · exact later before.2 inside
    | _ =>
      rcases List.mem_cons.mp member with same | inside
      · cases same
      · exact later before inside

end IDWDetector.State
