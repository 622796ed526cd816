import IDWDetector.State.Closing

namespace IDWDetector.State

open Machine

variable {ops : List Op}

/-- What is recorded of an account, with the values of the given slots. -/
def Account.recordOf (slots : Finset Hash) (x : Account) : SubstateAccount :=
  { x.info with storage := StateDB.slotValues slots x.current }

def StateObject.recordOf (slots : Finset Hash) (obj : StateObject) : SubstateAccount :=
  { newSubstateAccount obj.nonce obj.balance obj.code with storage := StateDB.slotValues slots obj.current }

namespace Ledger

variable {init : Address → Option Account} {l : Ledger} {addr : Address} {keccak : Bytes → Hash}
  {deleteEmptyObjects : Bool}

theorem Tracks.committed (tracks : Tracks init l) {x : Account} (start : init addr = some x) :
    ∃ y, l.accounts addr = some y ∧ y.committed = x.committed := by
  have live : l.accounts addr ≠ none := tracks.live (by simp [start])
  obtain ⟨y, found⟩ := Option.ne_none_iff_exists'.mp live
  refine ⟨y, found, ?_⟩
  have bare : l.bare addr = some y.untouched := by simp [Ledger.bare, found]
  by_cases created : ∃ prev, Change.created addr prev ∈ l.changes
  · obtain ⟨prev, member⟩ := created
    have zero := tracks.kept addr prev x member start
    funext key
    rcases tracks.coherent.committed_cases bare with blank | ⟨z, first, same⟩
    · rw [zero key]
      exact blank key
    · rw [start] at first
      cases first
      exact congrFun same key
  · obtain ⟨z, same, committed⟩ := tracks.coherent.committed_of_uncreated start
      fun prev member => created ⟨prev, member⟩
    rw [bare] at same
    cases same
    exact committed

namespace Watched

variable (watched : Watched {addr | addr ∈ lookedUp ops} (slotsOf ops) l) (tracks : Tracks init l)
  (clean : ∀ addr x, init addr = some x → x.current = x.committed)
  (covers : ∀ addr ∈ lookedUp ops, l.record.lookup addr ≠ none)
include watched tracks clean covers

theorem preAccount_eq (addr : Address) :
    l.preAccount addr = if addr ∈ lookedUp ops then (init addr).map
      (Account.recordOf (slotsOf ops addr)) else none := by
  unfold Ledger.preAccount
  split
  · rename_i member
    obtain ⟨entry, found⟩ := Option.ne_none_iff_exists'.mp (covers addr member)
    rw [found, tracks.recorded addr entry found]
    cases start : init addr with
    | none => rfl
    | some x =>
      obtain ⟨y, live, committed⟩ := tracks.committed start
      simp only [live, Option.map_some, Option.join_some, Option.bind_some, Option.some.injEq,
        Account.pre, Account.recordOf,
        watched.touched addr y live, committed, clean addr x start]
      rfl
  · rename_i missing
    have unrecorded : l.record.lookup addr = none := by
      by_contra recorded
      exact missing (watched.recorded addr recorded)
    rw [unrecorded]
    rfl

theorem postAccount_eq {dirty : Bool} (marked : dirty = true → l.record.lookup addr ≠ none)
    (unedited : dirty = false → ∀ edit, Change.edited addr edit ∉ l.changes)
    (made : dirty = false → Change.created addr none ∉ l.changes) :
    l.postAccount keccak deleteEmptyObjects addr dirty = if addr ∈ lookedUp ops then
      (l.closed keccak deleteEmptyObjects addr dirty).map (Account.recordOf (slotsOf ops addr)) else none := by
  unfold Ledger.postAccount Ledger.closed
  cases dirty with
  | true =>
    have member : addr ∈ lookedUp ops := watched.recorded addr (marked rfl)
    rw [if_pos rfl, if_pos rfl, if_pos member]
    cases found : l.accounts addr with
    | none => rfl
    | some x =>
      simp only [Option.bind_some]
      split
      · rfl
      · simp only [Option.map_some, Option.some.injEq, Account.post, Account.recordOf, watched.touched addr x found]
        rfl
  | false =>
    rw [if_neg Bool.false_ne_true, if_neg Bool.false_ne_true, watched.preAccount_eq tracks clean covers addr]
    split
    · cases start : init addr with
      | none =>
        have absent : l.accounts addr = none := by
          by_contra live
          exact made rfl (tracks.coherent.created_of_absent start (bare_ne_none.mpr live))
        simp [absent]
      | some x =>
        obtain ⟨y, bare, nonce, balance, code, current⟩ := tracks.coherent.info_of_unedited start (unedited rfl)
          (fun y member => (watched.replaced addr y member).2)
          (fun prev member key => by
            rw [clean addr x start]
            exact tracks.kept addr prev x member start key)
        obtain ⟨z, live, rfl⟩ := Option.map_eq_some_iff.mp bare
        rw [live]
        simp only [Account.untouched] at nonce balance code current
        simp only [Option.map_some, Account.recordOf, Account.info, nonce, balance, code, current]
    · rfl

end Watched

end Ledger

namespace StateDB

variable {gone : StateObject → Prop} {keccak : Bytes → Hash} {first : Nat} {s : StateDB} {l : Ledger}

/-- Operations that lose no touched slot: none is seen on an account that is made, or undone after it replaced
    another. -/
def Keeps (first : Nat) (seen : Address → Finset Hash) (s : StateDB) : Op → Prop
  | .createAccount addr => seen addr = ∅
  | .addBalance addr _ | .subBalance addr _ | .setBalance addr _ | .setNonce addr _ | .setCode addr _
  | .setState addr _ _ => s.liveObject addr = none → seen addr = ∅
  | .revertToSnapshot number => ∀ revision ∈ s.validRevisions, revision.id = first + number →
      ∀ prev, .resetObjectChange prev ∈ s.journal.entries.take (s.journal.length - revision.journalIndex) →
        prev.deleted = false → seen prev.address = ∅
  | _ => True

/-- The alloc holds exactly the accounts that were looked up and are there, with exactly the slots read or written
    on them. -/
def Records (ops : List Op) (s : StateDB) (alloc : SubstateAlloc) : Prop :=
  ∀ addr, alloc.lookup addr = if addr ∈ lookedUp ops then
    ((s.liveObject addr).map (StateObject.recordOf (slotsOf ops addr))).map some else none

theorem Models.keeps (models : Models gone first s l) {op : Op} {seen : Address → Finset Hash}
    (creatable : s.Creatable op) (clear : s.Clear op) (keeps : s.Keeps first seen op)
    (read : ∀ addr key, op = .getCommittedState addr key → key ∈ seen addr) : l.Keeps seen op := by
  have absent {addr : Address} (missing : l.accounts addr = none) : s.liveObject addr = none := by
    rw [models.accounts] at missing
    exact Option.map_eq_none_iff.mp missing
  cases op with
  | createAccount addr =>
    have record : l.record = s.researchPreAlloc := by rw [← models.same]; rfl
    refine ⟨by rw [record]; exact creatable.1, keeps, ?_⟩
    intro x found
    rw [models.accounts] at found
    obtain ⟨obj, live, rfl⟩ := Option.map_eq_some_iff.mp found
    exact ⟨clear obj live, creatable.2 obj live⟩
  | addBalance addr | subBalance addr | setBalance addr | setNonce addr | setCode addr | setState addr =>
    exact fun missing => keeps (absent missing)
  | getCommittedState addr key => exact read addr key rfl
  | revertToSnapshot number =>
    rw [← models.same]
    intro revision member same addr x undone
    obtain ⟨old, taken, rfl⟩ := List.mem_map.mp member
    simp only at same
    simp only [ledger, ← List.map_take, List.length_map] at undone
    obtain ⟨entry, inside, change⟩ := List.mem_map.mp undone
    cases entry with
    | resetObjectChange prev =>
      obtain ⟨rfl, live⟩ := Change.created.inj change
      have kept : prev.deleted = false := by
        cases marked : prev.deleted with
        | false => rfl
        | true => simp [StateObject.live, marked] at live
      exact keeps old taken (by omega) prev inside kept
    | _ => cases change
  | _ => trivial

theorem along_readBefore {past : List Op} (before : readBefore past ops = true) (s : StateDB) :
    Along (remember (exec keccak first)) (fun memory op => ∀ addr key,
      op = .getCommittedState addr key → key ∈ slotsOf memory.1 addr) (past, s) ops := by
  induction ops generalizing past s with
  | nil => trivial
  | cons op rest ih =>
    have split : (∀ addr key, op = .getCommittedState addr key → .getState addr key ∈ past) ∧
        readBefore (op :: past) rest = true := by
      cases op with
      | getCommittedState a k =>
        simp only [readBefore, Bool.and_eq_true, decide_eq_true_eq] at before
        refine ⟨?_, before.2⟩
        rintro addr key ⟨⟩
        exact before.1
      | _ => exact ⟨by rintro addr key ⟨⟩, before⟩
    refine ⟨?_, ?_⟩
    · intro addr key same
      exact mem_slotsOf.mpr ⟨_, split.1 addr key same, rfl⟩
    · rintro value ⟨past', s'⟩ executed
      obtain ⟨-, rfl⟩ := remember_ok executed
      exact ih split.2 s'

theorem Models.along_keeps (models : Models gone first s l) {past : List Op}
    (along : Along (remember (StateDB.exec keccak first)) (fun memory op =>
      (memory.2.Creatable op ∧ memory.2.Clear op ∧ memory.2.Keeps first (slotsOf memory.1) op) ∧
        ∀ addr key, op = .getCommittedState addr key → key ∈ slotsOf memory.1 addr) (past, s) ops) :
    Along (remember (Ledger.exec keccak)) (fun memory op => memory.2.Keeps (slotsOf memory.1) op)
      (past, l) ops := by
  have step (memory : List Op × StateDB) (memory' : List Op × Ledger) (op : Op)
      (related : memory.1 = memory'.1 ∧ Models gone first memory.2 memory'.2)
      (_ : (memory.2.Creatable op ∧ memory.2.Clear op ∧ memory.2.Keeps first (slotsOf memory.1) op) ∧
        ∀ addr key, op = .getCommittedState addr key → key ∈ slotsOf memory.1 addr) :
      Agrees (fun memory memory' => memory.1 = memory'.1 ∧ Models gone first memory.2 memory'.2)
        (remember (StateDB.exec keccak first) memory op) (remember (Ledger.exec keccak) memory' op) := by
    obtain ⟨past, s⟩ := memory
    obtain ⟨_, l⟩ := memory'
    obtain ⟨rfl, models⟩ := related
    exact remember_agrees (models.exec op)
  refine along.transfer step ?_ ⟨rfl, models⟩
  rintro ⟨past, s⟩ ⟨_, l⟩ op ⟨rfl, models⟩ ⟨⟨creatable, clear, keeps⟩, read⟩
  exact models.keeps creatable clear keeps read

theorem liveObject_recordOf (s : StateDB) (addr : Address) (slots : Finset Hash) :
    (s.liveObject addr).map (StateObject.recordOf slots) =
      ((s.peek addr).bind StateObject.live).map (Account.recordOf slots) := by
  rw [peek_live, Option.map_map]
  rfl

theorem prepare_recordOf (s : StateDB) (thash : Hash) (ti : Int) (addr : Address) (slots : Finset Hash) :
    ((s.prepare thash ti).liveObject addr).map (StateObject.recordOf slots) =
      (s.liveObject addr).map (StateObject.recordOf slots) := by
  simp only [liveObject, peek, prepare, Go.Map.lookup_mapValues]
  cases s.stateObjects.lookup addr with
  | none => rfl
  | some obj =>
    simp only [Option.map_some, Option.filter]
    split <;> rfl

theorem AtBoundary.watched {thash : Hash} {ti : Int} {values : List Value} {last : StateDB}
    (boundary : AtBoundary gone s) (unmarked : ∀ obj touched, gone obj → gone { obj with researchTouched := touched })
    (issued : Along (exec keccak s.nextRevisionId) Creatable (s.prepare thash ti) ops)
    (before : readBefore [] ops = true) (kept : Along (remember (exec keccak s.nextRevisionId)) (fun memory op =>
      memory.2.Clear op ∧ memory.2.Keeps s.nextRevisionId (slotsOf memory.1) op) ([], s.prepare thash ti) ops)
    (operated : (s.prepare thash ti).operate keccak ops = .ok (values, last)) :
    ∃ final, Models gone s.nextRevisionId last final ∧ final.Watched {addr | addr ∈ lookedUp ops} (slotsOf ops) ∧
      final.Tracks ((s.prepare thash ti).ledger s.nextRevisionId).accounts ∧
      ∀ addr ∈ lookedUp ops, final.record.lookup addr ≠ none := by
  have models : Models gone s.nextRevisionId (s.prepare thash ti) ((s.prepare thash ti).ledger s.nextRevisionId) :=
    ⟨boundary.sound unmarked thash ti, rfl⟩
  obtain ⟨⟨_, final⟩, run, same, models'⟩ := (models.run ops).ok operated
  cases same
  have along := models.along_keeps (((issued.remember []).and kept).and (along_readBefore before _))
  exact ⟨final, models', Ledger.Watched.run (boundary.fresh thash ti) along run⟩

theorem Models.post_eq {init : Address → Option Account} {deleteEmptyObjects : Bool} (models : Models gone first s l)
    (watched : l.Watched {addr | addr ∈ lookedUp ops} (slotsOf ops)) (tracks : Ledger.Tracks init l)
    (clean : ∀ addr x, init addr = some x → x.current = x.committed)
    (covers : ∀ addr ∈ lookedUp ops, l.record.lookup addr ≠ none) (redirtied : s.Redirtied) (addr : Address) :
    l.postAccount keccak deleteEmptyObjects addr (decide (addr ∈ s.journal.dirties.keys)) =
      if addr ∈ lookedUp ops then (l.closed keccak deleteEmptyObjects addr
        (decide (addr ∈ s.journal.dirties.keys))).map (Account.recordOf (slotsOf ops addr)) else none := by
  apply watched.postAccount_eq tracks clean covers
  · intro marked missing
    obtain ⟨sticky, away⟩ := tracks.unrecorded addr missing
    exact models.not_dirty sticky away (of_decide_eq_true marked)
  · exact fun unmarked => models.unedited tracks (of_decide_eq_false unmarked)
  · intro unmarked created
    apply of_decide_eq_false unmarked
    rcases models.entry_of_created created with created | ⟨prev, member, marked, rfl⟩
    · exact (models.mem_dirties addr).mpr (.inr created)
    · exact redirtied prev member marked

/-- What is recorded is exactly what was looked up, if no touched slot is lost with a replaced
    account and every account made over a deleted one is dirty. -/
theorem recorder_exact (keccak : Bytes → Hash) (deleteEmptyObjects : Bool) (thash : Hash) (ti : Int) (s : StateDB)
    (ops : List Op) (boundary : s.AtBoundary fun obj => deletes keccak deleteEmptyObjects obj = true)
    (issued : Machine.Along (exec keccak s.nextRevisionId) Creatable (s.prepare thash ti) ops)
    (before : readBefore [] ops = true)
    (kept : Machine.Along (Machine.remember (exec keccak s.nextRevisionId)) (fun memory op =>
      memory.2.Clear op ∧ memory.2.Keeps s.nextRevisionId (slotsOf memory.1) op) ([], s.prepare thash ti) ops)
    (values : List Value) (last : StateDB) (operated : (s.prepare thash ti).operate keccak ops = .ok (values, last))
    (redirtied : last.Redirtied) :
    ∃ s', last.finalise keccak deleteEmptyObjects = .ok s' ∧ Records ops s s'.researchPreAlloc ∧
      Records ops s' s'.researchPostAlloc := by
  have fresh := boundary.fresh thash ti
  obtain ⟨final, models, watched, tracks, covers⟩ :=
    boundary.watched (fun _ _ marked => marked) issued before kept operated
  obtain ⟨s', finalised, pre, post⟩ :=
    models.finalise_noted _ _ (operate_post operated) tracks.noted fun _ marked => marked
  have closed := models.finalise_accounts tracks.noted (fun _ marked => marked) finalised
  refine ⟨s', finalised, ?_, ?_⟩
  · intro addr
    rw [pre, watched.preAccount_eq tracks fresh.clean covers]
    split
    · rw [← prepare_recordOf s thash ti, liveObject_recordOf]
      rfl
    · rfl
  · intro addr
    rw [post, models.post_eq watched tracks fresh.clean covers redirtied]
    split
    · rw [liveObject_recordOf, closed]
    · rfl

def unreset (entries : List JournalEntry) : Bool :=
  entries.all fun
    | .resetObjectChange _ => false
    | _ => true

theorem not_mem_of_unreset {entries : List JournalEntry} {prev : StateObject} (none : unreset entries = true) :
    .resetObjectChange prev ∉ entries := by
  intro member
  have allowed := List.all_eq_true.mp none _ member
  cases allowed

theorem redirtied_of_unreset (none : unreset s.journal.entries = true) : s.Redirtied :=
  fun _ member => absurd member (not_mem_of_unreset none)

/-- A contract is deployed, writes a slot and reads one of another account, and all of it is reverted. -/
def revertedDeployment : List Op :=
  [.exist 2, .snapshot, .createAccount 2, .setState 2 3 4, .getState 1 0, .revertToSnapshot 0]

theorem revertedDeployment_issued : Along (exec (fun _ => emptyCodeHash) fundedStorage.nextRevisionId) Creatable
    (fundedStorage.prepare 0 0) revertedDeployment := by
  refine ⟨trivial, ?_⟩
  rintro _ _ ⟨⟩
  refine ⟨trivial, ?_⟩
  rintro _ _ ⟨⟩
  refine ⟨⟨by decide +kernel, ?_⟩, ?_⟩
  · intro obj live
    cases live
  · intro _ _ _
    exact ⟨trivial, fun _ _ _ => ⟨trivial, fun _ _ _ => ⟨trivial, fun _ _ _ => trivial⟩⟩⟩

theorem revertedDeployment_kept : Along
    (remember (exec (fun _ => emptyCodeHash) fundedStorage.nextRevisionId)) (fun memory op => memory.2.Clear op ∧
      memory.2.Keeps fundedStorage.nextRevisionId (slotsOf memory.1) op) ([], fundedStorage.prepare 0 0)
    revertedDeployment := by
  refine ⟨⟨trivial, trivial⟩, ?_⟩
  rintro _ _ ⟨⟩
  refine ⟨⟨trivial, trivial⟩, ?_⟩
  rintro _ _ ⟨⟩
  refine ⟨⟨?_, show slotsOf [.snapshot, .exist 2] 2 = ∅ by decide⟩, ?_⟩
  · intro obj live
    cases live
  · rintro _ _ ⟨⟩
    refine ⟨⟨trivial, fun _ => show slotsOf [.createAccount 2, .snapshot, .exist 2] 2 = ∅ by decide⟩, ?_⟩
    rintro _ _ ⟨⟩
    refine ⟨⟨trivial, trivial⟩, ?_⟩
    rintro _ _ ⟨⟩
    refine ⟨⟨trivial, ?_⟩, fun _ _ _ => trivial⟩
    intro revision member _ prev undone
    exact absurd (List.mem_of_mem_take undone) (not_mem_of_unreset (by decide +kernel))

theorem recorder_exact_reverted :
    ∃ values last s', (fundedStorage.prepare 0 0).operate (fun _ => emptyCodeHash) revertedDeployment =
        .ok (values, last) ∧ last.finalise (fun _ => emptyCodeHash) true = .ok s' ∧
      Records revertedDeployment fundedStorage s'.researchPreAlloc ∧
      Records revertedDeployment s' s'.researchPostAlloc := by
  have returns : ((fundedStorage.prepare 0 0).operate (fun _ => emptyCodeHash) revertedDeployment).toOption.any
      (fun result => unreset result.2.journal.entries) = true := by decide +kernel
  cases operated : (fundedStorage.prepare 0 0).operate (fun _ => emptyCodeHash) revertedDeployment with
  | error e =>
    rw [operated] at returns
    cases returns
  | ok result =>
    rw [operated] at returns
    obtain ⟨s', finalised, records⟩ := recorder_exact (fun _ => emptyCodeHash) true 0 0 fundedStorage _
      (new_atBoundary _) revertedDeployment_issued (by decide) revertedDeployment_kept _ _ operated
      (redirtied_of_unreset returns)
    exact ⟨result.1, result.2, s', rfl, finalised, records⟩

theorem transact_not_records {deleteEmptyObjects : Bool} (state : StateDB → StateDB) (alloc : StateDB → SubstateAlloc)
    (addr : Address) (differs : (s.transact keccak deleteEmptyObjects 0 0 ops).toOption.any (fun result =>
      decide ((alloc result.2).lookup addr ≠ if addr ∈ lookedUp ops then
        (((state result.2).liveObject addr).map (StateObject.recordOf (slotsOf ops addr))).map some else none)) =
          true) :
    ∃ values s', s.transact keccak deleteEmptyObjects 0 0 ops = .ok (values, s') ∧
      ¬ Records ops (state s') (alloc s') := by
  cases executed : s.transact keccak deleteEmptyObjects 0 0 ops with
  | error e =>
    rw [executed] at differs
    cases differs
  | ok result =>
    rw [executed] at differs
    exact ⟨result.1, result.2, rfl, fun records => of_decide_eq_true differs (records addr)⟩

/-- An account with a storage that is created anew is recorded with the slots of the new one, and one that is made
    over a deleted object is not recorded. -/
theorem recorder_inexact :
    ((fundedStorage.AtBoundary fun obj => deletes (fun _ => emptyCodeHash) true obj = true) ∧
      (∀ ops ∈ [[Op.getNonce 1, .createAccount 1, .getState 1 0],
          [.getNonce 1, .snapshot, .createAccount 1, .getState 1 0, .revertToSnapshot 0]],
        Machine.Along (exec (fun _ => emptyCodeHash) fundedStorage.nextRevisionId) Creatable
          (fundedStorage.prepare 0 0) ops ∧
        ∃ values s', fundedStorage.transact (fun _ => emptyCodeHash) true 0 0 ops = .ok (values, s') ∧
          ¬ Records ops fundedStorage s'.researchPreAlloc)) ∧
    ((deletedEarlier.AtBoundary fun obj => deletes (fun _ => emptyCodeHash) true obj = true) ∧
      ∃ values s', deletedEarlier.transact (fun _ => emptyCodeHash) true 0 0 [.subBalance 1 0] = .ok (values, s') ∧
        ¬ Records [.subBalance 1 0] s' s'.researchPostAlloc) := by
  refine ⟨⟨new_atBoundary _, ?_⟩, deletedEarlier_atBoundary true, ?_⟩
  · intro ops member
    rcases List.mem_cons.mp member with rfl | member
    · refine ⟨⟨trivial, ?_⟩, transact_not_records (fun _ => fundedStorage) researchPreAlloc 1 (by decide +kernel)⟩
      rintro _ _ ⟨⟩
      refine ⟨⟨by decide +kernel, ?_⟩, fun _ _ _ => ⟨trivial, fun _ _ _ => trivial⟩⟩
      intro obj live
      cases live
      exact ⟨rfl, rfl⟩
    · cases List.mem_singleton.mp member
      refine ⟨⟨trivial, ?_⟩, transact_not_records (fun _ => fundedStorage) researchPreAlloc 1 (by decide +kernel)⟩
      rintro _ _ ⟨⟩
      refine ⟨trivial, ?_⟩
      rintro _ _ ⟨⟩
      refine ⟨⟨by decide +kernel, ?_⟩, fun _ _ _ => ⟨trivial, fun _ _ _ => ⟨trivial, fun _ _ _ => trivial⟩⟩⟩
      intro obj live
      cases live
      exact ⟨rfl, rfl⟩
  · exact transact_not_records id researchPostAlloc 1 (by decide +kernel)

end StateDB

end IDWDetector.State
