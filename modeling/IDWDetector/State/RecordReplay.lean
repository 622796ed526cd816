import IDWDetector.State.Replay

namespace IDWDetector.State

open Go Machine

variable {thash : Hash} {ti : Int} {ops : List Op}

namespace StateDB

/-- A `StateDB` between two transactions. Objects deleted earlier in the block are
    still in the live set, as are slots whose writes were reverted. -/
structure AtBoundary (gone : StateObject → Prop) (s : StateDB) : Prop where
  journal : s.journal = .new
  revisions : s.validRevisions = []
  keyed : ∀ addr obj, s.stateObjects.lookup addr = some obj → obj.address = addr
  alive : ∀ addr obj, s.stateObjects.lookup addr = some obj → obj.deleted = false → obj.suicided = false
  clean : ∀ addr obj, s.stateObjects.lookup addr = some obj → obj.deleted = false →
    ∀ key, obj.current key = obj.committed key
  deleted : ∀ addr obj, s.stateObjects.lookup addr = some obj → obj.deleted = true → gone obj

/-- Every account made over one that was deleted earlier in the block is dirty. -/
def Redirtied (s : StateDB) : Prop :=
  ∀ prev, .resetObjectChange prev ∈ s.journal.entries → prev.deleted = true →
    prev.address ∈ s.journal.dirties.keys

/-- `MakeOffTheChainStateDB` on the recorded alloc, and the transaction on what it returns. -/
def replay (keccak : Bytes → Hash) (deleteEmptyObjects : Bool) (thash : Hash) (ti : Int) (alloc : SubstateAlloc)
    (order : List Address) (slots : Address → List Hash) (ops : List Op) :
    Except Panic (List Value × StateDB) := do
  let s ← makeOffTheChainStateDB keccak alloc order slots
  s.transact keccak deleteEmptyObjects thash ti ops

/-- A replay of the record returns the same values, in whichever order Go iterates it, and leaves `Equal` accounts
    behind. -/
def RecordSuffices (keccak : Bytes → Hash) (deleteEmptyObjects : Bool) (thash : Hash) (ti : Int) (s : StateDB)
    (ops : List Op) : Prop :=
  ∀ values s' order slots, s.transact keccak deleteEmptyObjects thash ti ops = .ok (values, s') →
    Map.Enumerates order s'.researchPreAlloc →
    (∀ addr sa, s'.researchPreAlloc.lookup addr = some (some sa) → Map.Enumerates (slots addr) sa.storage) →
    ∃ t, replay keccak deleteEmptyObjects thash ti s'.researchPreAlloc order slots ops = .ok (values, t) ∧
      SubstateAlloc.equal t.researchPostAlloc s'.researchPostAlloc = true

variable {gone : StateObject → Prop} {keccak : Bytes → Hash} {first : Nat} {s : StateDB} {l : Ledger}

theorem new_atBoundary (trie : Map Address StateAccount) : AtBoundary gone (.new trie) := by
  refine ⟨rfl, rfl, ?_, ?_, ?_, ?_⟩
  all_goals
    intro addr obj found
    cases found

theorem AtBoundary.sound (boundary : AtBoundary gone s) (unmarked : ∀ obj touched,
    gone obj → gone { obj with researchTouched := touched }) (thash : Hash) (ti : Int) :
    Sound gone (s.prepare thash ti) := by
  have found {addr : Address} {obj : StateObject} (looked : (s.prepare thash ti).stateObjects.lookup addr = some obj) :
      ∃ old, s.stateObjects.lookup addr = some old ∧ obj = { old with researchTouched := ∅ } := by
    simp only [prepare, Map.lookup_mapValues] at looked
    obtain ⟨old, present, same⟩ := Option.map_eq_some_iff.mp looked
    exact ⟨old, present, same.symm⟩
  have entries : (s.prepare thash ti).journal = .new := boundary.journal
  refine ⟨?_, ?_, ?_, ?_, ?_, ?_, ?_⟩
  · intro addr obj looked
    obtain ⟨old, present, rfl⟩ := found looked
    exact boundary.keyed addr old present
  · intro addr member
    rw [entries] at member
    cases member
  · intro addr recorded
    exact absurd rfl recorded
  · intro addr
    rw [entries]
    exact Int.le_refl 0
  · intro addr
    rw [entries]
    exact Option.some_ne_none 0 |>.symm
  · intro addr obj looked marked
    obtain ⟨old, present, rfl⟩ := found looked
    exact unmarked old ∅ (boundary.deleted addr old present marked)
  · intro prev member
    rw [entries] at member
    cases member

variable {addr : Address} {deleteEmptyObjects : Bool}

theorem AtBoundary.account (boundary : AtBoundary gone s) {x : Account}
    (found : ((s.prepare thash ti).ledger first).accounts addr = some x) :
    x.touched = ∅ ∧ x.suicided = false ∧ x.current = x.committed := by
  simp only [ledger] at found
  obtain ⟨obj, peeked, live⟩ := Option.bind_eq_some_iff.mp found
  have kept : obj.deleted = false := by
    cases marked : obj.deleted with
    | false => rfl
    | true => simp [StateObject.live, marked] at live
  rw [StateObject.live_of_not_deleted kept] at live
  cases live
  simp only [peek, prepare, Map.lookup_mapValues] at peeked
  cases loaded : s.stateObjects.lookup addr with
  | some old =>
    rw [loaded] at peeked
    cases peeked
    exact ⟨rfl, boundary.alive addr old loaded kept, funext (boundary.clean addr old loaded kept)⟩
  | none =>
    rw [loaded] at peeked
    obtain ⟨data, -, rfl⟩ := Option.map_eq_some_iff.mp peeked
    exact ⟨rfl, rfl, rfl⟩

theorem AtBoundary.fresh (boundary : AtBoundary gone s) (thash : Hash) (ti : Int) :
    Ledger.Fresh ((s.prepare thash ti).ledger s.nextRevisionId) := by
  have journal : (s.prepare thash ti).journal = .new := boundary.journal
  refine ⟨?_, ?_, rfl, ?_, ?_, ?_, ?_, ?_⟩
  · simp only [ledger, journal]
    rfl
  · funext addr
    simp only [ledger, journal]
    rfl
  · have revisions : (s.prepare thash ti).validRevisions = [] := boundary.revisions
    simp only [ledger, revisions]
    rfl
  · exact Int.sub_self _
  · exact fun addr x found => (boundary.account found).1
  · exact fun addr x found => (boundary.account found).2.1
  · exact fun addr x found => (boundary.account found).2.2

theorem Models.accounts (models : Models gone first s l) (addr : Address) :
    l.accounts addr = (s.liveObject addr).map StateObject.view := by
  rw [← models.same, ← peek_live]
  rfl

theorem Models.creatable (models : Models gone first s l) {op : Op} (creatable : s.Creatable op) (clear : s.Clear op) :
    l.Creatable op := by
  have record : l.record = s.researchPreAlloc := by rw [← models.same]; rfl
  cases op with
  | createAccount addr =>
    refine ⟨by rw [record]; exact creatable.1, ?_⟩
    intro x found key
    rw [models.accounts] at found
    obtain ⟨obj, live, rfl⟩ := Option.map_eq_some_iff.mp found
    exact clear obj live key
  | _ => trivial

theorem marks_entries (entries : List JournalEntry) (addr : Address) :
    Journal.marks entries addr = (entries.map JournalEntry.change).countP (Change.marks addr) +
      entries.countP (fun entry => decide (entry = .createObjectChange addr)) := by
  induction entries with
  | nil => rfl
  | cons entry rest ih =>
    unfold Journal.marks at ih ⊢
    rw [List.map_cons, List.countP_cons, List.countP_cons, List.countP_cons, ih]
    cases entry <;> simp [JournalEntry.dirtied, JournalEntry.change, Change.marks] <;> omega

section

variable (models : Models gone first s l)
include models

theorem Models.mem_dirties (addr : Address) :
    addr ∈ s.journal.dirties.keys ↔
      0 < l.sticky addr + l.marks addr ∨ .createObjectChange addr ∈ s.journal.entries := by
  have counted := models.sound.counted addr
  have sticky : l.sticky addr = s.journal.count addr - (Journal.marks s.journal.entries addr : Int) := by
    rw [← models.same]
    rfl
  have marks : l.marks addr = (s.journal.entries.map JournalEntry.change).countP (Change.marks addr) := by
    rw [← models.same]
    rfl
  have split := marks_entries s.journal.entries addr
  rw [mem_dirties_iff models.sound]
  by_cases created : .createObjectChange addr ∈ s.journal.entries
  · have positive : 0 < s.journal.entries.countP (fun entry => decide (entry = .createObjectChange addr)) :=
      List.countP_pos_iff.mpr ⟨_, created, by simp⟩
    constructor
    · intro _
      exact .inr created
    · intro _
      omega
  · have zero : s.journal.entries.countP (fun entry => decide (entry = .createObjectChange addr)) = 0 := by
      rw [List.countP_eq_zero]
      intro entry member same
      have equal : entry = .createObjectChange addr := by simpa using same
      exact created (equal ▸ member)
    constructor
    · intro positive
      exact .inl (by omega)
    · intro either
      have := either.resolve_right created
      omega

theorem Models.created_of_entry (member : .createObjectChange addr ∈ s.journal.entries) :
    Change.created addr none ∈ l.changes := by
  rw [← models.same]
  exact List.mem_map.mpr ⟨_, member, rfl⟩

theorem Models.not_dirty (sticky : l.sticky addr = 0) (away : ∀ change ∈ l.changes, change.addr ≠ some addr) :
    addr ∉ s.journal.dirties.keys := by
  intro dirty
  have unmarked := Ledger.Recorded.marks_eq_zero away
  rcases (models.mem_dirties addr).mp dirty with positive | created
  · omega
  · exact away _ (models.created_of_entry created) rfl

theorem Models.entry_of_created (member : Change.created addr none ∈ l.changes) :
    .createObjectChange addr ∈ s.journal.entries ∨
      ∃ prev, .resetObjectChange prev ∈ s.journal.entries ∧ prev.deleted = true ∧ prev.address = addr := by
  rw [← models.same] at member
  obtain ⟨entry, inside, same⟩ := List.mem_map.mp member
  cases entry with
  | createObjectChange a => cases same; exact .inl inside
  | resetObjectChange prev =>
    refine .inr ⟨prev, inside, ?_, ?_⟩
    · cases marked : prev.deleted with
      | true => rfl
      | false => simp [JournalEntry.change, StateObject.live, marked] at same
    · simp only [JournalEntry.change, Change.created.injEq] at same
      exact same.1
  | _ => cases same

end

theorem offTheChain_boundary {alloc : SubstateAlloc} {t : StateDB} (journal : t.journal = .new)
    (revisions : t.validRevisions = [])
    (stored : ∀ addr ∈ alloc.keys, ∃ obj sa, t.stateObjects.lookup addr = some obj ∧
      alloc.lookup addr = some (some sa) ∧ Stored sa addr obj)
    (absent : ∀ addr, addr ∉ alloc.keys → t.peek addr = none) : AtBoundary (fun _ => False) t := by
  have found {addr : Address} {obj : StateObject} (looked : t.stateObjects.lookup addr = some obj) :
      ∃ sa, Stored sa addr obj := by
    by_cases member : addr ∈ alloc.keys
    · obtain ⟨obj', sa, looked', -, object⟩ := stored addr member
      rw [looked] at looked'
      cases looked'
      exact ⟨sa, object⟩
    · have missing := absent addr member
      simp [peek, looked] at missing
  refine ⟨journal, revisions, ?_, ?_, ?_, ?_⟩
  · intro addr obj looked
    obtain ⟨sa, object⟩ := found looked
    exact object.address
  · intro addr obj looked _
    obtain ⟨sa, object⟩ := found looked
    exact object.settled.alive
  · intro addr obj looked _ key
    obtain ⟨sa, object⟩ := found looked
    rw [object.settled.current]
  · intro addr obj looked marked
    obtain ⟨sa, object⟩ := found looked
    rw [object.settled.kept] at marked
    cases marked

theorem offTheChain_accounts {alloc : SubstateAlloc} {t : StateDB}
    (stored : ∀ addr ∈ alloc.keys, ∃ obj sa, t.stateObjects.lookup addr = some obj ∧
      alloc.lookup addr = some (some sa) ∧ Stored sa addr obj)
    (absent : ∀ addr, addr ∉ alloc.keys → t.peek addr = none) (addr : Address) :
    ((t.prepare thash ti).ledger first).accounts addr = (alloc.lookup addr).join.map Account.rebuilt := by
  simp only [ledger, peek, prepare, Map.lookup_mapValues]
  by_cases member : addr ∈ alloc.keys
  · obtain ⟨obj, sa, looked, entry, object⟩ := stored addr member
    rw [looked, entry]
    have committed : obj.committed = fun key => sa.storage.getD key 0 := funext object.committed
    have view : ({ obj with researchTouched := ∅ } : StateObject).view = Account.rebuilt sa := by
      simp only [StateObject.view, Account.rebuilt, object.nonce, object.balance, object.code, object.settled.alive]
      congr 1
      exact object.settled.current.trans committed
    have kept : ({ obj with researchTouched := ∅ } : StateObject).deleted = false := object.settled.kept
    exact (StateObject.live_of_not_deleted kept).trans (congrArg some view)
  · have missing := absent addr member
    rw [(Map.not_mem_keys _ _).mp member]
    simp only [peek] at missing
    cases looked : t.stateObjects.lookup addr with
    | some obj => rw [looked] at missing; cases missing
    | none =>
      rw [looked] at missing
      simp only [Option.map_none, missing]
      rfl

theorem Models.run (models : Models gone first s l) (ops : List Op) :
    Agrees (Models gone first) (run (StateDB.exec keccak first) s ops)
      (run (Ledger.exec keccak) l ops) := by
  have step (s : StateDB) (l : Ledger) (op : Op) (related : Models gone first s l) (_ : True) :
      Agrees (Models gone first) (s.exec keccak first op) (l.exec keccak op) := related.exec op
  exact run_agrees step models (Along.of_forall (fun _ _ _ => trivial) s)

/-- Whatever operations a transaction makes, the journal and its objects give the values of the plain accounts and
    panic with them, and leave those accounts. -/
theorem run_refines (keccak : Bytes → Hash) (trie : Map Address StateAccount) (thash : Hash) (ti : Int)
    (ops : List Op) :
    Agrees (fun s l => s.ledger 0 = l) (run (StateDB.exec keccak 0) ((StateDB.new trie).prepare thash ti) ops)
      (run (Ledger.exec keccak) (((StateDB.new trie).prepare thash ti).ledger 0) ops) := by
  have sound : Sound (fun _ => True) ((StateDB.new trie).prepare thash ti) :=
    (new_atBoundary trie).sound (fun _ _ _ => trivial) thash ti
  have models : Models (fun _ => True) 0 ((StateDB.new trie).prepare thash ti) _ := ⟨sound, rfl⟩
  exact (models.run ops).imp fun _ _ related => ⟨related.1, related.2.same⟩

theorem Models.along (models : Models gone first s l)
    (along : Along (StateDB.exec keccak first) (fun s op => s.Creatable op ∧ s.Clear op) s ops) :
    Along (Ledger.exec keccak) Ledger.Creatable l ops := by
  have step (s : StateDB) (l : Ledger) (op : Op) (related : Models gone first s l)
      (_ : s.Creatable op ∧ s.Clear op) :
      Agrees (Models gone first) (s.exec keccak first op) (l.exec keccak op) := related.exec op
  exact along.transfer step (fun _ _ _ related granted => related.creatable granted.1 granted.2) models

theorem Models.finalise_noted (keccak : Bytes → Hash) (deleteEmptyObjects : Bool) (models : Models gone first s l)
    (posted : s.researchPostAlloc = .empty) (noted : l.Noted)
    (gone_deletes : ∀ obj, gone obj → deletes keccak deleteEmptyObjects obj = true) :
    ∃ s', s.finalise keccak deleteEmptyObjects = .ok s' ∧
      (∀ addr, s'.researchPreAlloc.lookup addr = (l.preAccount addr).map some) ∧
      ∀ addr, s'.researchPostAlloc.lookup addr =
        (l.postAccount keccak deleteEmptyObjects addr (decide (addr ∈ s.journal.dirties.keys))).map some := by
  apply models.finalise posted gone_deletes noted.present
  intro addr dirty missing
  obtain ⟨sticky, away⟩ := noted.unrecorded addr missing
  exact models.not_dirty sticky away dirty

theorem Ledger.Agree.noted {recorded : Ledger} {slots : Address → Set Hash}
    (agree : Ledger.Agree (Ledger.Recorded.scope recorded) slots recorded l) (noted : recorded.Noted) : l.Noted := by
  have addrs : recorded.changes.map Change.addr = l.changes.map Change.addr := by
    rw [← List.forall₂_eq_eq_eq, List.forall₂_map_left_iff, List.forall₂_map_right_iff]
    exact agree.changes.imp fun _ _ related => by cases related <;> rfl
  refine ⟨?_, ?_, ?_⟩
  · intro addr sa entry absent
    rw [← agree.record] at entry
    have inside : addr ∈ Ledger.Recorded.scope recorded := fun missing => by simp [entry] at missing
    rcases agree.accounts_cases inside with ⟨left, -⟩ | ⟨x, y, -, right, -⟩
    · exact noted.present addr sa entry left
    · rw [absent] at right
      cases right
  · intro addr member
    rw [← agree.record]
    exact noted.created addr ((agree.created_none_iff addr).mpr member)
  · intro addr missing
    rw [← agree.record] at missing
    obtain ⟨sticky, away⟩ := noted.unrecorded addr missing
    refine ⟨agree.sticky ▸ sticky, fun change member same => ?_⟩
    have listed := List.mem_map_of_mem (f := Change.addr) member
    rw [same, ← addrs] at listed
    obtain ⟨old, inside, same⟩ := List.mem_map.mp listed
    exact away old inside same

/-- The recorded alloc suffices, if `CreateAccount` replaces no account with a storage. -/
theorem replay_recorded (keccak : Bytes → Hash) (deleteEmptyObjects : Bool) (thash : Hash) (ti : Int)
    (s : StateDB) (ops : List Op)
    (boundary : s.AtBoundary fun obj => deletes keccak deleteEmptyObjects obj = true)
    (issued : Machine.Along (exec keccak s.nextRevisionId) (fun s op => s.Creatable op ∧ s.Clear op)
      (s.prepare thash ti) ops)
    (before : readBefore [] ops = true)
    (redirtied : deleteEmptyObjects = false → ∀ values last,
      (s.prepare thash ti).operate keccak ops = .ok (values, last) → last.Redirtied) :
    RecordSuffices keccak deleteEmptyObjects thash ti s ops := by
  intro values s' order slots executed listed enumerated
  obtain ⟨⟨_, last⟩, operated, rest⟩ := bind_ok.mp executed
  obtain ⟨_, finalise, result⟩ := bind_ok.mp rest
  cases result
  -- the recorded run, on the ledger
  have models : Models _ s.nextRevisionId (s.prepare thash ti) ((s.prepare thash ti).ledger s.nextRevisionId) :=
    ⟨boundary.sound (fun _ _ marked => marked) thash ti, rfl⟩
  obtain ⟨⟨_, final⟩, run, same, models'⟩ := (models.run ops).ok operated
  cases same
  have along := models.along issued
  have tracks := (boundary.fresh thash ti).tracks.moves (Ledger.run_moves along run)
  obtain ⟨s'', finalise', pre, post⟩ :=
    models'.finalise_noted _ _ (operate_post operated) tracks.noted fun _ marked => marked
  rw [finalise] at finalise'
  cases finalise'
  -- the state that is rebuilt from the record
  obtain ⟨t, made, journal, revisions, stored, absent⟩ : ∃ t, makeOffTheChainStateDB keccak s'.researchPreAlloc
      order slots = .ok t ∧ t.journal = .new ∧ t.validRevisions = [] ∧
      (∀ addr ∈ s'.researchPreAlloc.keys, ∃ obj sa, t.stateObjects.lookup addr = some obj ∧
        s'.researchPreAlloc.lookup addr = some (some sa) ∧ Stored sa addr obj) ∧
      ∀ addr, addr ∉ s'.researchPreAlloc.keys → t.peek addr = none := by
    apply makeOffTheChainStateDB_spec listed
    intro addr member
    obtain ⟨entry, found⟩ := (Map.mem_keys_iff _ _).mp ((listed.mem_iff addr).mp member)
    rw [pre] at found
    obtain ⟨sa, present, rfl⟩ := Option.map_eq_some_iff.mp found
    have entry : s'.researchPreAlloc.lookup addr = some (some sa) := by rw [pre, present]; rfl
    exact ⟨sa, entry, enumerated addr sa entry⟩
  have boundary' := offTheChain_boundary journal revisions stored absent
  have recorded : Ledger.Recorded keccak ops values ((s.prepare thash ti).ledger s.nextRevisionId) final
      ((t.prepare thash ti).ledger t.nextRevisionId) := by
    refine ⟨boundary.fresh thash ti, along, run, before, boundary'.fresh thash ti, ?_⟩
    intro addr
    rw [offTheChain_accounts stored absent, pre]
    cases final.preAccount addr <;> rfl
  -- the replay
  obtain ⟨final', run', agree⟩ := recorded.replays
  have replayed : Models _ t.nextRevisionId (t.prepare thash ti) ((t.prepare thash ti).ledger t.nextRevisionId) :=
    ⟨boundary'.sound (fun _ _ marked => marked) thash ti, rfl⟩
  obtain ⟨⟨_, last'⟩, operated', same, replayed'⟩ := (replayed.run ops).ok_right run'
  cases same
  have posted' : last'.researchPostAlloc = (t.prepare thash ti).researchPostAlloc := operate_post operated'
  obtain ⟨t', finalise', -, post'⟩ :=
    replayed'.finalise_noted _ deleteEmptyObjects posted' (Ledger.Agree.noted agree tracks.noted) fun _ => False.elim
  have transacted : t.transact keccak deleteEmptyObjects thash ti ops = .ok (values, t') :=
    bind_ok.mpr ⟨(values, last'), operated', bind_ok.mpr ⟨t', finalise', rfl⟩⟩
  have equal : t'.researchPostAlloc = s'.researchPostAlloc := by
    apply Map.ext
    intro addr
    rw [post, post']
    refine congrArg (Option.map some) (Eq.symm ?_)
    have dirty := models'.mem_dirties addr
    have dirty' := replayed'.mem_dirties addr
    apply recorded.postAccount_eq agree
    · intro marked
      rcases dirty.mp (of_decide_eq_true marked) with positive | created
      · exact .inl positive
      · exact .inr (models'.created_of_entry created)
    · intro positive
      exact decide_eq_true (dirty.mpr (.inl positive))
    · rw [decide_eq_true_iff, dirty']
      constructor
      · rintro (positive | created)
        · exact .inl positive
        · exact .inr (replayed'.created_of_entry created)
      · rintro (positive | created)
        · exact .inl positive
        · rcases replayed'.entry_of_created created with created | ⟨prev, member, marked, -⟩
          · exact .inr created
          · exact (replayed'.sound.replaced prev member marked).elim
    · intro flag created
      rcases models'.entry_of_created created with created | ⟨prev, member, marked, rfl⟩
      · exact decide_eq_true (dirty.mpr (.inr created))
      · exact decide_eq_true (redirtied flag values last operated prev member marked)
  refine ⟨t', bind_ok.mpr ⟨t, made, transacted⟩, ?_⟩
  rw [equal]
  exact SubstateAlloc.equal_refl _

theorem along_of_no_creation (none : ∀ addr, Op.createAccount addr ∉ ops) :
    Along (exec keccak first) (fun s op => s.Creatable op ∧ s.Clear op) s ops := by
  apply Along.of_forall
  intro op member t
  cases op with
  | createAccount addr => exact absurd member (none addr)
  | _ => exact ⟨trivial, trivial⟩

def fundedStorage : StateDB :=
  .new (Map.empty.set 1
    { nonce := 0, balance := 1, code := [], storage := Map.empty.set 0 5 })

theorem replay_recorded_funded :
    ((fundedStorage.transact (fun _ => emptyCodeHash) true 0 0
      [.exist 2, .createAccount 2, .setNonce 2 1, .getState 1 0, .snapshot, .setState 1 0 7, .suicide 1,
        .revertToSnapshot 0, .getCommittedState 1 0]).toOption.map (·.1)) =
      some [.bool false, .none, .none, .hash 5, .none, .none, .bool true, .none, .hash 5] ∧
    RecordSuffices (fun _ => emptyCodeHash) true 0 0 fundedStorage
      [.exist 2, .createAccount 2, .setNonce 2 1, .getState 1 0, .snapshot, .setState 1 0 7, .suicide 1,
        .revertToSnapshot 0, .getCommittedState 1 0] := by
  refine ⟨by decide +kernel, replay_recorded _ _ _ _ _ _ (new_atBoundary _) ?_ (by decide) (by simp)⟩
  refine ⟨⟨trivial, trivial⟩, ?_⟩
  rintro _ _ ⟨⟩
  refine ⟨⟨⟨by decide +kernel, ?_⟩, ?_⟩, ?_⟩
  · intro obj live
    cases live
  · intro obj live
    cases live
  · intro _ _ _
    exact along_of_no_creation (by simp)

theorem not_recordSuffices (values : List Value) (pre post : SubstateAlloc) (order : List Address)
    (slots : Address → List Hash)
    (recorded : ((s.transact keccak deleteEmptyObjects thash ti ops).toOption.map fun result =>
      (result.1, result.2.researchPreAlloc, result.2.researchPostAlloc)) = some (values, pre, post))
    (listed : Map.Enumerates order pre)
    (enumerated : ∀ addr sa, pre.lookup addr = some (some sa) → Map.Enumerates (slots addr) sa.storage)
    (differs : ((replay keccak deleteEmptyObjects thash ti pre order slots ops).toOption.map fun result =>
      decide (result.1 = values) && SubstateAlloc.equal result.2.researchPostAlloc post) ≠ some true) :
    ¬ RecordSuffices keccak deleteEmptyObjects thash ti s ops := by
  intro enough
  cases executed : s.transact keccak deleteEmptyObjects thash ti ops with
  | error e => rw [executed] at recorded; cases recorded
  | ok result =>
    rw [executed] at recorded
    cases recorded
    obtain ⟨t, replayed, equal⟩ := enough _ _ order slots executed listed enumerated
    apply differs
    rw [replayed]
    simp [Except.toOption, equal]

def deletedEarlier : StateDB :=
  { StateDB.new .empty with
    stateObjects := Map.empty.set 1 { newObject 1 .zero with suicided := true, deleted := true } }

theorem deletedEarlier_atBoundary (deleteEmptyObjects : Bool) :
    deletedEarlier.AtBoundary fun obj => deletes keccak deleteEmptyObjects obj = true := by
  refine ⟨rfl, rfl, ?_, ?_, ?_, ?_⟩
  all_goals
    intro addr obj found
    obtain ⟨rfl, rfl⟩ := Map.of_lookup_single found
  · rfl
  · rintro ⟨⟩
  · rintro ⟨⟩
  · exact fun _ => rfl

/-- An account that is read and then created anew loses its touched slots; one that is made over a deleted object is
    dirty in the replay only. -/
theorem record_insufficient :
    ((fundedStorage.AtBoundary fun obj => deletes (fun _ => emptyCodeHash) true obj = true) ∧
      Machine.Along (exec (fun _ => emptyCodeHash) fundedStorage.nextRevisionId) Creatable
        (fundedStorage.prepare 0 0) [.getState 1 0, .createAccount 1] ∧
      readBefore [] [.getState 1 0, .createAccount 1] = true ∧
      ¬ RecordSuffices (fun _ => emptyCodeHash) true 0 0 fundedStorage [.getState 1 0, .createAccount 1]) ∧
    ((deletedEarlier.AtBoundary fun obj => deletes (fun _ => emptyCodeHash) false obj = true) ∧
      Machine.Along (exec (fun _ => emptyCodeHash) deletedEarlier.nextRevisionId) Creatable
        (deletedEarlier.prepare 0 0) [.subBalance 1 0] ∧
      readBefore [] [.subBalance 1 0] = true ∧
      ¬ RecordSuffices (fun _ => emptyCodeHash) false 0 0 deletedEarlier [.subBalance 1 0]) := by
  refine ⟨⟨new_atBoundary _, ⟨trivial, ?_⟩, by decide, ?_⟩, deletedEarlier_atBoundary false,
    ⟨trivial, fun _ _ _ => trivial⟩, by decide, ?_⟩
  · rintro _ _ ⟨⟩
    refine ⟨⟨by decide +kernel, ?_⟩, fun _ _ _ => trivial⟩
    intro obj live
    cases live
    exact ⟨rfl, rfl⟩
  · apply not_recordSuffices [.hash 5, .none] (Map.empty.set 1 (some (newSubstateAccount 0 1 [])))
      (Map.empty.set 1 (some (newSubstateAccount 0 1 []))) [1] (fun _ => [])
    · decide +kernel
    · exact ⟨by simp, by simp⟩
    · intro addr sa found
      simp only [Map.lookup_set] at found
      split at found
      · cases found
        exact ⟨List.nodup_nil, by simp [newSubstateAccount]⟩
      · cases found
    · decide +kernel
  · apply not_recordSuffices [.none] .empty .empty [] (fun _ => [])
    · decide +kernel
    · exact ⟨List.nodup_nil, by simp⟩
    · intro addr sa found
      cases found
    · decide +kernel

end StateDB

end IDWDetector.State
