import IDWDetector.State.Ledger

namespace IDWDetector.State

open Go Machine

variable {obj : StateObject}

namespace StateObject

def view (obj : StateObject) : Account where
  nonce := obj.nonce
  balance := obj.balance
  code := obj.code
  suicided := obj.suicided
  touched := obj.researchTouched
  committed := obj.committed
  current := obj.current

def live (obj : StateObject) : Option Account := if obj.deleted then none else some obj.view

theorem live_of_not_deleted (kept : obj.deleted = false) : obj.live = some obj.view := by
  simp [live, kept]

theorem view_newObject (addr : Address) : (newObject addr .zero).view = .blank 0 := rfl

theorem view_of_committed {origin : Storage}
    (same : ({ obj with originStorage := origin } : StateObject).committed = obj.committed) :
    ({ obj with originStorage := origin } : StateObject).view = obj.view := by
  have currents : ({ obj with originStorage := origin } : StateObject).current = obj.current := by
    funext key
    simp only [current, same]
  simp only [view, same, currents]

theorem getCommittedState_spec (obj : StateObject) (key : Hash) :
    (obj.getCommittedState key).1 = obj.committed key ∧ (obj.getCommittedState key).2.view = obj.view ∧
      (obj.getCommittedState key).2.address = obj.address ∧
      (obj.getCommittedState key).2.deleted = obj.deleted := by
  unfold getCommittedState
  split
  · rename_i value _ pending
    simp [committed, pending]
  · rename_i value pending cached
    simp [committed, pending, cached]
  · rename_i pending cached
    have same : ({ obj with originStorage := obj.originStorage.set key (obj.trie.getD key 0) } :
        StateObject).committed = obj.committed := by
      funext k
      by_cases equal : k = key
      · subst equal
        simp [committed, pending, cached]
      · simp [committed, Map.lookup_set_of_ne _ _ equal]
    exact ⟨by simp [committed, pending, cached], view_of_committed same, rfl, rfl⟩

theorem getState_spec (obj : StateObject) (key : Hash) :
    (obj.getState key).1 = obj.view.current key ∧ (obj.getState key).2.view = obj.view.touch key ∧
      (obj.getState key).2.address = obj.address ∧ (obj.getState key).2.deleted = obj.deleted := by
  unfold getState
  simp only
  split
  · rename_i value dirty
    exact ⟨by simp [view, current, dirty], rfl, rfl, rfl⟩
  · rename_i clean
    obtain ⟨value, view, address, deleted⟩ := getCommittedState_spec
      { obj with researchTouched := insert key obj.researchTouched } key
    refine ⟨?_, view, address, deleted⟩
    rw [value]
    simp [StateObject.view, current, clean]
    rfl

theorem view_setState (obj : StateObject) (key value : Hash) :
    (obj.setState key value).view = obj.view.write key value := by
  have same : (obj.setState key value).current = Function.update obj.current key value := by
    funext k
    by_cases equal : k = key
    · subst equal
      simp [current, setState]
    · simp [current, setState, committed, Map.lookup_set_of_ne _ _ equal, equal]
  simp only [view, Account.write, same]
  rfl

end StateObject

def JournalEntry.change : JournalEntry → Change
  | .createObjectChange account => .created account none
  | .resetObjectChange prev => .created prev.address prev.live
  | .suicideChange account prev prevbalance => .edited account (.suicided prev prevbalance)
  | .balanceChange account prev => .edited account (.balance prev)
  | .nonceChange account prev => .edited account (.nonce prev)
  | .storageChange account key prevalue => .edited account (.storage key prevalue)
  | .codeChange account prevcode => .edited account (.code prevcode)
  | .touchChange account => .touched account
  | .refundChange _ | .addLogChange _ => .other

namespace Journal

def marks (entries : List JournalEntry) (addr : Address) : Nat :=
  entries.countP fun entry => decide (entry.dirtied = some addr)

def count (j : Journal) (addr : Address) : Int := j.dirties.getD addr 0

variable (j : Journal) (entry : JournalEntry)
include j entry

@[simp] theorem entries_append : (j.append entry).entries = entry :: j.entries := by
  unfold append dirty
  simp only
  split <;> rfl

theorem count_append (addr : Address) :
    (j.append entry).count addr - (marks (entry :: j.entries) addr : Int) =
      j.count addr - (marks j.entries addr : Int) := by
  unfold append
  simp only
  cases made : entry.dirtied with
  | none => simp [count, marks, made]
  | some a =>
    by_cases same : addr = a
    · subst same
      simp only [count, marks, made, dirty, Map.getD, Map.lookup_set_self, Option.getD_some,
        List.countP_cons, decide_true, if_true]
      omega
    · have different : a ≠ addr := fun equal => same equal.symm
      simp [count, marks, made, dirty, Map.getD, Map.lookup_set_of_ne _ _ same, different]

theorem count_undirty (addr : Address) :
    (j.undirty entry).count addr = j.count addr - if entry.dirtied = some addr then 1 else 0 := by
  unfold undirty
  cases made : entry.dirtied with
  | none => simp
  | some a =>
    by_cases same : addr = a
    · subst same
      simp only [count]
      split_ifs with zero
      · simp [Map.getD] at zero ⊢
        omega
      · simp [Map.getD]
    · have different : a ≠ addr := fun equal => same equal.symm
      simp only [count, Option.some.injEq, different, if_false, Int.sub_zero]
      split
      · simp [Map.getD, Map.lookup_delete_of_ne _ same]
      · simp [Map.getD, Map.lookup_set_of_ne _ _ same]

end Journal

namespace StateDB

/-- The ledger a `StateDB` stands for, in a transaction whose first snapshot has the id `first`. -/
def ledger (first : Nat) (s : StateDB) : Ledger where
  accounts := fun addr => (s.peek addr).bind StateObject.live
  changes := s.journal.entries.map JournalEntry.change
  sticky := fun addr => s.journal.count addr - (Journal.marks s.journal.entries addr : Int)
  record := s.researchPreAlloc
  revisions := s.validRevisions.map fun revision => ((revision.id : Int) - first, revision.journalIndex)
  next := (s.nextRevisionId : Int) - first

/-- What holds of a `StateDB` between two operations of a transaction. Every object
    that is marked as deleted is one that may be `gone`. -/
structure Sound (gone : StateObject → Prop) (s : StateDB) : Prop where
  keyed : ∀ addr obj, s.stateObjects.lookup addr = some obj → obj.address = addr
  created : ∀ addr, .createObjectChange addr ∈ s.journal.entries → s.trie.lookup addr = none
  loaded : ∀ addr, s.researchPreAlloc.lookup addr ≠ none → s.stateObjects.lookup addr = none →
    s.trie.lookup addr = none
  counted : ∀ addr, (Journal.marks s.journal.entries addr : Int) ≤ s.journal.count addr
  positive : ∀ addr, s.journal.dirties.lookup addr ≠ some 0
  deleted : ∀ addr obj, s.stateObjects.lookup addr = some obj → obj.deleted = true →
    gone obj
  replaced : ∀ prev, .resetObjectChange prev ∈ s.journal.entries → prev.deleted = true →
    gone prev

structure Models (gone : StateObject → Prop) (first : Nat) (s : StateDB) (l : Ledger) : Prop where
  sound : Sound gone s
  same : s.ledger first = l

theorem peek_live (s : StateDB) (addr : Address) :
    (s.peek addr).bind StateObject.live = (s.liveObject addr).map StateObject.view := by
  unfold liveObject
  cases s.peek addr with
  | none => rfl
  | some obj => cases marked : obj.deleted <;> simp [StateObject.live, marked]

theorem peek_setStateObject (s : StateDB) (obj : StateObject) (addr : Address) :
    (s.setStateObject obj).peek addr = if addr = obj.address then some obj else s.peek addr := by
  unfold peek setStateObject
  by_cases same : addr = obj.address
  · subst same
    simp
  · simp [Map.lookup_set_of_ne _ _ same, same]

theorem ledger_setStateObject (first : Nat) (s : StateDB) (obj : StateObject) :
    (s.setStateObject obj).ledger first = (s.ledger first).put obj.address obj.live := by
  have accounts : (fun addr => ((s.setStateObject obj).peek addr).bind StateObject.live) =
      Function.update (fun addr => (s.peek addr).bind StateObject.live) obj.address obj.live := by
    funext addr
    rw [peek_setStateObject]
    by_cases same : addr = obj.address
    · subst same
      simp
    · simp [same]
  simp only [ledger, Ledger.put, accounts]
  rfl

theorem ledger_append (first : Nat) (s : StateDB) (entry : JournalEntry) :
    (s.append entry).ledger first = (s.ledger first).push entry.change := by
  have sticky := funext fun addr => s.journal.count_append entry addr
  simp only [ledger, append, Ledger.push, Journal.entries_append, List.map_cons, sticky]
  rfl

theorem ledger_recordPre (first : Nat) (s : StateDB) (addr : Address) :
    (s.recordPre addr (((s.peek addr).bind StateObject.live).map Account.info)).ledger first =
      (s.ledger first).lookUp addr := by
  cases found : s.researchPreAlloc.lookup addr with
  | some entry => simp [recordPre, Ledger.lookUp, ledger, found]
  | none =>
    simp only [recordPre, Ledger.lookUp, ledger, found]
    rfl

section Loading

variable (s : StateDB) (addr : Address)

theorem getDeletedStateObject_fst : (s.getDeletedStateObject addr).1 = s.peek addr := by
  unfold getDeletedStateObject peek
  cases s.stateObjects.lookup addr with
  | some obj => rfl
  | none => cases s.trie.lookup addr <;> rfl

theorem getDeletedStateObject_snd :
    (s.getDeletedStateObject addr).2 = s ∨
      ∃ data, s.stateObjects.lookup addr = none ∧ s.trie.lookup addr = some data ∧
        (s.getDeletedStateObject addr).2 = s.setStateObject (newObject addr data) := by
  unfold getDeletedStateObject
  cases found : s.stateObjects.lookup addr with
  | some obj => exact .inl rfl
  | none =>
    cases stored : s.trie.lookup addr with
    | none => exact .inl rfl
    | some data => exact .inr ⟨data, rfl, rfl, rfl⟩

theorem getDeletedStateObject_pair :
    s.getDeletedStateObject addr = (s.peek addr, (s.getDeletedStateObject addr).2) := by
  rw [← getDeletedStateObject_fst]

theorem getDeletedStateObject_frame :
    (s.getDeletedStateObject addr).2.trie = s.trie ∧ (s.getDeletedStateObject addr).2.journal = s.journal := by
  rcases getDeletedStateObject_snd s addr with same | ⟨_, _, _, loaded⟩
  · rw [same]
    exact ⟨rfl, rfl⟩
  · rw [loaded]
    exact ⟨rfl, rfl⟩

theorem peek_getDeletedStateObject (other : Address) :
    (s.getDeletedStateObject addr).2.peek other = s.peek other := by
  rcases getDeletedStateObject_snd s addr with same | ⟨data, absent, stored, loaded⟩
  · rw [same]
  · rw [loaded, peek_setStateObject]
    split_ifs with equal
    · subst equal
      simp [peek, newObject, absent, stored]
    · rfl

theorem lookup_getDeletedStateObject :
    (s.getDeletedStateObject addr).2.stateObjects.lookup addr = s.peek addr := by
  unfold getDeletedStateObject peek
  cases found : s.stateObjects.lookup addr with
  | some obj => exact found
  | none =>
    cases stored : s.trie.lookup addr with
    | none => exact found
    | some data => simp [setStateObject, newObject]

theorem ledger_getDeletedStateObject (first : Nat) :
    (s.getDeletedStateObject addr).2.ledger first = s.ledger first := by
  rcases getDeletedStateObject_snd s addr with same | ⟨data, absent, stored, loaded⟩
  · rw [same]
  · have accounts := funext fun other => congrArg (Option.bind · StateObject.live)
      (peek_getDeletedStateObject s addr other)
    simp only [ledger]
    rw [accounts, loaded]
    rfl

variable {s addr}

theorem trie_of_peek (absent : s.peek addr = none) : s.trie.lookup addr = none := by
  unfold peek at absent
  split at absent
  · cases absent
  · exact Option.map_eq_none_iff.mp absent

theorem peek_cases (found : s.peek addr = some obj) :
    s.stateObjects.lookup addr = some obj ∨ ∃ data, obj = newObject addr data := by
  unfold peek at found
  split at found
  · rename_i loaded
    cases found
    exact .inl loaded
  · obtain ⟨data, _, rfl⟩ := Option.map_eq_some_iff.mp found
    exact .inr ⟨data, rfl⟩

end Loading

variable {gone : StateObject → Prop} {keccak : Bytes → Hash} {first : Nat} {s : StateDB} {l : Ledger}
  {obj : StateObject} {entry : JournalEntry} {addr : Address}

theorem Sound.setStateObject (sound : Sound gone s) (fine : obj.deleted = true → gone obj) :
    Sound gone (s.setStateObject obj) := by
  refine { sound with keyed := ?_, loaded := ?_, deleted := ?_ }
  · intro addr found member
    rcases Map.of_lookup_set member with ⟨rfl, rfl⟩ | member
    · rfl
    · exact sound.keyed addr found member
  · intro addr recorded absent
    simp only [StateDB.setStateObject, Map.lookup_set] at absent
    split at absent
    · cases absent
    · exact sound.loaded addr recorded absent
  · intro addr found member marked
    rcases Map.of_lookup_set member with ⟨-, rfl⟩ | member
    · exact fine marked
    · exact sound.deleted addr found member marked

theorem Sound.append (sound : Sound gone s)
    (created : ∀ addr, entry = .createObjectChange addr → s.trie.lookup addr = none)
    (replaced : ∀ prev, entry = .resetObjectChange prev → prev.deleted = true → gone prev) :
    Sound gone (s.append entry) := by
  refine { sound with created := ?_, counted := ?_, positive := ?_, replaced := ?_ }
  · intro addr member
    simp only [StateDB.append, Journal.entries_append] at member
    rcases List.mem_cons.mp member with same | member
    · exact created addr same.symm
    · exact sound.created addr member
  · intro addr
    have before := sound.counted addr
    have after := s.journal.count_append entry addr
    simp only [StateDB.append, Journal.entries_append]
    omega
  · intro addr
    have before := sound.positive addr
    have count := sound.counted addr
    simp only [StateDB.append, Journal.append]
    cases made : entry.dirtied with
    | none => exact before
    | some a =>
      simp only [Journal.dirty, Map.lookup_set]
      split_ifs with same
      · subst same
        simp only [Journal.count] at count
        intro zero
        have := Option.some.inj zero
        omega
      · exact before
  · intro prev member
    simp only [StateDB.append, Journal.entries_append] at member
    rcases List.mem_cons.mp member with same | member
    · exact replaced prev same.symm
    · exact sound.replaced prev member

theorem Sound.getDeletedStateObject (sound : Sound gone s) (addr : Address) :
    Sound gone (s.getDeletedStateObject addr).2 := by
  rcases getDeletedStateObject_snd s addr with same | ⟨data, absent, stored, loaded⟩
  · rw [same]
    exact sound
  · rw [loaded]
    exact sound.setStateObject (by rintro ⟨⟩)

theorem Sound.recordPre (sound : Sound gone s)
    (loaded : s.stateObjects.lookup addr = none → s.trie.lookup addr = none) (entry : Option SubstateAccount) :
    Sound gone (s.recordPre addr entry) := by
  unfold StateDB.recordPre
  split
  · exact sound
  · refine { sound with loaded := ?_ }
    intro a recorded absent
    simp only [Map.lookup_set] at recorded
    split at recorded
    · rename_i same
      subst same
      exact loaded absent
    · exact sound.loaded a recorded absent

theorem Models.setStateObject (models : Models gone first s l) (obj : StateObject) {x : Account}
    (kept : obj.deleted = false) (address : obj.address = addr) (view : obj.view = x) :
    Models gone first (s.setStateObject obj) (l.put addr (some x)) := by
  refine ⟨models.sound.setStateObject (by rw [kept]; rintro ⟨⟩), ?_⟩
  rw [ledger_setStateObject, models.same, StateObject.live_of_not_deleted kept, address, view]

theorem Models.append (models : Models gone first s l) (entry : JournalEntry)
    (created : ∀ addr, entry = .createObjectChange addr → s.trie.lookup addr = none)
    (replaced : ∀ prev, entry = .resetObjectChange prev → prev.deleted = true →
      gone prev) :
    Models gone first (s.append entry) (l.push entry.change) := by
  refine ⟨models.sound.append created replaced, ?_⟩
  rw [ledger_append, models.same]

theorem peek_address (sound : Sound gone s) (found : s.peek addr = some obj) : obj.address = addr := by
  rcases peek_cases found with loaded | ⟨data, rfl⟩
  · exact sound.keyed addr obj loaded
  · rfl

theorem peek_deleted (sound : Sound gone s) (found : s.peek addr = some obj) (marked : obj.deleted = true) :
    gone obj := by
  rcases peek_cases found with loaded | ⟨data, rfl⟩
  · exact sound.deleted addr obj loaded marked
  · cases marked

section

variable (models : Models gone first s l)
include models

theorem Models.getStateObject (addr : Address) :
    (∃ s', s.getStateObject addr = (none, s') ∧ l.accounts addr = none ∧
        Models gone first s' (l.lookUp addr)) ∨
      ∃ obj s', s.getStateObject addr = (some obj, s') ∧ l.accounts addr = some obj.view ∧
        obj.address = addr ∧ obj.deleted = false ∧
        Models gone first s' (l.lookUp addr) := by
  have accounts : l.accounts addr = (s.peek addr).bind StateObject.live := by rw [← models.same]; rfl
  have record (entry : Option SubstateAccount) (same : entry = (l.accounts addr).map Account.info) :
      Models gone first ((s.getDeletedStateObject addr).2.recordPre addr entry)
        (l.lookUp addr) := by
    refine ⟨(models.sound.getDeletedStateObject addr).recordPre ?_ entry, ?_⟩
    · intro absent
      rw [lookup_getDeletedStateObject] at absent
      rw [(getDeletedStateObject_frame s addr).1]
      exact trie_of_peek absent
    · rw [same, accounts, ← peek_getDeletedStateObject s addr addr, ledger_recordPre,
        ledger_getDeletedStateObject, models.same]
  unfold StateDB.getStateObject
  rw [getDeletedStateObject_pair]
  cases found : s.peek addr with
  | none =>
    rw [found] at accounts
    exact .inl ⟨_, rfl, accounts, record none (by rw [accounts]; rfl)⟩
  | some obj =>
    rw [found] at accounts
    cases marked : obj.deleted with
    | true =>
      have absent : l.accounts addr = none := by rw [accounts]; simp [StateObject.live, marked]
      simp only [marked, if_true]
      exact .inl ⟨_, rfl, absent, record none (by rw [absent]; rfl)⟩
    | false =>
      have present : l.accounts addr = some obj.view := by
        rw [accounts]
        simp [StateObject.live, marked]
      simp only [marked]
      exact .inr ⟨obj, _, rfl, present, peek_address models.sound found, marked,
        record _ (by rw [present]; rfl)⟩

theorem Models.createObject (addr : Address) :
    ∃ prev s', s.createObject addr = (newObject addr .zero, prev, s') ∧
      (prev.map StateObject.balance).getD 0 = l.balanceOf addr ∧ (prev = none → l.balanceOf addr = 0) ∧
      Models gone first s' (l.create addr 0) := by
  have accounts : l.accounts addr = (s.peek addr).bind StateObject.live := by rw [← models.same]; rfl
  have loaded : Models gone first (s.getDeletedStateObject addr).2 l :=
    ⟨models.sound.getDeletedStateObject addr, by rw [ledger_getDeletedStateObject, models.same]⟩
  unfold StateDB.createObject
  rw [getDeletedStateObject_pair]
  cases found : s.peek addr with
  | none =>
    rw [found] at accounts
    have absent : l.accounts addr = none := accounts
    have trie := trie_of_peek ((peek_getDeletedStateObject s addr addr).trans found)
    have appended := loaded.append (.createObjectChange addr)
      (by rintro a ⟨⟩; exact trie) (by rintro prev ⟨⟩)
    have created := appended.setStateObject (newObject addr .zero) rfl rfl rfl
    refine ⟨none, _, rfl, by simp [Ledger.balanceOf, absent], by simp [Ledger.balanceOf, absent], ?_⟩
    simp only [Ledger.create, absent]
    exact created
  | some prev =>
    rw [found] at accounts
    have address := peek_address models.sound found
    have appended := loaded.append (.resetObjectChange prev) (by rintro a ⟨⟩)
      (by rintro p ⟨⟩; exact peek_deleted models.sound found)
    have created := appended.setStateObject (newObject addr .zero) rfl rfl rfl
    have change : (JournalEntry.resetObjectChange prev).change = .created addr (l.accounts addr) := by
      simp only [JournalEntry.change, address, accounts]
      rfl
    refine ⟨_, _, rfl, ?_, ?_, ?_⟩
    · cases marked : prev.deleted with
      | true => simp [Ledger.balanceOf, accounts, StateObject.live, marked]
      | false =>
        simp only [Ledger.balanceOf, accounts, Option.bind_some, StateObject.live, marked]
        rfl
    · cases marked : prev.deleted <;> simp [Ledger.balanceOf, accounts, StateObject.live, marked]
    · rw [change] at created
      exact created

theorem Models.getOrNewStateObject (addr : Address) :
    ∃ obj s', s.getOrNewStateObject addr = (obj, s') ∧ obj.address = addr ∧ obj.deleted = false ∧
      obj.view = (l.getOrNew addr).1 ∧ Models gone first s' (l.getOrNew addr).2 := by
  unfold StateDB.getOrNewStateObject Ledger.getOrNew
  rcases models.getStateObject addr with ⟨s', looked, absent, models'⟩ |
    ⟨obj, s', looked, present, address, kept, models'⟩
  · obtain ⟨prev, s'', created, -, -, models''⟩ := models'.createObject addr
    rw [looked, absent]
    simp only [created]
    exact ⟨_, _, rfl, rfl, rfl, StateObject.view_newObject addr, models''⟩
  · rw [looked, present]
    exact ⟨obj, s', rfl, address, kept, rfl, models'⟩

theorem Models.edit {edit : Edit} {x : Account} (kept : obj.deleted = false) (address : obj.address = addr)
    (view : obj.view = x) (change : entry.change = .edited addr edit) :
    Models gone first ((s.append entry).setStateObject obj) (l.edit addr edit x) := by
  have created : ∀ a, entry = .createObjectChange a → s.trie.lookup a = none := by
    rintro a rfl
    cases change
  have replaced : ∀ prev, entry = .resetObjectChange prev → prev.deleted = true →
      gone prev := by
    rintro prev rfl
    cases change
  have appended := models.append entry created replaced
  rw [change] at appended
  exact appended.setStateObject _ kept address view

theorem Models.dirty (addr : Address) :
    Models gone first { s with journal := s.journal.dirty addr }
      { l with sticky := Function.update l.sticky addr (l.sticky addr + 1) } := by
  have more (a : Address) : (s.journal.dirty addr).count a = s.journal.count a + if a = addr then 1 else 0 := by
    simp only [Journal.count, Journal.dirty, Map.getD, Map.lookup_set]
    split_ifs with same
    · subst same
      rfl
    · simp
  refine ⟨{ models.sound with counted := ?_, positive := ?_ }, ?_⟩
  · intro a
    have before := models.sound.counted a
    rw [more]
    simp only [Journal.dirty]
    split <;> omega
  · intro a
    have before := models.sound.positive a
    have count := models.sound.counted a
    simp only [Journal.dirty, Map.lookup_set]
    split_ifs with same
    · subst same
      simp only [Journal.count] at count
      intro zero
      have := Option.some.inj zero
      omega
    · exact before
  · rw [← models.same]
    simp only [ledger, more]
    congr 1
    funext a
    simp only [Journal.dirty, Function.update_apply]
    split
    · rename_i same
      subst same
      omega
    · omega

theorem Models.touch (obj : StateObject) : Models gone first (s.touch obj) (l.touch obj.address) := by
  have appended := models.append (.touchChange obj.address) (by rintro a ⟨⟩) (by rintro prev ⟨⟩)
  unfold StateDB.touch Ledger.touch
  simp only
  split
  · exact appended.dirty obj.address
  · exact appended

theorem Models.objectSetBalance (kept : obj.deleted = false) (amount : Int) :
    Models gone first (s.objectSetBalance obj amount)
      (l.edit obj.address (.balance obj.balance) { obj.view with balance := amount }) :=
  models.edit kept rfl rfl rfl

theorem Models.addBalance (addr : Address) (amount : Int) :
    Models gone first (s.addBalance keccak addr amount) (l.addBalance keccak addr amount) := by
  obtain ⟨obj, s', obtained, rfl, kept, view, models'⟩ := models.getOrNewStateObject addr
  unfold StateDB.addBalance Ledger.addBalance
  simp only [obtained, ← view]
  split
  · have same : obj.empty keccak = obj.view.empty keccak := rfl
    rw [same]
    split
    · exact models'.touch obj
    · exact models'
  · exact models'.objectSetBalance kept _

theorem Models.subBalance (addr : Address) (amount : Int) :
    Models gone first (s.subBalance addr amount) (l.subBalance addr amount) := by
  obtain ⟨obj, s', obtained, rfl, kept, view, models'⟩ := models.getOrNewStateObject addr
  unfold StateDB.subBalance Ledger.subBalance
  simp only [obtained, ← view]
  split
  · exact models'
  · exact models'.objectSetBalance kept _

theorem Models.setState (addr : Address) (key value : Hash) :
    Models gone first (s.setState addr key value) (l.setState addr key value) := by
  obtain ⟨obj, s', obtained, rfl, kept, view, models'⟩ := models.getOrNewStateObject addr
  obtain ⟨current, touched, address, deleted⟩ := obj.getState_spec key
  unfold StateDB.setState Ledger.setState
  simp only [obtained, ← view, current]
  split
  · exact models'.setStateObject _ (deleted.trans kept) address touched
  · refine models'.edit (deleted.trans kept) address ?_ ?_
    · rw [StateObject.view_setState, touched]
    · simp only [JournalEntry.change, address]

theorem Models.createAccount (addr : Address) :
    Models gone first (s.createAccount addr) (l.create addr (l.balanceOf addr)) := by
  obtain ⟨prev, s', created, balance, fresh, models'⟩ := models.createObject addr
  unfold StateDB.createAccount
  rw [created]
  cases prev with
  | none =>
    rw [fresh rfl]
    exact models'
  | some p =>
    have carried : p.balance = l.balanceOf addr := balance
    have set : Models gone first
        (s'.setStateObject ((newObject addr .zero).setBalance p.balance))
        ((l.create addr 0).put addr (some (.blank p.balance))) := models'.setStateObject _ rfl rfl rfl
    rw [Ledger.create, Ledger.put_put] at set
    rw [← carried]
    exact set

theorem Models.modifyObject {edit : Edit} {body : StateObject → StateObject} (required : edit.required = true)
    (view : ∀ obj, (body obj).view = edit.undo obj.view)
    (kept : ∀ obj, (body obj).address = obj.address ∧ (body obj).deleted = obj.deleted) :
    Both (Models gone first) (s.modifyObject addr body) (l.undo (.edited addr edit)) := by
  unfold StateDB.modifyObject Ledger.undo
  rcases models.getStateObject addr with ⟨s', looked, absent, models'⟩ |
    ⟨obj, s', looked, present, address, live, models'⟩
  · simp only [looked, absent, required]
    trivial
  · simp only [looked, present]
    exact models'.setStateObject _ ((kept obj).2.trans live) ((kept obj).1.trans address) (view obj)

theorem Models.revertEntry (member : entry ∈ s.journal.entries) :
    Both (Models gone first) (s.revertEntry entry) (l.undo entry.change) := by
  have sound := models.sound
  cases entry with
  | createObjectChange addr =>
    have trie := sound.created addr member
    refine ⟨{ sound with keyed := ?_, loaded := ?_, deleted := ?_ }, ?_⟩
    · intro a obj found
      simp only [Map.lookup_delete] at found
      split at found
      · cases found
      · exact sound.keyed a obj found
    · intro a recorded absent
      simp only [Map.lookup_delete] at absent
      split at absent
      · rename_i same
        subst same
        exact trie
      · exact sound.loaded a recorded absent
    · intro a obj found
      simp only [Map.lookup_delete] at found
      split at found
      · cases found
      · exact sound.deleted a obj found
    · rw [← models.same]
      simp only [ledger, Ledger.put]
      congr 1
      funext a
      rw [Function.update_apply]
      by_cases same : a = addr
      · subst same
        simp [peek, trie]
      · simp [peek, Map.lookup_delete_of_ne _ same, same]
  | resetObjectChange prev =>
    refine ⟨sound.setStateObject (sound.replaced prev member), ?_⟩
    rw [ledger_setStateObject, models.same]
  | suicideChange addr prev prevbalance =>
    simp only [StateDB.revertEntry, JournalEntry.change, Ledger.undo]
    rcases models.getStateObject addr with ⟨s', looked, absent, models'⟩ |
      ⟨obj, s', looked, present, address, live, models'⟩
    · simp only [looked, absent]
      exact models'
    · simp only [looked, present]
      exact models'.setStateObject _ live address rfl
  | balanceChange addr prev => exact models.modifyObject rfl (fun _ => rfl) fun _ => ⟨rfl, rfl⟩
  | nonceChange addr prev => exact models.modifyObject rfl (fun _ => rfl) fun _ => ⟨rfl, rfl⟩
  | storageChange addr key prevalue =>
    exact models.modifyObject rfl (fun obj => obj.view_setState key prevalue) fun _ => ⟨rfl, rfl⟩
  | codeChange addr prevcode => exact models.modifyObject rfl (fun _ => rfl) fun _ => ⟨rfl, rfl⟩
  | touchChange addr => exact models
  | refundChange prev => exact ⟨{ sound with }, models.same⟩
  | addLogChange txhash => exact ⟨{ sound with }, models.same⟩

end

theorem getStateObject_journal (s : StateDB) (addr : Address) : (s.getStateObject addr).2.journal = s.journal := by
  have loaded := (getDeletedStateObject_frame s addr).2
  have recorded (t : StateDB) (entry : Option SubstateAccount) : (t.recordPre addr entry).journal = t.journal := by
    unfold recordPre
    split <;> rfl
  unfold getStateObject
  split
  · rename_i obj t found
    rw [found] at loaded
    split
    · exact (recorded t _).trans loaded
    · exact (recorded t _).trans loaded
  · rename_i t found
    rw [found] at loaded
    exact (recorded t _).trans loaded

theorem modifyObject_journal {s s' : StateDB} {body : StateObject → StateObject}
    (modified : s.modifyObject addr body = .ok s') : s'.journal = s.journal := by
  have looked := getStateObject_journal s addr
  unfold modifyObject at modified
  split at modified
  · cases modified
  · rename_i obj t found
    rw [found] at looked
    cases modified
    exact looked

theorem revertEntry_journal {s s' : StateDB} (reverted : s.revertEntry entry = .ok s') : s'.journal = s.journal := by
  cases entry with
  | createObjectChange | resetObjectChange | refundChange | addLogChange | touchChange =>
    cases reverted
    rfl
  | balanceChange | nonceChange | storageChange | codeChange => exact modifyObject_journal reverted
  | suicideChange addr prev prevbalance =>
    have looked := getStateObject_journal s addr
    simp only [revertEntry] at reverted
    split at reverted <;> rename_i found <;> rw [found] at looked <;> cases reverted <;> exact looked

theorem Models.pop (models : Models gone first s l) {rest : List JournalEntry}
    (entries : s.journal.entries = entry :: rest) :
    Models gone first
      { s with journal := { s.journal.undirty entry with entries := rest } }
      { l with changes := rest.map JournalEntry.change } := by
  have sound := models.sound
  have shorter : ∀ e ∈ rest, e ∈ s.journal.entries := fun e member => entries ▸ List.mem_cons_of_mem _ member
  have marks (addr : Address) : Journal.marks s.journal.entries addr =
      Journal.marks rest addr + if entry.dirtied = some addr then 1 else 0 := by
    rw [entries]
    simp [Journal.marks, List.countP_cons]
  have counts (addr : Address) :
      ({ s.journal.undirty entry with entries := rest } : Journal).count addr =
        s.journal.count addr - if entry.dirtied = some addr then 1 else 0 :=
    s.journal.count_undirty entry addr
  refine ⟨{ sound with created := ?_, counted := ?_, positive := ?_, replaced := ?_ }, ?_⟩
  · intro addr member
    exact sound.created addr (shorter _ member)
  · intro addr
    have before := sound.counted addr
    rw [marks] at before
    rw [counts]
    by_cases made : entry.dirtied = some addr
    · rw [if_pos made] at before ⊢
      simp only
      omega
    · rw [if_neg made] at before ⊢
      simp only
      omega
  · intro addr
    have positive := sound.positive addr
    simp only [Journal.undirty]
    cases made : entry.dirtied with
    | none => exact positive
    | some a =>
      by_cases same : addr = a
      · subst same
        simp only
        split_ifs with nonzero
        · simp
        · simp only [Map.lookup_set_self]
          exact fun zero => nonzero (Option.some.inj zero)
      · simp only
        split
        · rw [Map.lookup_delete_of_ne _ same]
          exact positive
        · rw [Map.lookup_set_of_ne _ _ same]
          exact positive
  · intro prev member
    exact sound.replaced prev (shorter _ member)
  · rw [← models.same]
    simp only [ledger]
    congr 1
    funext addr
    rw [counts, marks]
    by_cases made : entry.dirtied = some addr
    · rw [if_pos made, if_pos made]
      omega
    · rw [if_neg made, if_neg made]
      omega

theorem Models.revertEntries (snapshot : Nat) {entries : List JournalEntry}
    (models : Models gone first s l) (same : s.journal.entries = entries) :
    Both (Models gone first) (StateDB.revertEntries snapshot entries s)
      (Ledger.undoChanges snapshot (entries.map JournalEntry.change) l) := by
  induction entries generalizing s l with
  | nil => exact models
  | cons entry rest ih =>
    simp only [StateDB.revertEntries, List.map_cons, Ledger.undoChanges, List.length_map]
    split
    · refine (models.revertEntry (by rw [same]; exact List.mem_cons_self)).bind ?_
      intro s' l' reverted models'
      have entries : s'.journal.entries = entry :: rest := by rw [revertEntry_journal reverted, same]
      exact ih (models'.pop entries) rfl
    · exact models

variable (models : Models gone first s l)
include models

theorem Models.revertToSnapshot (number : Nat) :
    Both (Models gone first) (s.revertToSnapshot (first + number)) (l.revert number) := by
  have revisions : l.revisions = s.validRevisions.map
      fun revision => ((revision.id : Int) - first, revision.journalIndex) := by rw [← models.same]; rfl
  have changes : l.changes = s.journal.entries.map JournalEntry.change := by rw [← models.same]; rfl
  have search : l.revisions.findIdx (fun revision => decide ((number : Int) ≤ revision.1)) =
      s.validRevisions.findIdx (fun revision => decide (first + number ≤ revision.id)) := by
    rw [revisions, List.findIdx_map]
    congr 1
    funext revision
    simp only [Function.comp, decide_eq_decide]
    omega
  simp only [StateDB.revertToSnapshot, Ledger.revert, search]
  rw [revisions, List.getElem?_map]
  cases found : s.validRevisions[s.validRevisions.findIdx (fun revision => decide (first + number ≤ revision.id))]? with
  | none => trivial
  | some revision =>
    simp only [Option.map_some]
    by_cases same : revision.id = first + number
    · have equal : (revision.id : Int) - first = number := by omega
      rw [if_neg (not_not.mpr same), if_neg (not_not.mpr equal)]
      have reverted := models.revertEntries revision.journalIndex rfl
      rw [← changes] at reverted
      refine reverted.bind ?_
      intro s' l' _ models'
      refine ⟨{ models'.sound with }, ?_⟩
      rw [← models'.same]
      simp only [ledger, List.map_take]
      rfl
    · have different : (revision.id : Int) - first ≠ number := by omega
      rw [if_pos same, if_pos different]
      trivial

theorem Models.snapshot : Models gone first s.snapshot.2 l.snapshot := by
  refine ⟨{ models.sound with }, ?_⟩
  rw [← models.same]
  simp only [ledger, StateDB.snapshot, Ledger.snapshot, List.map_append, List.map_cons, List.map_nil,
    List.length_map, Journal.length]
  congr 1
  omega

theorem Models.exec (op : Op) : Agrees (Models gone first) (s.exec keccak first op) (l.exec keccak op) := by
  have query (addr : Address) {α : Type} (read : StateObject → α) (view : Account → α) (default : α) (wrap : α → Value)
      (result : α × StateDB) (looks : ∀ found s', s.getStateObject addr = (found, s') →
        result = ((found.map read).getD default, s')) (same : ∀ obj, read obj = view obj.view) :
      wrap result.1 = wrap (((l.accounts addr).map view).getD default) ∧
        Models gone first result.2 (l.lookUp addr) := by
    rcases models.getStateObject addr with ⟨s', looked, absent, models'⟩ |
      ⟨obj, s', looked, present, address, kept, models'⟩
    · rw [looks _ s' looked, absent]
      exact ⟨rfl, models'⟩
    · rw [looks _ s' looked, present]
      exact ⟨congrArg wrap (same obj), models'⟩
  cases op with
  | exist addr =>
    obtain ⟨value, models'⟩ := query addr (fun _ => true) (fun _ => true) false .bool (s.exist addr)
      (by rintro (_ | _) s' looked <;> simp [StateDB.exist, looked]) fun _ => rfl
    refine ⟨value.trans ?_, models'⟩
    cases l.accounts addr <;> rfl
  | empty addr =>
    exact query addr (·.empty keccak) (·.empty keccak) true .bool (s.empty keccak addr)
      (by rintro (_ | _) s' looked <;> simp [StateDB.empty, looked]) fun _ => rfl
  | getBalance addr =>
    exact query addr (·.balance) (·.balance) 0 .balance (s.getBalance addr)
      (by rintro (_ | _) s' looked <;> simp [StateDB.getBalance, looked]) fun _ => rfl
  | getNonce addr =>
    exact query addr (·.nonce) (·.nonce) 0 .nonce (s.getNonce addr)
      (by rintro (_ | _) s' looked <;> simp [StateDB.getNonce, looked]) fun _ => rfl
  | getCode addr =>
    exact query addr (·.code) (·.code) [] .code (s.getCode addr)
      (by rintro (_ | _) s' looked <;> simp [StateDB.getCode, looked]) fun _ => rfl
  | getCodeHash addr =>
    exact query addr (·.codeHash keccak) (fun x => keccak x.code) 0 .hash (s.getCodeHash keccak addr)
      (by rintro (_ | _) s' looked <;> simp [StateDB.getCodeHash, looked]) fun _ => rfl
  | getState addr key =>
    simp only [StateDB.exec, Ledger.exec, StateDB.getState]
    rcases models.getStateObject addr with ⟨s', looked, absent, models'⟩ |
      ⟨obj, s', looked, present, address, kept, models'⟩
    · simp only [looked, absent]
      exact ⟨rfl, models'⟩
    · obtain ⟨current, touched, address', deleted⟩ := obj.getState_spec key
      simp only [looked, present]
      exact ⟨congrArg Value.hash current,
        models'.setStateObject _ (deleted.trans kept) (address'.trans address) touched⟩
  | getCommittedState addr key =>
    simp only [StateDB.exec, Ledger.exec, StateDB.getCommittedState]
    rcases models.getStateObject addr with ⟨s', looked, absent, models'⟩ |
      ⟨obj, s', looked, present, address, kept, models'⟩
    · simp only [looked, absent]
      exact ⟨rfl, models'⟩
    · obtain ⟨committed, view, address', deleted⟩ := obj.getCommittedState_spec key
      simp only [looked, present]
      refine ⟨congrArg Value.hash committed, ?_⟩
      have set := models'.setStateObject _ (deleted.trans kept) (address'.trans address) view
      have same : (l.lookUp addr).put addr (some obj.view) = l.lookUp addr := by
        have unchanged : Function.update (l.lookUp addr).accounts addr (some obj.view) =
            (l.lookUp addr).accounts := by
          rw [Ledger.lookUp_accounts, ← present]
          exact Function.update_eq_self addr l.accounts
        simp only [Ledger.put, unchanged]
      rw [same] at set
      exact set
  | addBalance addr amount => exact ⟨rfl, models.addBalance addr amount⟩
  | subBalance addr amount => exact ⟨rfl, models.subBalance addr amount⟩
  | setBalance addr amount =>
    obtain ⟨obj, s', obtained, rfl, kept, view, models'⟩ := models.getOrNewStateObject addr
    simp only [StateDB.exec, Ledger.exec, StateDB.setBalance, Ledger.change, obtained, ← view]
    exact ⟨rfl, models'.objectSetBalance kept amount⟩
  | setNonce addr nonce =>
    obtain ⟨obj, s', obtained, rfl, kept, view, models'⟩ := models.getOrNewStateObject addr
    simp only [StateDB.exec, Ledger.exec, StateDB.setNonce, Ledger.change, obtained, ← view]
    exact ⟨rfl, models'.edit kept rfl rfl rfl⟩
  | setCode addr code =>
    obtain ⟨obj, s', obtained, rfl, kept, view, models'⟩ := models.getOrNewStateObject addr
    simp only [StateDB.exec, Ledger.exec, StateDB.setCode, Ledger.change, obtained, ← view]
    exact ⟨rfl, models'.edit kept rfl rfl rfl⟩
  | setState addr key value => exact ⟨rfl, models.setState addr key value⟩
  | suicide addr =>
    simp only [StateDB.exec, Ledger.exec, StateDB.suicide]
    rcases models.getStateObject addr with ⟨s', looked, absent, models'⟩ |
      ⟨obj, s', looked, present, address, kept, models'⟩
    · simp only [looked, absent]
      exact ⟨rfl, models'⟩
    · simp only [looked, present]
      exact ⟨rfl, models'.edit kept address rfl rfl⟩
  | createAccount addr => exact ⟨rfl, models.createAccount addr⟩
  | snapshot => exact ⟨rfl, models.snapshot⟩
  | revertToSnapshot number =>
    refine (models.revertToSnapshot number).bind ?_
    intro s' l' _ models'
    exact ⟨rfl, models'⟩

theorem Models.exec_ok {op : Op} {value : Value} {t : StateDB} (executed : s.exec keccak first op = .ok (value, t)) :
    ∃ l', l.exec keccak op = .ok (value, l') ∧ Models gone first t l' := by
  obtain ⟨⟨value', l'⟩, executed', rfl, models'⟩ := Both.ok (models.exec op) executed
  exact ⟨l', executed', models'⟩

end StateDB

end IDWDetector.State
