import IDWDetector.State.Recording

namespace IDWDetector.State

open Go Machine

variable {slots : List Hash} {base : SubstateAlloc}

namespace StateObject

structure Unwritten (obj : StateObject) : Prop where
  kept : obj.deleted = false
  alive : obj.suicided = false
  trie : obj.trie = .empty
  pending : obj.pendingStorage = .empty
  origin : ∀ key, obj.originStorage.getD key 0 = 0

variable {obj : StateObject}

theorem Unwritten.committed (unwritten : obj.Unwritten) (key : Hash) : obj.committed key = 0 := by
  have origin := unwritten.origin key
  simp only [StateObject.committed, unwritten.pending, unwritten.trie, Map.lookup_empty]
  exact origin

theorem Unwritten.getState (unwritten : obj.Unwritten) (key : Hash) : (obj.getState key).2.Unwritten := by
  unfold StateObject.getState
  simp only
  split
  · exact { unwritten with }
  · unfold StateObject.getCommittedState
    simp only
    split
    · exact { unwritten with }
    · exact { unwritten with }
    · refine { unwritten with origin := ?_ }
      intro k
      rw [unwritten.trie]
      by_cases same : k = key
      · subst same
        simp [Map.getD]
      · simp only [Map.getD, Map.lookup_set_of_ne _ _ same]
        exact unwritten.origin k

theorem lookup_finalise (obj : StateObject) (key : Hash) :
    obj.finalise.pendingStorage.lookup key =
      (obj.dirtyStorage.lookup key).or (obj.pendingStorage.lookup key) := by
  simp only [finalise, Map.lookup_overwrite]
  split
  · rename_i member
    obtain ⟨value, found⟩ := (Map.mem_keys_iff _ _).mp member
    simp [found]
  · rename_i absent
    simp [(Map.not_mem_keys _ _).mp absent]

structure Settled (obj : StateObject) : Prop where
  kept : obj.deleted = false
  alive : obj.suicided = false
  pending : obj.pendingStorage = .empty
  dirty : obj.dirtyStorage = .empty

theorem Settled.current (settled : obj.Settled) : obj.current = obj.committed := by
  funext key
  simp [StateObject.current, settled.dirty]

theorem Unwritten.updateTrie (unwritten : obj.Unwritten) :
    obj.finalise.updateTrie.Settled ∧ obj.finalise.updateTrie.committed = obj.current := by
  refine ⟨⟨unwritten.kept, unwritten.alive, rfl, rfl⟩, ?_⟩
  funext key
  have pending : obj.finalise.finalise.pendingStorage.lookup key = obj.dirtyStorage.lookup key := by
    rw [lookup_finalise, lookup_finalise, unwritten.pending]
    simp [finalise]
  have origin := unwritten.origin key
  have current : obj.current key = (obj.dirtyStorage.lookup key).getD 0 := by
    rw [StateObject.current, unwritten.committed]
  have member : key ∈ obj.finalise.finalise.changedSlots ↔ (obj.dirtyStorage.lookup key).getD 0 ≠ 0 := by
    unfold changedSlots
    rw [Finset.mem_filter, Map.mem_keys, Map.getD, pending]
    have same : obj.finalise.finalise.originStorage.getD key 0 = 0 := origin
    rw [same]
    cases obj.dirtyStorage.lookup key <;> simp
  rw [current]
  simp only [StateObject.updateTrie, StateObject.committed, Map.lookup_empty, Map.lookup_overwrite]
  by_cases written : (obj.dirtyStorage.lookup key).getD 0 = 0
  · rw [if_neg (by rw [member]; exact not_not.mpr written), written]
    have trie : obj.finalise.finalise.trie = .empty := unwritten.trie
    have same : obj.finalise.finalise.originStorage = obj.originStorage := rfl
    simp only [Map.getD, Map.lookup_overwrite, if_neg (show ¬ key ∈ _ by rw [member]; exact not_not.mpr written),
      trie, same]
    exact origin
  · rw [if_pos (member.mpr written), pending]
    cases found : obj.dirtyStorage.lookup key with
    | none => rw [found] at written; exact absurd rfl written
    | some value => rfl

theorem Settled.updateTrie (settled : obj.Settled) :
    obj.updateTrie.Settled ∧ obj.updateTrie.committed = obj.committed := by
  refine ⟨⟨settled.kept, settled.alive, rfl, rfl⟩, ?_⟩
  have pending : obj.finalise.pendingStorage = .empty := by
    apply Map.ext
    intro key
    rw [lookup_finalise, settled.dirty, settled.pending]
    rfl
  have none : obj.finalise.changedSlots = ∅ := by
    unfold changedSlots
    rw [pending]
    rfl
  funext key
  simp only [StateObject.updateTrie, StateObject.committed, none, Map.lookup_empty, Map.lookup_overwrite,
    settled.pending, Map.getD]
  rfl

end StateObject

/-- The state differs from the one before only in the object at the address,
    which is dirty, and in the journal. -/
structure Wrote (before : StateDB) (addr : Address) (obj : StateObject) (s : StateDB) : Prop where
  trie : s.trie = before.trie
  found : s.stateObjects.lookup addr = some obj
  others : ∀ a, a ≠ addr → s.stateObjects.lookup a = before.stateObjects.lookup a
  recorded : s.researchPreAlloc.lookup addr = some none
  record : ∀ a, a ≠ addr → s.researchPreAlloc.lookup a = before.researchPreAlloc.lookup a
  dirties : s.journal.dirties.keys = insert addr before.journal.dirties.keys
  entries : s.journal.entries ≠ []
  pending : s.stateObjectsPending = before.stateObjectsPending
  uncommitted : s.stateObjectsDirty = before.stateObjectsDirty
  revisions : s.validRevisions = before.validRevisions

namespace Wrote

variable {before s : StateDB} {addr : Address} {obj : StateObject}

section

variable (wrote : Wrote before addr obj s)
include wrote

theorem getOrNew (kept : obj.deleted = false) : s.getOrNewStateObject addr = (obj, s) := by
  simp [StateDB.getOrNewStateObject, StateDB.getStateObject, StateDB.getDeletedStateObject, StateDB.recordPre,
    wrote.found, wrote.recorded, kept]

theorem set (next : StateObject) (address : next.address = addr) :
    Wrote before addr next (s.setStateObject next) := by
  refine { wrote with found := ?_, others := ?_ }
  · simp [StateDB.setStateObject, address]
  · intro a different
    simp only [StateDB.setStateObject, address, Map.lookup_set_of_ne _ _ different]
    exact wrote.others a different

theorem append (entry : JournalEntry) (dirtied : entry.dirtied = some addr) :
    Wrote before addr obj (s.append entry) := by
  refine { wrote with dirties := ?_, entries := ?_ }
  · simp [StateDB.append, Journal.append, dirtied, Journal.dirty, wrote.dirties]
  · simp [StateDB.append]

theorem setState (address : obj.address = addr) (unwritten : obj.Unwritten) (key value : Hash) :
    ∃ next, Wrote before addr next (s.setState addr key value) ∧ next.address = addr ∧ next.Unwritten ∧
      next.nonce = obj.nonce ∧ next.balance = obj.balance ∧ next.code = obj.code ∧
      next.current = Function.update obj.current key value := by
  obtain ⟨value', view, address', deleted⟩ := obj.getState_spec key
  have unwritten' := unwritten.getState key
  have nonce := congrArg Account.nonce view
  have balance := congrArg Account.balance view
  have code := congrArg Account.code view
  have current : (obj.getState key).2.current = obj.current := congrArg Account.current view
  unfold StateDB.setState
  simp only [wrote.getOrNew unwritten.kept]
  split_ifs with same
  · refine ⟨_, wrote.set _ (address'.trans address), address'.trans address, unwritten', nonce, balance, code, ?_⟩
    rw [current, ← same, value']
    exact (Function.update_eq_self key obj.current).symm
  · have moved := wrote.append (.storageChange (obj.getState key).2.address key (obj.getState key).1)
      (by simp [JournalEntry.dirtied, address', address])
    refine ⟨_, moved.set ((obj.getState key).2.setState key value) (address'.trans address),
      address'.trans address, { unwritten' with }, nonce, balance, code, ?_⟩
    have written := congrArg Account.current ((obj.getState key).2.view_setState key value)
    rw [← current]
    exact written

end

theorem setSlots (storage : Map Hash Hash) (slots : List Hash) (wrote : Wrote before addr obj s)
    (address : obj.address = addr) (unwritten : obj.Unwritten) :
    ∃ next, Wrote before addr next
        (slots.foldl (fun s key => s.setState addr key (storage.getD key 0)) s) ∧
      next.address = addr ∧ next.Unwritten ∧ next.nonce = obj.nonce ∧ next.balance = obj.balance ∧
      next.code = obj.code ∧
      ∀ key, next.current key = if key ∈ slots then storage.getD key 0 else obj.current key := by
  induction slots generalizing s obj with
  | nil => exact ⟨obj, wrote, address, unwritten, rfl, rfl, rfl, fun key => by simp⟩
  | cons slot rest ih =>
    obtain ⟨middle, wrote', address', unwritten', nonce, balance, code, current⟩ :=
      wrote.setState address unwritten slot (storage.getD slot 0)
    obtain ⟨next, wrote'', address'', unwritten'', nonce', balance', code', current'⟩ :=
      ih wrote' address' unwritten'
    refine ⟨next, wrote'', address'', unwritten'', nonce'.trans nonce, balance'.trans balance,
      code'.trans code, ?_⟩
    intro key
    rw [current', current, Function.update_apply]
    by_cases later : key ∈ rest
    · simp [later]
    · by_cases same : key = slot
      · simp [same]
      · simp [later, same]

theorem setAccount {sa : SubstateAccount} (wrote : Wrote before addr obj (s.setCode addr sa.code))
    (address : obj.address = addr) (unwritten : obj.Unwritten) (enumerated : Map.Enumerates slots sa.storage) :
    ∃ next, Wrote before addr next (setAccount s addr sa slots) ∧ next.address = addr ∧ next.Unwritten ∧
      next.nonce = sa.nonce ∧ next.balance = sa.balance ∧ next.code = obj.code ∧
      ∀ key, next.current key = (sa.storage.lookup key).getD (obj.current key) := by
  have nonced : Wrote before addr (obj.setNonce sa.nonce) ((s.setCode addr sa.code).setNonce addr sa.nonce) := by
    unfold StateDB.setNonce
    simp only [wrote.getOrNew unwritten.kept]
    exact (wrote.append (.nonceChange obj.address obj.nonce) (congrArg some address)).set _ address
  have balanced : Wrote before addr ((obj.setNonce sa.nonce).setBalance sa.balance)
      (((s.setCode addr sa.code).setNonce addr sa.nonce).setBalance addr sa.balance) := by
    unfold StateDB.setBalance
    simp only [nonced.getOrNew unwritten.kept]
    exact (nonced.append (.balanceChange obj.address obj.balance) (congrArg some address)).set _ address
  obtain ⟨next, wrote', address', unwritten', nonce, balance, code, current⟩ :=
    balanced.setSlots sa.storage slots address { unwritten with }
  refine ⟨next, wrote', address', unwritten', nonce, balance, code, ?_⟩
  intro key
  rw [current]
  split
  · rename_i member
    obtain ⟨value, found⟩ := (Map.mem_keys_iff _ _).mp ((enumerated.mem_iff key).mp member)
    simp [Map.getD, found]
  · rename_i absent
    have missing : sa.storage.lookup key = none := by
      rw [← Map.not_mem_keys, ← enumerated.mem_iff]
      exact absent
    rw [missing]
    rfl

end Wrote

structure Built (sa : SubstateAccount) (obj : StateObject) : Prop where
  unwritten : obj.Unwritten
  nonce : obj.nonce = sa.nonce
  balance : obj.balance = sa.balance
  code : obj.code = sa.code
  current : ∀ key, obj.current key = sa.storage.getD key 0

variable {s : StateDB} {addr : Address} {sa : SubstateAccount} {obj : StateObject} {alloc : SubstateAlloc}

section

variable (trie : s.trie = .empty) (fresh : s.stateObjects.lookup addr = none)
  (unrecorded : s.researchPreAlloc.lookup addr = none)
include trie fresh unrecorded

theorem getOrNewStateObject_fresh :
    ∃ s', s.getOrNewStateObject addr = (newObject addr .zero, s') ∧ Wrote s addr (newObject addr .zero) s' := by
  have lookup : s.trie.lookup addr = none := by rw [trie]; rfl
  let recorded : StateDB := { s with researchPreAlloc := s.researchPreAlloc.set addr none }
  refine ⟨(recorded.append (.createObjectChange addr)).setStateObject (newObject addr .zero), ?_, ?_⟩
  · simp [StateDB.getOrNewStateObject, StateDB.getStateObject, StateDB.getDeletedStateObject,
      StateDB.createObject, StateDB.recordPre, fresh, unrecorded, lookup, recorded]
  · refine ⟨rfl, by simp [StateDB.setStateObject, newObject], ?_, by simp [recorded, StateDB.append,
      StateDB.setStateObject], ?_, ?_, by simp [StateDB.append, StateDB.setStateObject], rfl, rfl, rfl⟩
    · intro a different
      simp [StateDB.setStateObject, newObject, Map.lookup_set_of_ne _ _ different]
      rfl
    · intro a different
      exact Map.lookup_set_of_ne _ _ different
    · simp [StateDB.append, StateDB.setStateObject, Journal.append, Journal.dirty, JournalEntry.dirtied, recorded]

theorem setAccount_wrote (enumerated : Map.Enumerates slots sa.storage) :
    ∃ obj, Wrote s addr obj (setAccount s addr sa slots) ∧ obj.address = addr ∧ Built sa obj := by
  obtain ⟨s', obtained, start⟩ := getOrNewStateObject_fresh trie fresh unrecorded
  have coded : Wrote s addr ((newObject addr .zero).setCode sa.code) (s.setCode addr sa.code) := by
    unfold StateDB.setCode
    simp only [obtained]
    exact (start.append (.codeChange addr []) rfl).set _ rfl
  obtain ⟨obj, wrote, address, unwritten, nonce, balance, code, current⟩ :=
    coded.setAccount rfl ⟨rfl, rfl, rfl, rfl, fun _ => rfl⟩ enumerated
  exact ⟨obj, wrote, address, unwritten, nonce, balance, code, current⟩

end

structure Building (alloc : SubstateAlloc) (done : Finset Address) (s : StateDB) : Prop where
  trie : s.trie = .empty
  built : ∀ addr ∈ done, ∃ obj sa, s.stateObjects.lookup addr = some obj ∧ obj.address = addr ∧
    alloc.lookup addr = some (some sa) ∧ Built sa obj
  absent : ∀ addr, addr ∉ done → s.stateObjects.lookup addr = none ∧ s.researchPreAlloc.lookup addr = none
  record : ∀ addr, (s.researchPreAlloc.lookup addr).join = none
  dirties : s.journal.dirties.keys = done
  entries : s.journal.entries = [] → done = ∅
  pending : s.stateObjectsPending = ∅
  uncommitted : s.stateObjectsDirty = ∅
  revisions : s.validRevisions = []

theorem Building.start (alloc : SubstateAlloc) : Building alloc ∅ (StateDB.new .empty) :=
  ⟨rfl, by simp, fun _ _ => ⟨rfl, rfl⟩, fun _ => rfl, rfl, fun _ => rfl, rfl, rfl, rfl⟩

def onto (sa : SubstateAccount) (old : Option SubstateAccount) : SubstateAccount :=
  { sa with storage := ((old.map SubstateAccount.storage).getD .empty).overwrite sa.storage.keys sa.storage.lookup }

theorem getD_onto (sa : SubstateAccount) (old : Option SubstateAccount) (key : Hash) :
    (onto sa old).storage.getD key 0 =
      (sa.storage.lookup key).getD (((old.map SubstateAccount.storage).getD .empty).getD key 0) := by
  simp only [onto, Map.getD, Map.lookup_overwrite]
  split
  · rename_i member
    obtain ⟨value, found⟩ := (Map.mem_keys_iff _ _).mp member
    simp [found]
  · rename_i absent
    simp [(Map.not_mem_keys _ _).mp absent]

theorem onto_none (sa : SubstateAccount) : onto sa none = sa := by
  have same : Map.empty.overwrite sa.storage.keys sa.storage.lookup = sa.storage := by
    apply Map.ext
    intro key
    rw [Map.lookup_overwrite]
    split_ifs with absent
    · rfl
    · exact ((Map.not_mem_keys _ _).mp absent).symm
  simp only [onto, Option.map_none, Option.getD_none, same]

/-- What the loops over the accounts of one or more allocs have built so far. -/
structure Overlaid (base : SubstateAlloc) (s : StateDB) : Prop extends Building base base.keys s where
  looked : ∀ addr ∈ base.keys, s.researchPreAlloc.lookup addr = some none

theorem Overlaid.start : Overlaid .empty (StateDB.new .empty) :=
  ⟨Building.start .empty, by simp⟩

theorem Overlaid.wrote {s s' : StateDB} (overlaid : Overlaid base s) (wrote : Wrote s addr obj s')
    (address : obj.address = addr) (built : Built sa obj) :
    Overlaid (base.set addr (some sa)) s' := by
  refine ⟨⟨wrote.trie.trans overlaid.trie, ?_, ?_, ?_, ?_, ?_, wrote.pending.trans overlaid.pending,
    wrote.uncommitted.trans overlaid.uncommitted, wrote.revisions.trans overlaid.revisions⟩, ?_⟩
  · intro a member
    by_cases same : a = addr
    · subst same
      exact ⟨obj, sa, wrote.found, address, Map.lookup_set_self _ _ _, built⟩
    · rw [Map.keys_set] at member
      rw [wrote.others a same, Map.lookup_set_of_ne _ _ same]
      exact overlaid.built a ((Finset.mem_insert.mp member).resolve_left same)
  · intro a outside
    rw [Map.keys_set] at outside
    have different : a ≠ addr := fun same => outside (same ▸ Finset.mem_insert_self addr base.keys)
    rw [wrote.others a different, wrote.record a different]
    exact overlaid.absent a fun member => outside (Finset.mem_insert_of_mem member)
  · intro a
    by_cases same : a = addr
    · subst same
      rw [wrote.recorded]
      rfl
    · rw [wrote.record a same]
      exact overlaid.record a
  · rw [wrote.dirties, overlaid.dirties, Map.keys_set]
  · intro empty
    exact absurd empty wrote.entries
  · intro a member
    by_cases same : a = addr
    · subst same
      exact wrote.recorded
    · rw [Map.keys_set] at member
      rw [wrote.record a same]
      exact overlaid.looked a ((Finset.mem_insert.mp member).resolve_left same)

theorem Overlaid.setAccount (overlaid : Overlaid base s) (enumerated : Map.Enumerates slots sa.storage) :
    Overlaid (base.set addr (some (onto sa (base.lookup addr).join))) (setAccount s addr sa slots) := by
  by_cases member : addr ∈ base.keys
  · obtain ⟨old, before, found, address, entry, built⟩ := overlaid.built addr member
    have start : Wrote s addr old s := by
      refine ⟨rfl, found, fun _ _ => rfl, overlaid.looked addr member, fun _ _ => rfl, ?_, ?_, rfl, rfl, rfl⟩
      · rw [overlaid.dirties]
        exact (Finset.insert_eq_of_mem member).symm
      · intro empty
        rw [overlaid.entries empty] at member
        exact Finset.notMem_empty addr member
    have coded : Wrote s addr (old.setCode sa.code) (s.setCode addr sa.code) := by
      unfold StateDB.setCode
      simp only [start.getOrNew built.unwritten.kept]
      exact (start.append (.codeChange old.address old.code) (congrArg some address)).set _ address
    obtain ⟨obj, wrote, address', unwritten, nonce, balance, code, current⟩ :=
      coded.setAccount address { built.unwritten with } enumerated
    refine overlaid.wrote wrote address' ⟨unwritten, nonce, balance, code, ?_⟩
    intro key
    rw [current, getD_onto, entry]
    exact congrArg _ (built.current key)
  · obtain ⟨absent, unrecorded⟩ := overlaid.absent addr member
    obtain ⟨obj, wrote, address, built⟩ := setAccount_wrote overlaid.trie absent unrecorded enumerated
    refine overlaid.wrote wrote address { built with current := ?_ }
    intro key
    rw [built.current, getD_onto, (Map.not_mem_keys _ _).mp member]
    rfl

def overlay (base alloc : SubstateAlloc) : SubstateAlloc :=
  base.overwrite alloc.keys fun addr =>
    (alloc.lookup addr).map fun entry => entry.map fun sa => onto sa (base.lookup addr).join

theorem lookup_overlay (base alloc : SubstateAlloc) (addr : Address) :
    (overlay base alloc).lookup addr = ((alloc.lookup addr).map fun entry =>
      entry.map fun sa => onto sa (base.lookup addr).join).or (base.lookup addr) := by
  simp only [overlay, Map.lookup_overwrite]
  split
  · rename_i member
    obtain ⟨entry, found⟩ := (Map.mem_keys_iff _ _).mp member
    simp [found]
  · rename_i absent
    simp [(Map.not_mem_keys _ _).mp absent]

theorem Overlaid.setAccounts {alloc : SubstateAlloc} {slots : Address → List Hash} (order : List Address)
    (overlaid : Overlaid base s) (nodup : order.Nodup)
    (enumerated : ∀ addr ∈ order, ∃ sa, alloc.lookup addr = some (some sa) ∧ Map.Enumerates (slots addr) sa.storage) :
    ∃ s' built, setAccounts alloc slots s order = .ok s' ∧ Overlaid built s' ∧ ∀ addr, built.lookup addr =
      if addr ∈ order then (overlay base alloc).lookup addr else base.lookup addr := by
  induction order generalizing base s with
  | nil => exact ⟨s, base, rfl, overlaid, by simp⟩
  | cons addr rest ih =>
    obtain ⟨sa, found, listed⟩ := enumerated addr List.mem_cons_self
    obtain ⟨outside, nodup'⟩ := List.nodup_cons.mp nodup
    obtain ⟨s', built, executed, overlaid', lookup⟩ := ih (overlaid.setAccount listed) nodup'
      fun a member => enumerated a (List.mem_cons_of_mem _ member)
    refine ⟨s', built, ?_, overlaid', ?_⟩
    · simp only [State.setAccounts, found, Option.join_some]
      exact executed
    · intro a
      by_cases same : a = addr
      · subst same
        rw [lookup, if_neg outside, if_pos List.mem_cons_self, Map.lookup_set_self, lookup_overlay, found]
        rfl
      · simp only [lookup, lookup_overlay, Map.lookup_set_of_ne _ _ same, List.mem_cons, same, false_or]

theorem Built.cacheCommitted (built : Built sa obj) (keys : Finset Hash) : Built sa (obj.cacheCommitted keys) := by
  have view := obj.view_cacheCommitted keys
  refine ⟨{ built.unwritten with origin := ?_ }, built.nonce, built.balance, built.code, ?_⟩
  · intro key
    have zero := built.unwritten.origin key
    simp only [StateObject.cacheCommitted, Map.getD, Map.lookup_overwrite, built.unwritten.trie] at zero ⊢
    split
    · rfl
    · exact zero
  · intro key
    have same : (obj.cacheCommitted keys).current = obj.current := congrArg Account.current view
    rw [same]
    exact built.current key

structure Stored (sa : SubstateAccount) (addr : Address) (obj : StateObject) : Prop where
  settled : obj.Settled
  address : obj.address = addr
  nonce : obj.nonce = sa.nonce
  balance : obj.balance = sa.balance
  code : obj.code = sa.code
  committed : ∀ key, obj.committed key = sa.storage.getD key 0

theorem Built.stored (built : Built sa obj) : Stored sa obj.address obj.finalise.updateTrie := by
  obtain ⟨settled, committed⟩ := built.unwritten.updateTrie
  refine ⟨settled, rfl, built.nonce, built.balance, built.code, ?_⟩
  intro key
  rw [committed]
  exact built.current key

theorem Stored.updateTrie (stored : Stored sa addr obj) : Stored sa addr obj.updateTrie := by
  obtain ⟨settled, committed⟩ := stored.settled.updateTrie
  refine ⟨settled, stored.address, stored.nonce, stored.balance, stored.code, ?_⟩
  intro key
  rw [committed]
  exact stored.committed key

theorem Building.finalise {done : Finset Address} (building : Building alloc done s) (keccak : Bytes → Hash) :
    ∃ t, s.finalise keccak false = .ok t ∧ t.journal = .new ∧ t.validRevisions = [] ∧ t.trie = .empty ∧
      t.stateObjectsPending = done ∧ t.stateObjectsDirty = done ∧
      (∀ addr ∈ done, ∃ obj sa, t.stateObjects.lookup addr = some obj.finalise ∧ obj.address = addr ∧
        alloc.lookup addr = some (some sa) ∧ Built sa obj) ∧
      ∀ addr, addr ∉ done → t.stateObjects.lookup addr = none := by
  have unrecorded : ¬ Map.anyKey s.researchPreAlloc.keys (fun addr =>
      (s.researchPreAlloc.lookup addr).join.isSome ∧ s.stateObjects.lookup addr = none) = true := by
    rw [Map.anyKey_iff]
    rintro ⟨addr, -, recorded, -⟩
    rw [building.record addr] at recorded
    cases recorded
  have first : ∃ t, s.recordStorage = .ok t ∧ t.stateObjects = s.stateObjects ∧ t.journal = s.journal ∧
      t.trie = s.trie ∧ t.stateObjectsPending = ∅ ∧ t.stateObjectsDirty = ∅ := by
    unfold StateDB.recordStorage
    rw [if_neg unrecorded]
    refine ⟨_, rfl, ?_, rfl, rfl, building.pending, building.uncommitted⟩
    apply Map.ext
    intro addr
    simp [building.record addr]
  obtain ⟨t, recorded, objects, journal, trie, pending, uncommitted⟩ := first
  have dirty : t.dirtyObjects = done := by
    ext addr
    simp only [StateDB.dirtyObjects, Finset.mem_filter, journal, building.dirties, objects]
    constructor
    · exact fun member => member.1
    · intro member
      obtain ⟨obj, sa, found, -⟩ := building.built addr member
      exact ⟨member, by rw [found]; rfl⟩
  obtain ⟨journal', refund, cleared, -, -, -, new⟩ := StateDB.clearJournalAndRefund_eq (t.finaliseDirty keccak false)
  have clean : t.journal.entries = [] → t.journal.dirties = .empty := by
    intro empty
    apply Map.ext
    intro addr
    rw [Map.lookup_empty, ← Map.not_mem_keys, journal, building.dirties,
      building.entries (by rw [← journal]; exact empty)]
    simp
  have executed : s.finalise keccak false = .ok (t.finaliseDirty keccak false).clearJournalAndRefund :=
    bind_ok.mpr ⟨t, recorded, rfl⟩
  rw [executed, cleared]
  refine ⟨_, rfl, new clean, rfl, trie.trans building.trie, ?_, ?_, ?_, ?_⟩
  · simp only [StateDB.finaliseDirty, pending, dirty, Finset.empty_union]
  · simp only [StateDB.finaliseDirty, uncommitted, dirty, Finset.empty_union]
  · intro addr member
    obtain ⟨obj, sa, found, address, entry, built⟩ := building.built addr member
    refine ⟨obj.cacheCommitted (obj.researchTouched.filter fun key => obj.dirtyStorage.lookup key = none), sa, ?_,
      address, entry, built.cacheCommitted _⟩
    have alive : StateDB.deletes keccak false obj = false := by
      simp [StateDB.deletes, built.unwritten.alive]
    simp [StateDB.finaliseDirty, dirty, member, objects, found, alive]
  · intro addr outside
    simp [StateDB.finaliseDirty, objects, (building.absent addr outside).1]

theorem Building.commit {done : Finset Address} (building : Building alloc done s) (keccak : Bytes → Hash) :
    ∃ t, s.commit keccak false = .ok t ∧ t.journal = .new ∧ t.validRevisions = [] ∧
      (∀ addr ∈ done, ∃ obj sa, t.stateObjects.lookup addr = some obj ∧
        alloc.lookup addr = some (some sa) ∧ Stored sa addr obj) ∧
      ∀ addr, addr ∉ done → t.peek addr = none := by
  obtain ⟨t, finalised, journal, revisions, trie, pending, dirty, built, absent⟩ := building.finalise keccak
  have loaded : ∀ addr ∈ done, (t.stateObjects.lookup addr).isSome := by
    intro addr member
    obtain ⟨obj, sa, found, -⟩ := built addr member
    rw [found]
    rfl
  have flushed : ¬ Map.anyKey t.stateObjectsPending (fun addr => t.stateObjects.lookup addr = none) = true := by
    rw [Map.anyKey_iff]
    rintro ⟨addr, member, missing⟩
    have found := loaded addr (pending ▸ member)
    rw [missing] at found
    cases found
  have second : ∃ u, t.flushPending = .ok u ∧ u.journal = .new ∧ u.validRevisions = [] ∧
      u.stateObjectsDirty = done ∧
      (∀ addr ∈ done, ∃ obj sa, u.stateObjects.lookup addr = some obj ∧
        alloc.lookup addr = some (some sa) ∧ Stored sa addr obj) ∧
      ∀ addr, addr ∉ done → u.stateObjects.lookup addr = none ∧ u.trie.lookup addr = none := by
    unfold StateDB.flushPending
    rw [if_neg flushed]
    refine ⟨_, rfl, journal, revisions, dirty, ?_, ?_⟩
    · intro addr member
      obtain ⟨obj, sa, found, address, entry, object⟩ := built addr member
      have kept : obj.finalise.deleted = false := object.unwritten.kept
      have stored := object.stored
      rw [address] at stored
      refine ⟨obj.finalise.updateTrie, sa, ?_, entry, stored⟩
      rw [Map.lookup_mapValues, found, Option.map_some, if_pos ⟨pending ▸ member, kept⟩]
    · intro addr outside
      refine ⟨by simp [absent addr outside], ?_⟩
      simp only [Map.lookup_overwrite, pending, if_neg outside, trie]
      rfl
  obtain ⟨u, flush, journal', revisions', dirty', stored, absent'⟩ := second
  have committed : ¬ Map.anyKey u.stateObjectsDirty (fun addr => u.stateObjects.lookup addr = none) = true := by
    rw [Map.anyKey_iff]
    rintro ⟨addr, member, missing⟩
    obtain ⟨obj, sa, found, -⟩ := stored addr (dirty' ▸ member)
    rw [missing] at found
    cases found
  have intermediate : s.intermediateRoot keccak false = .ok u := bind_ok.mpr ⟨t, finalised, flush⟩
  refine ⟨_, bind_ok.mpr ⟨u, intermediate, if_neg committed⟩, journal', revisions', ?_, ?_⟩
  · intro addr member
    obtain ⟨obj, sa, found, entry, object⟩ := stored addr member
    refine ⟨obj.updateTrie, sa, ?_, entry, object.updateTrie⟩
    rw [Map.lookup_mapValues, found, Option.map_some, if_pos ⟨dirty' ▸ member, object.settled.kept⟩]
  · intro addr outside
    obtain ⟨missing, none⟩ := absent' addr outside
    simp [StateDB.peek, missing, none]

theorem makeOffTheChainStateDB_spec {keccak : Bytes → Hash} {order : List Address} {slots : Address → List Hash}
    (listed : Map.Enumerates order alloc) (enumerated : ∀ addr ∈ order, ∃ sa, alloc.lookup addr = some (some sa) ∧
      Map.Enumerates (slots addr) sa.storage) :
    ∃ t, makeOffTheChainStateDB keccak alloc order slots = .ok t ∧ t.journal = .new ∧ t.validRevisions = [] ∧
      (∀ addr ∈ alloc.keys, ∃ obj sa, t.stateObjects.lookup addr = some obj ∧
        alloc.lookup addr = some (some sa) ∧ Stored sa addr obj) ∧
      ∀ addr, addr ∉ alloc.keys → t.peek addr = none := by
  obtain ⟨s, built, executed, overlaid, lookup⟩ := Overlaid.start.setAccounts order listed.nodup enumerated
  have same : built = alloc := by
    apply Map.ext
    intro addr
    rw [lookup]
    split
    · rename_i member
      obtain ⟨sa, found, -⟩ := enumerated addr member
      simp [lookup_overlay, found, onto_none]
    · rename_i absent
      rw [listed.mem_iff] at absent
      exact ((Map.not_mem_keys _ _).mp absent).symm
  subst same
  obtain ⟨t, committed, journal, revisions, stored, absent⟩ := overlaid.commit keccak
  exact ⟨t, bind_ok.mpr ⟨s, executed, committed⟩, journal, revisions, stored, absent⟩

end IDWDetector.State
