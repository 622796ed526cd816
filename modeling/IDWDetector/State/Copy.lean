import IDWDetector.State.Traced

namespace IDWDetector.State

open Go Machine

def copySubstateAccount (sa : SubstateAccount) : SubstateAccount :=
  { newSubstateAccount sa.nonce sa.balance sa.code with
    storage := Map.empty.overwrite sa.storage.keys sa.storage.lookup }

theorem copySubstateAccount_eq (sa : SubstateAccount) : copySubstateAccount sa = sa := by
  have storage : Map.empty.overwrite sa.storage.keys sa.storage.lookup = sa.storage := by
    apply Map.ext
    intro key
    rw [Map.lookup_overwrite]
    split_ifs with absent
    · rfl
    · exact ((Map.not_mem_keys _ _).mp absent).symm
  unfold copySubstateAccount
  rw [storage]
  rfl

/-- The loops of `Copy` over a recorded alloc: the method is called on nil entries, too. -/
def copySubstateAlloc (alloc : SubstateAlloc) : Except Panic SubstateAlloc :=
  if Map.anyKey alloc.keys fun addr => alloc.lookup addr = some none then .error .nilDereference
  else .ok (alloc.mapValues fun _ account => account.map copySubstateAccount)

theorem copySubstateAlloc_ok {alloc copied : SubstateAlloc} :
    copySubstateAlloc alloc = .ok copied ↔ (∀ addr, alloc.lookup addr ≠ some none) ∧ copied = alloc := by
  have same : alloc.mapValues (fun _ account => account.map copySubstateAccount) = alloc := by
    apply Map.ext
    intro addr
    have identity : (copySubstateAccount : SubstateAccount → SubstateAccount) = id := funext copySubstateAccount_eq
    rw [Map.lookup_mapValues]
    simp [identity]
  unfold copySubstateAlloc
  rw [same]
  split
  · rename_i missing
    obtain ⟨addr, -, absent⟩ := (Map.anyKey_iff _ _).mp missing
    constructor
    · intro failed
      cases failed
    · rintro ⟨all, -⟩
      exact absurd absent (all addr)
  · rename_i found
    constructor
    · intro copies
      cases copies
      refine ⟨?_, rfl⟩
      intro addr absent
      exact found ((Map.anyKey_iff _ _).mpr ⟨addr, (Map.mem_keys_iff _ _).mpr ⟨none, absent⟩, absent⟩)
    · rintro ⟨-, same⟩
      rw [same]

def StateObject.deepCopy (obj : StateObject) : StateObject :=
  { newObject obj.address obj.account with
    dirtyStorage := obj.dirtyStorage
    originStorage := obj.originStorage
    pendingStorage := obj.pendingStorage
    suicided := obj.suicided
    deleted := obj.deleted
    researchTouched := obj.researchTouched }

theorem StateObject.deepCopy_eq (obj : StateObject) : obj.deepCopy = obj := rfl

namespace StateDB

/-- The objects that `Copy` takes over: those of the journal's dirty addresses, and the
    pending and the dirty ones. -/
def copiedObjects (s : StateDB) : Finset Address := s.dirtyObjects ∪ (s.stateObjectsPending ∪ s.stateObjectsDirty)

/-- `Copy`; the journal and the snapshots are not copied. -/
def copy (s : StateDB) : Except Panic StateDB :=
  if Map.anyKey (s.stateObjectsPending ∪ s.stateObjectsDirty) fun addr => s.stateObjects.lookup addr = none then
    .error .nilDereference
  else do
    let pre ← copySubstateAlloc s.researchPreAlloc
    let post ← copySubstateAlloc s.researchPostAlloc
    .ok {
      trie := s.trie
      stateObjects := Map.empty.overwrite s.copiedObjects fun addr =>
        (s.stateObjects.lookup addr).map StateObject.deepCopy
      stateObjectsPending := s.stateObjectsPending ∪ s.dirtyObjects
      stateObjectsDirty := s.stateObjectsDirty ∪ s.dirtyObjects
      refund := s.refund
      thash := 0
      txIndex := 0
      logs := s.logs
      logSize := s.logSize
      journal := .new
      validRevisions := []
      nextRevisionId := 0
      researchPreAlloc := pre
      researchPostAlloc := post
      researchBlockHashes := s.researchBlockHashes }

end StateDB

def Op.reading (keccak : Bytes → Hash) (x : Option Account) : Op → Value
  | .exist _ => .bool x.isSome
  | .empty _ => .bool ((x.map fun x => x.empty keccak).getD true)
  | .getBalance _ => .balance ((x.map Account.balance).getD 0)
  | .getNonce _ => .nonce ((x.map Account.nonce).getD 0)
  | .getCode _ => .code ((x.map Account.code).getD [])
  | .getCodeHash _ => .hash ((x.map fun x => keccak x.code).getD 0)
  | .getState _ key => .hash ((x.map fun x => x.current key).getD 0)
  | .getCommittedState _ key => .hash ((x.map fun x => x.committed key).getD 0)
  | _ => .none

def Op.reads : Op → Option Address
  | .exist addr | .empty addr | .getBalance addr | .getNonce addr | .getCode addr | .getCodeHash addr
  | .getState addr _ | .getCommittedState addr _ => some addr
  | _ => none

namespace StateDB

variable {s c : StateDB} {keccak : Bytes → Hash} {addr : Address}

theorem exec_read {op : Op} (reads : op.reads = some addr) :
    (s.exec keccak 0 op).map Prod.fst = .ok (op.reading keccak (s.account addr)) := by
  have live : s.account addr = (s.getStateObject addr).1.map StateObject.view := by
    rw [getStateObject_fst]
    exact peek_live s addr
  cases looked : s.getStateObject addr with
  | mk found t =>
    rw [looked] at live
    cases op with
    | exist a | empty a | getBalance a | getNonce a | getCode a | getCodeHash a =>
      cases reads
      simp only [exec, exist, StateDB.empty, getBalance, getNonce, getCode, getCodeHash, Except.map, Op.reading, live,
        looked]
      cases found <;> rfl
    | getState a key =>
      cases reads
      simp only [exec, getState, Except.map, Op.reading, live, looked]
      cases found with
      | none => rfl
      | some obj =>
        simp only [(obj.getState_spec key).1]
        rfl
    | getCommittedState a key =>
      cases reads
      simp only [exec, getCommittedState, Except.map, Op.reading, live, looked]
      cases found with
      | none => rfl
      | some obj =>
        simp only [(obj.getCommittedState_spec key).1]
        rfl
    | _ => cases reads

structure Faithful (keccak : Bytes → Hash) (s c : StateDB) : Prop where
  reads : ∀ op addr, op.reads = some addr → (c.exec keccak 0 op).map Prod.fst = (s.exec keccak 0 op).map Prod.fst
  pre : c.researchPreAlloc = s.researchPreAlloc
  post : c.researchPostAlloc = s.researchPostAlloc
  blockHashes : c.researchBlockHashes = s.researchBlockHashes

/-- Every object that nothing marks as changed has the nonce, the code and the slots that the trie has.
    `CreateAccount` replaces an account without marking it. -/
def Unreplaced (s : StateDB) : Prop :=
  ∀ addr obj data, s.stateObjects.lookup addr = some obj → addr ∉ s.journal.dirties.keys → addr ∉ s.stateObjectsDirty →
    s.trie.lookup addr = some data →
    obj.nonce = data.nonce ∧ obj.code = data.code ∧ ∀ key, obj.committed key = data.storage.getD key 0

theorem reading_untouched (op : Op) (x : Option Account) :
    op.reading keccak (x.map Account.untouched) = op.reading keccak x := by
  cases x <;> cases op <;> rfl

theorem Traced.copy_ok (traced : s.Traced) (recorded : ∀ addr, s.researchPreAlloc.lookup addr ≠ some none) :
    ∃ c, s.copy = .ok c := by
  have present : ¬ Map.anyKey (s.stateObjectsPending ∪ s.stateObjectsDirty) (fun addr =>
      s.stateObjects.lookup addr = none) = true := by
    rw [Map.anyKey_iff, Finset.union_eq_right.mpr traced.pending]
    rintro ⟨addr, member, absent⟩
    exact (traced.marked addr member).1 absent
  unfold copy
  rw [if_neg present, copySubstateAlloc_ok.mpr ⟨recorded, rfl⟩, copySubstateAlloc_ok.mpr ⟨traced.posted, rfl⟩]
  exact ⟨_, rfl⟩

theorem copy_fields (copied : s.copy = .ok c) :
    (∀ addr, s.researchPreAlloc.lookup addr ≠ some none) ∧ c.researchPreAlloc = s.researchPreAlloc ∧
    c.researchPostAlloc = s.researchPostAlloc ∧ c.researchBlockHashes = s.researchBlockHashes ∧ c.trie = s.trie ∧
    ∀ addr, c.stateObjects.lookup addr = if addr ∈ s.copiedObjects then s.stateObjects.lookup addr else none := by
  unfold copy at copied
  split at copied
  · cases copied
  obtain ⟨pre, preCopied, copied⟩ := bind_ok.mp copied
  obtain ⟨post, postCopied, copied⟩ := bind_ok.mp copied
  obtain ⟨recorded, rfl⟩ := copySubstateAlloc_ok.mp preCopied
  obtain ⟨-, rfl⟩ := copySubstateAlloc_ok.mp postCopied
  cases copied
  refine ⟨recorded, rfl, rfl, rfl, rfl, ?_⟩
  intro addr
  have identity : StateObject.deepCopy = id := funext StateObject.deepCopy_eq
  rw [Map.lookup_overwrite, identity, Option.map_id_apply]
  rfl

theorem Traced.copied_account (traced : s.Traced) (copied : s.copy = .ok c) (member : addr ∈ s.copiedObjects) :
    c.account addr = s.account addr := by
  obtain ⟨-, -, -, -, -, objects⟩ := copy_fields copied
  have present : s.stateObjects.lookup addr ≠ none := by
    rw [copiedObjects, Finset.union_eq_right.mpr traced.pending, Finset.mem_union] at member
    rcases member with closed | dirty
    · intro absent
      have found := (Finset.mem_filter.mp closed).2
      rw [absent] at found
      cases found
    · exact (traced.marked addr dirty).1
  obtain ⟨obj, found⟩ := Option.ne_none_iff_exists'.mp present
  simp only [account, peek, objects, if_pos member, found]

theorem left_account (copied : s.copy = .ok c) (left : addr ∉ s.copiedObjects) :
    c.account addr = (s.trie.lookup addr).map (·.load addr) := by
  obtain ⟨-, -, -, -, trie, objects⟩ := copy_fields copied
  simp only [account, peek, objects, if_neg left, trie]
  cases s.trie.lookup addr <;> rfl

theorem not_mem_copiedObjects (traced : s.Traced) :
    addr ∉ s.copiedObjects ↔ addr ∉ s.dirtyObjects ∧ addr ∉ s.stateObjectsDirty := by
  rw [copiedObjects, Finset.union_eq_right.mpr traced.pending, Finset.mem_union, not_or]

theorem Traced.alive (traced : s.Traced) {obj : StateObject} (found : s.stateObjects.lookup addr = some obj)
    (clean : addr ∉ s.stateObjectsDirty) : obj.deleted = false := by
  cases deleted : obj.deleted with
  | false => rfl
  | true =>
    have dirty := traced.sound.deleted addr obj found deleted
    rw [traced.sound.keyed addr obj found] at dirty
    exact absurd dirty clean

theorem Traced.unreplaced_bare (traced : s.Traced) (unreplaced : s.Unreplaced) (left : addr ∉ s.copiedObjects) :
    (s.ledger 0).bare addr = (s.trie.lookup addr).map fun data => (data.load addr).untouched := by
  obtain ⟨unmarked, clean⟩ := (not_mem_copiedObjects traced).mp left
  cases found : s.stateObjects.lookup addr with
  | none => exact bare_of_not_loaded found
  | some obj =>
    have kept := traced.kept clean unmarked
    have alive := traced.alive found clean
    have bare : (s.ledger 0).bare addr = some obj.view.untouched := by
      rw [bare_eq, peek, found]
      simp only [Option.bind_some, StateObject.live_of_not_deleted alive, Option.map_some]
    have undirtied : addr ∉ s.journal.dirties.keys := by
      intro dirty
      apply unmarked
      rw [dirtyObjects, Finset.mem_filter, found]
      exact ⟨dirty, rfl⟩
    obtain ⟨suicided, current⟩ := kept.settled _ bare
    have balance := kept.balance
    rw [bare] at balance ⊢
    cases stored : s.trie.lookup addr with
    | none => rw [stored] at balance; cases balance
    | some data =>
      rw [stored] at balance
      obtain ⟨nonce, code, slots⟩ := unreplaced addr obj data found undirtied clean stored
      have committed : obj.committed = fun key => data.storage.getD key 0 := funext slots
      have same : obj.current = obj.committed := current
      have amount : obj.balance = data.balance := Option.some.inj balance
      have alive' : obj.suicided = false := suicided
      simp only [Option.map_some, Option.some.injEq, StateAccount.load, Account.untouched, StateObject.view, nonce,
        amount, code, alive', same, committed]
      rfl

/-- In every reachable state `Copy` is faithful if and only if no address that was looked up since the last
    `Prepare` or `Finalise` was absent, and no unmarked account was replaced. -/
theorem copy_faithful_iff (reached : Reachable keccak s) :
    (∃ c, s.copy = .ok c ∧ Faithful keccak s c) ↔
      (∀ addr, s.researchPreAlloc.lookup addr ≠ some none) ∧ s.Unreplaced := by
  have traced := reached.traced
  constructor
  · rintro ⟨c, copied, faithful⟩
    obtain ⟨recorded, -⟩ := copy_fields copied
    refine ⟨recorded, ?_⟩
    intro addr obj data found undirtied clean stored
    have left : addr ∉ s.copiedObjects :=
      (not_mem_copiedObjects traced).mpr ⟨fun member => undirtied (Finset.mem_filter.mp member).1, clean⟩
    have alive := traced.alive found clean
    have original : s.account addr = some obj.view := by
      rw [account, peek, found]
      exact StateObject.live_of_not_deleted alive
    have loaded := left_account copied left
    rw [stored] at loaded
    have same (op : Op) (reads : op.reads = some addr) :
        op.reading keccak (some (data.load addr)) = op.reading keccak (some obj.view) := by
      have equal := faithful.reads op addr reads
      rw [exec_read reads, exec_read reads, loaded, original] at equal
      exact Except.ok.inj equal
    refine ⟨?_, ?_, ?_⟩
    · exact (Value.nonce.inj (same (.getNonce addr) rfl)).symm
    · exact (Value.code.inj (same (.getCode addr) rfl)).symm
    · intro key
      exact (Value.hash.inj (same (.getCommittedState addr key) rfl)).symm
  · rintro ⟨recorded, unreplaced⟩
    obtain ⟨c, copied⟩ := traced.copy_ok recorded
    obtain ⟨-, pre, post, hashes, -⟩ := copy_fields copied
    refine ⟨c, copied, ?_, pre, post, hashes⟩
    intro op addr reads
    rw [exec_read reads, exec_read reads]
    by_cases member : addr ∈ s.copiedObjects
    · rw [traced.copied_account copied member]
    · have bare := traced.unreplaced_bare unreplaced member
      have same : (s.account addr).map Account.untouched =
          ((s.trie.lookup addr).map (·.load addr)).map Account.untouched := by
        rw [Option.map_map]
        exact bare
      rw [left_account copied member, ← reading_untouched op (s.account addr), same, reading_untouched]

def fundedCalls : List DbCall :=
  [.op (.setBalance 0xaf 42), .op (.setCode 0xaf [0x68]), .op (.setState 0xaf 0xaaa 0xbbb), .finalise false,
    .prepare 1 1, .op (.getBalance 0xaf), .op (.getState 0xaf 0xaaa), .blockHash 7 7]

theorem copy_faithful_funded : ∃ values s c, Machine.run (call fun _ => 0) (.new .empty) fundedCalls = .ok (values, s) ∧
    s.copy = .ok c ∧ Faithful (fun _ => 0) s c ∧ s.researchPreAlloc.lookup 0xaf ≠ none := by
  have ran : ((run (call fun _ => 0) (.new .empty) fundedCalls).toOption.any fun result =>
      result.2.researchPreAlloc.keys = {0xaf} ∧ (result.2.researchPreAlloc.lookup 0xaf).join.isSome ∧
        result.2.trie = .empty) = true := by
    decide +kernel
  obtain ⟨⟨values, s⟩, found, state⟩ := (Option.any_eq_true _ _).mp ran
  obtain ⟨keys, recorded, trie⟩ := of_decide_eq_true state
  have done := toOption_eq_some found
  have listed : ∀ addr, s.researchPreAlloc.lookup addr ≠ some none := by
    intro addr absent
    have member : addr ∈ s.researchPreAlloc.keys := (Map.mem_keys_iff _ _).mpr ⟨none, absent⟩
    rw [keys, Finset.mem_singleton] at member
    rw [← member, absent] at recorded
    cases recorded
  have unreplaced : s.Unreplaced := by
    intro addr obj data _ _ _ stored
    rw [trie] at stored
    cases stored
  obtain ⟨c, copied, faithful⟩ := (copy_faithful_iff ⟨.empty, fundedCalls, values, done⟩).mpr ⟨listed, unreplaced⟩
  refine ⟨values, s, c, done, copied, faithful, ?_⟩
  intro absent
  rw [absent] at recorded
  cases recorded

/-- A copy right after the first write to a new account fails, and one after `CreateAccount` reads the old nonce. -/
theorem copy_not_faithful :
    (∃ s, Machine.run (call fun _ => 0) (.new .empty) [.op (.setBalance 0xaf 42)] = .ok ([.none], s) ∧
      s.copy = .error .nilDereference) ∧
    ∃ s c, Machine.run (call fun _ => 0) (.new (Map.empty.set 0xaf ⟨5, 0, [], .empty⟩)) [.op (.createAccount 0xaf)] =
        .ok ([.none], s) ∧
      s.copy = .ok c ∧ (s.getNonce 0xaf).1 = 0 ∧ (c.getNonce 0xaf).1 = 5 := by
  refine ⟨⟨_, rfl, ?_⟩, _, _, rfl, rfl, ?_, ?_⟩
  · decide +kernel
  · decide +kernel
  · decide +kernel

end StateDB

end IDWDetector.State
