import IDWDetector.State.Closing
import IDWDetector.State.Plain

namespace IDWDetector.State

open Go Machine

variable {value : Value}

/-- The calls that a `StateDB` gets between `New` and `Copy`. A revert names its snapshot by its id. -/
inductive DbCall
  | op (op : Op)
  | addLog (log : Log)
  | addRefund (gas : Uint64)
  | subRefund (gas : Uint64)
  | blockHash (num : Uint64) (hash : Hash)
  | prepare (thash : Hash) (ti : Int)
  | finalise (deleteEmptyObjects : Bool)
  | intermediateRoot (deleteEmptyObjects : Bool)

namespace StateDB

def call (keccak : Bytes → Hash) (s : StateDB) : DbCall → Except Panic (Value × StateDB)
  | .op op => s.exec keccak 0 op
  | .addLog log => .ok (.none, s.addLog log)
  | .addRefund gas => .ok (.none, s.addRefund gas)
  | .subRefund gas => do
    let s ← s.subRefund gas
    .ok (.none, s)
  | .blockHash num hash => .ok (.none, { s with researchBlockHashes := s.researchBlockHashes.set num hash })
  | .prepare thash ti => .ok (.none, s.prepare thash ti)
  | .finalise deleteEmptyObjects => do
    let s ← s.finalise keccak deleteEmptyObjects
    .ok (.none, s)
  | .intermediateRoot deleteEmptyObjects => do
    let s ← s.intermediateRoot keccak deleteEmptyObjects
    .ok (.none, s)

def Reachable (keccak : Bytes → Hash) (s : StateDB) : Prop :=
  ∃ trie calls values, Machine.run (call keccak) (StateDB.new trie) calls = .ok (values, s)

section Marked

def Marked (s : StateDB) : Prop :=
  ∀ addr ∈ s.stateObjectsDirty, s.stateObjects.lookup addr ≠ none ∧ .createObjectChange addr ∉ s.journal.entries

variable {s t : StateDB} (marked : s.Marked)
include marked

theorem Marked.primitive {kind : JournalEntry → Bool} (step : Primitive kind s t) :
    t.Marked ∧ t.stateObjectsDirty = s.stateObjectsDirty := by
  cases step with
  | record addr account =>
    unfold recordPre
    split <;> exact ⟨marked, rfl⟩
  | put obj =>
    refine ⟨fun addr member => ⟨?_, (marked addr member).2⟩, rfl⟩
    by_cases same : addr = obj.address
    · simp [setStateObject, same]
    · rw [setStateObject, Map.lookup_set_of_ne _ _ same]
      exact (marked addr member).1
  | note entry allowed absent =>
    refine ⟨fun addr member => ⟨(marked addr member).1, ?_⟩, rfl⟩
    rw [append, Journal.entries_append, List.mem_cons]
    rintro (created | earlier)
    · exact (marked addr member).1 (absent addr created.symm)
    · exact (marked addr member).2 earlier
  | mark | revise => exact ⟨marked, rfl⟩

theorem Marked.primitives {kind : JournalEntry → Bool} (steps : Primitives kind s t) :
    t.Marked ∧ t.stateObjectsDirty = s.stateObjectsDirty := by
  induction steps with
  | refl => exact ⟨marked, rfl⟩
  | tail _ step ih =>
    obtain ⟨before, same⟩ := ih
    obtain ⟨after, same'⟩ := before.primitive step
    exact ⟨after, same'.trans same⟩

theorem Marked.revertEntry {entry : JournalEntry} (member : entry ∈ s.journal.entries)
    (reverted : s.revertEntry entry = .ok t) : t.Marked ∧ t.stateObjectsDirty = s.stateObjectsDirty := by
  rcases revertEntry_cases reverted with written | ⟨account, rfl, rfl⟩ | ⟨prev, rfl, rfl⟩ | ⟨txhash, logs, rfl, rfl⟩
  · exact marked.primitives (written : Primitives JournalEntry.harmless s t)
  · have clean : account ∉ s.stateObjectsDirty := fun dirty => (marked account dirty).2 member
    have same : s.stateObjectsDirty.erase account = s.stateObjectsDirty := Finset.erase_eq_of_notMem clean
    refine ⟨fun addr dirty => ?_, same⟩
    rw [same] at dirty
    refine ⟨?_, (marked addr dirty).2⟩
    have other : addr ≠ account := fun equal => clean (equal ▸ dirty)
    rw [Map.lookup_delete_of_ne _ other]
    exact (marked addr dirty).1
  · exact ⟨marked, rfl⟩
  · exact ⟨marked, rfl⟩

theorem Marked.exec {keccak : Bytes → Hash} {first : Nat} {op : Op}
    (executed : s.exec keccak first op = .ok (value, t)) : t.Marked ∧ t.stateObjectsDirty = s.stateObjectsDirty := by
  refine exec_rule (motive := fun u => u.Marked ∧ u.stateObjectsDirty = s.stateObjectsDirty) ⟨marked, rfl⟩ ?_
    marked.primitives (fun _ _ same => same) executed
  rintro u u' entry rest ⟨marked, dirty⟩ journal undone
  obtain ⟨before, same⟩ := marked.revertEntry (by rw [journal]; exact List.mem_cons_self) undone
  have entries : u'.journal.entries = entry :: rest := by rw [revertEntry_journal undone, journal]
  refine ⟨fun addr dirty => ⟨(before addr dirty).1, fun created => (before addr dirty).2 ?_⟩, same.trans dirty⟩
  rw [entries]
  exact List.mem_cons_of_mem _ created

end Marked

end StateDB

/-- The account has its balance as the trie says, and nothing of it is open. A replaced account has another nonce,
    code and storage. -/
structure Kept (data : Option StateAccount) (x : Option Account) : Prop where
  balance : x.map Account.balance = data.map StateAccount.balance
  settled : ∀ y, x = some y → y.suicided = false ∧ y.current = y.committed

def StateAccount.load (addr : Address) (data : StateAccount) : Account := (newObject addr data).view

theorem Kept.load (addr : Address) (data : Option StateAccount) :
    Kept data (data.map fun data => (data.load addr).untouched) := by
  refine ⟨?_, ?_⟩
  · rw [Option.map_map]
    rfl
  · intro y loaded
    obtain ⟨_, _, rfl⟩ := Option.map_eq_some_iff.mp loaded
    exact ⟨rfl, rfl⟩

theorem Kept.replace {data : Option StateAccount} {prev : Account} (kept : Kept data (some prev.untouched)) :
    Kept data (some (.blank prev.balance)) := by
  refine ⟨kept.balance, ?_⟩
  intro y blank
  cases blank
  exact ⟨rfl, rfl⟩

namespace StateDB

variable {s t : StateDB} {keccak : Bytes → Hash}

structure Traced (s : StateDB) : Prop where
  sound : Sound (fun obj => obj.address ∈ s.stateObjectsDirty) s
  marked : s.Marked
  pending : s.stateObjectsPending ⊆ s.stateObjectsDirty
  posted : ∀ addr, s.researchPostAlloc.lookup addr ≠ some none
  undoes : ∃ origin, (s.ledger 0).UndoesTo origin ∧
    ∀ addr, addr ∉ s.stateObjectsDirty → Kept (s.trie.lookup addr) (origin addr)

theorem bare_eq (s : StateDB) (first : Nat) (addr : Address) :
    (s.ledger first).bare addr = ((s.peek addr).bind StateObject.live).map Account.untouched := rfl

theorem bare_of_not_loaded {addr : Address} (absent : s.stateObjects.lookup addr = none) :
    (s.ledger 0).bare addr = (s.trie.lookup addr).map fun data => (data.load addr).untouched := by
  rw [bare_eq, peek, absent]
  cases s.trie.lookup addr <;> rfl

theorem Traced.kept (traced : s.Traced) {addr : Address} (clean : addr ∉ s.stateObjectsDirty)
    (unmarked : addr ∉ s.dirtyObjects) : Kept (s.trie.lookup addr) ((s.ledger 0).bare addr) := by
  cases found : s.stateObjects.lookup addr with
  | none =>
    rw [bare_of_not_loaded found]
    exact .load addr _
  | some obj =>
    have undirtied : ∀ entry ∈ s.journal.entries, entry.dirtied ≠ some addr := by
      have absent : addr ∉ s.journal.dirties.keys := by
        intro dirty
        apply unmarked
        rw [dirtyObjects, Finset.mem_filter, found]
        exact ⟨dirty, rfl⟩
      have counted := traced.sound.counted addr
      rw [mem_dirties_iff traced.sound] at absent
      have none : Journal.marks s.journal.entries addr = 0 := by omega
      intro entry member dirtied
      exact List.countP_eq_zero.mp none entry member (decide_eq_true dirtied)
    have unwritten : ∀ change ∈ (s.ledger 0).changes,
        (∀ edit, change ≠ .edited addr edit) ∧ change ≠ .created addr none := by
      intro change member
      obtain ⟨entry, listed, rfl⟩ := List.mem_map.mp member
      have other := undirtied entry listed
      cases entry with
      | resetObjectChange prev =>
        refine ⟨by rintro edit ⟨⟩, ?_⟩
        intro same
        simp only [JournalEntry.change, Change.created.injEq] at same
        obtain ⟨rfl, gone⟩ := same
        cases deleted : prev.deleted with
        | true => exact clean (traced.sound.replaced prev listed deleted)
        | false => rw [StateObject.live_of_not_deleted deleted] at gone; cases gone
      | createObjectChange account =>
        refine ⟨by rintro edit ⟨⟩, ?_⟩
        rintro ⟨⟩
        exact other rfl
      | suicideChange | balanceChange | nonceChange | storageChange | codeChange =>
        refine ⟨?_, by rintro ⟨⟩⟩
        rintro edit ⟨⟩
        exact other rfl
      | touchChange | refundChange | addLogChange => exact ⟨by rintro edit ⟨⟩, by rintro ⟨⟩⟩
    obtain ⟨origin, undoes, kept⟩ := traced.undoes
    refine Coherent.follow_mem undoes (motive := Kept (s.trie.lookup addr)) (kept addr clean) ?_ ?_
    · intro prev member earlier
      cases prev with
      | none => exact absurd rfl (unwritten _ member).2
      | some prev => exact earlier.replace
    · intro edit x member
      exact absurd rfl ((unwritten _ member).1 edit)

theorem new_traced (trie : Map Address StateAccount) : (StateDB.new trie).Traced where
  sound := ⟨nofun, nofun, fun _ recorded => absurd rfl recorded, fun _ => Int.le_refl 0, nofun, nofun, nofun⟩
  marked := fun _ member => absurd member (Finset.notMem_empty _)
  pending := Finset.Subset.refl _
  posted := nofun
  undoes := ⟨_, rfl, fun addr _ => by rw [bare_of_not_loaded rfl]; exact .load addr _⟩

theorem Traced.exec (traced : s.Traced) {op : Op} (executed : s.exec keccak 0 op = .ok (value, t)) : t.Traced := by
  obtain ⟨marked, dirty⟩ := traced.marked.exec executed
  have frame := exec_frame executed
  have post : t.researchPostAlloc = s.researchPostAlloc := congrArg Prod.fst frame
  have pending : t.stateObjectsPending = s.stateObjectsPending := congrArg (·.2.1) frame
  have trie : t.trie = s.trie := congrArg (·.2.2) frame
  obtain ⟨l, executed', models'⟩ := Models.exec_ok ⟨traced.sound, rfl⟩ executed
  obtain ⟨origin, undoes, kept⟩ := traced.undoes
  refine ⟨?_, marked, ?_, ?_, origin, ?_, ?_⟩
  · rw [dirty]
    exact models'.sound
  · rw [pending, dirty]
    exact traced.pending
  · rw [post]
    exact traced.posted
  · rw [models'.same]
    exact undoes.exec executed'
  · rw [dirty, trie]
    exact kept

theorem Traced.untracked (traced : s.Traced) (refund : Uint64) (logs : Map Hash (List Log)) (logSize : Nat)
    (hashes : Map Uint64 Hash) :
    ({ s with
      refund := refund, logs := logs, logSize := logSize, researchBlockHashes := hashes } : StateDB).Traced := by
  obtain ⟨⟨keyed, created, loaded, counted, positive, deleted, replaced⟩, marked, pending, posted, undoes⟩ := traced
  exact ⟨⟨keyed, created, loaded, counted, positive, deleted, replaced⟩, marked, pending, posted, undoes⟩

theorem Traced.append_other (traced : s.Traced) {entry : JournalEntry} (other : entry.change = .other) :
    (s.append entry).Traced := by
  have uncreated (addr : Address) : entry ≠ .createObjectChange addr := by
    intro same
    rw [same] at other
    cases other
  obtain ⟨origin, undoes, kept⟩ := traced.undoes
  refine ⟨traced.sound.append ?_ ?_, ?_, traced.pending, traced.posted, origin, ?_, kept⟩
  · intro addr same
    exact absurd same (uncreated addr)
  · intro prev same
    rw [same] at other
    cases other
  · intro addr member
    refine ⟨(traced.marked addr member).1, ?_⟩
    rw [append, Journal.entries_append, List.mem_cons]
    rintro (created | earlier)
    · exact uncreated addr created.symm
    · exact (traced.marked addr member).2 earlier
  · rw [ledger_append, other]
    exact undoes

theorem Traced.prepare (traced : s.Traced) (thash : Hash) (ti : Int) : (s.prepare thash ti).Traced := by
  have looked (addr : Address) : (s.prepare thash ti).stateObjects.lookup addr =
      (s.stateObjects.lookup addr).map fun obj => { obj with researchTouched := ∅ } := by
    rw [StateDB.prepare, Map.lookup_mapValues]
  have bare : ((s.prepare thash ti).ledger 0).bare = (s.ledger 0).bare := by
    funext addr
    rw [bare_eq, bare_eq, peek, looked, peek]
    cases s.stateObjects.lookup addr with
    | none => rfl
    | some obj =>
      cases deleted : obj.deleted with
      | true => simp [StateObject.live, deleted]
      | false => simp [StateObject.live, deleted]; rfl
  obtain ⟨origin, undoes, kept⟩ := traced.undoes
  refine ⟨⟨?_, traced.sound.created, ?_, traced.sound.counted, traced.sound.positive, ?_, traced.sound.replaced⟩,
    ?_, traced.pending, by rintro addr ⟨⟩, origin, ?_, kept⟩
  · intro addr obj found
    rw [looked] at found
    obtain ⟨old, present, rfl⟩ := Option.map_eq_some_iff.mp found
    exact traced.sound.keyed addr old present
  · intro addr recorded
    exact absurd rfl recorded
  · intro addr obj found deleted
    rw [looked] at found
    obtain ⟨old, present, rfl⟩ := Option.map_eq_some_iff.mp found
    exact traced.sound.deleted addr old present deleted
  · intro addr member
    refine ⟨?_, (traced.marked addr member).2⟩
    rw [looked]
    simpa using (traced.marked addr member).1
  · rw [Ledger.UndoesTo, bare]
    exact undoes

theorem recordStorage_fields (recorded : s.recordStorage = .ok t) :
    t.dirtyObjects = s.dirtyObjects ∧
    (∀ addr, t.researchPreAlloc.lookup addr ≠ none → s.stateObjects.lookup addr ≠ none) ∧
    ((∀ addr, s.researchPostAlloc.lookup addr ≠ some none) → ∀ addr, t.researchPostAlloc.lookup addr ≠ some none) := by
  have listed (addr : Address) {entry : Option SubstateAccount}
      (found : (s.researchPreAlloc.lookup addr).bind (fun sa => sa.bind fun sa =>
        (s.stateObjects.lookup addr).map fun obj => some (preAccount sa obj)) = some entry) :
      entry ≠ none ∧ s.stateObjects.lookup addr ≠ none := by
    obtain ⟨sa, -, found⟩ := Option.bind_eq_some_iff.mp found
    obtain ⟨sa, -, found⟩ := Option.bind_eq_some_iff.mp found
    obtain ⟨obj, present, rfl⟩ := Option.map_eq_some_iff.mp found
    exact ⟨nofun, fun absent => by rw [absent] at present; cases present⟩
  unfold recordStorage at recorded
  split at recorded
  · cases recorded
  cases recorded
  refine ⟨?_, ?_, ?_⟩
  · simp only [dirtyObjects, Map.lookup_mapValues, Option.isSome_map]
  · intro addr recorded
    obtain ⟨entry, found⟩ := Option.ne_none_iff_exists'.mp recorded
    exact (listed addr found).2
  · intro posted addr
    simp only [Map.lookup_overwrite]
    split
    · intro found
      exact (listed addr found).1 rfl
    · exact posted addr

theorem finalised_fields {deleteEmptyObjects : Bool} (finalised : s.finalise keccak deleteEmptyObjects = .ok t) :
    (t.stateObjectsPending = s.stateObjectsPending ∪ s.dirtyObjects ∧
      t.stateObjectsDirty = s.stateObjectsDirty ∪ s.dirtyObjects) ∧
    (t.journal.entries = [] ∧ (t.journal = s.journal ∨ t.journal = .new)) ∧
    (∀ addr, t.researchPreAlloc.lookup addr ≠ none → s.stateObjects.lookup addr ≠ none) ∧
    ((∀ addr, s.researchPostAlloc.lookup addr ≠ some none) → ∀ addr, t.researchPostAlloc.lookup addr ≠ some none) := by
  obtain ⟨middle, journal, refund, recorded, frame, rfl, entries, kept, -⟩ := finalise_ok finalised
  obtain ⟨objects, pre, post⟩ := recordStorage_fields recorded
  refine ⟨?_, ⟨entries, kept⟩, pre, ?_⟩
  · rw [← objects]
    obtain ⟨_, _, _, rfl⟩ := frame
    exact ⟨rfl, rfl⟩
  · intro posted addr
    simp only [finaliseDirty, Map.lookup_overwrite]
    split
    · intro found
      obtain ⟨obj, -, found⟩ := Option.bind_eq_some_iff.mp found
      split at found <;> cases found
    · exact post posted addr

theorem Traced.finalise (traced : s.Traced) {deleteEmptyObjects : Bool}
    (finalised : s.finalise keccak deleteEmptyObjects = .ok t) : t.Traced ∧ t.journal.entries = [] := by
  obtain ⟨⟨pending, dirty⟩, ⟨entries, journal⟩, pre, post⟩ := finalised_fields finalised
  have trie := finalised_trie finalised
  have mem_dirty (addr : Address) :
    addr ∈ t.stateObjectsDirty ↔ addr ∈ s.stateObjectsDirty ∨ addr ∈ s.dirtyObjects := by
    rw [dirty, Finset.mem_union]
  have present (addr : Address) : t.stateObjects.lookup addr = none ↔ s.stateObjects.lookup addr = none := by
    obtain ⟨keys, after⟩ := lookup_finalised finalised addr
    rw [after, Option.map_eq_none_iff]
  -- an account whose object `Finalise` does not close
  have bare {addr : Address} (unmarked : addr ∉ s.dirtyObjects) : (t.ledger 0).bare addr = (s.ledger 0).bare addr := by
    obtain ⟨keys, after⟩ := lookup_finalised finalised addr
    rw [bare_eq, bare_eq, peek, peek, after, trie]
    cases found : s.stateObjects.lookup addr with
    | none => rfl
    | some obj =>
      have clean : addr ∉ s.journal.dirties.keys := by
        intro member
        apply unmarked
        rw [dirtyObjects, Finset.mem_filter, found]
        exact ⟨member, rfl⟩
      have view := StateObject.view_cacheCommitted obj keys
      have deleted : (obj.cacheCommitted keys).deleted = obj.deleted := rfl
      simp only [Option.map_some, Option.bind_some, finalObject, clean, decide_false, Bool.false_eq_true, if_false,
        StateObject.live, deleted, view]
  refine ⟨⟨⟨?_, ?_, ?_, ?_, ?_, ?_, ?_⟩, ?_, ?_, post traced.posted, (t.ledger 0).bare, ?_, ?_⟩, entries⟩
  · intro addr obj' found
    obtain ⟨obj, keys, old, rfl⟩ := finalised_object finalised found
    rw [← traced.sound.keyed addr obj old]
    unfold finalObject
    split
    · split <;> rfl
    · rfl
  · rw [entries]
    rintro addr ⟨⟩
  · intro addr recorded absent
    exact absurd ((present addr).mp absent) (pre addr recorded)
  · intro addr
    have counted := traced.sound.counted addr
    rw [entries]
    rcases journal with same | new
    · rw [same]
      exact le_trans (Int.natCast_nonneg _) counted
    · rw [new]
      exact Int.le_refl 0
  · intro addr
    rcases journal with same | new
    · rw [same]
      exact traced.sound.positive addr
    · rw [new]
      rintro ⟨⟩
  · intro addr obj' found deleted
    obtain ⟨obj, keys, old, rfl⟩ := finalised_object finalised found
    have address : obj.address = addr := traced.sound.keyed addr obj old
    unfold finalObject at deleted ⊢
    split at deleted
    · rename_i member
      have closed : addr ∈ s.dirtyObjects := by
        rw [dirtyObjects, Finset.mem_filter, old]
        exact ⟨of_decide_eq_true member, rfl⟩
      have home : addr ∈ t.stateObjectsDirty := (mem_dirty addr).mpr (.inr closed)
      rw [← address] at home
      rw [if_pos member]
      split <;> exact home
    · rename_i clean
      have home := (mem_dirty obj.address).mpr (.inl (traced.sound.deleted addr obj old deleted))
      rw [if_neg clean]
      exact home
  · rw [entries]
    rintro prev ⟨⟩
  · intro addr member
    rw [entries]
    refine ⟨?_, by rintro ⟨⟩⟩
    rw [ne_eq, present]
    rcases (mem_dirty addr).mp member with earlier | closed
    · exact (traced.marked addr earlier).1
    · intro absent
      have found := (Finset.mem_filter.mp closed).2
      rw [absent] at found
      cases found
  · rw [pending, dirty]
    exact Finset.union_subset_union_left traced.pending
  · show Coherent _ (t.journal.entries.map JournalEntry.change) _
    rw [entries]
    rfl
  · intro addr clean
    have before : addr ∉ s.stateObjectsDirty ∧ addr ∉ s.dirtyObjects :=
      not_or.mp fun member => clean ((mem_dirty addr).mpr member)
    rw [trie, bare before.2]
    exact traced.kept before.1 before.2

theorem flushed_fields (flushed : s.flushPending = .ok t) :
    (∀ addr, t.stateObjects.lookup addr = (s.stateObjects.lookup addr).map fun obj =>
      if addr ∈ s.stateObjectsPending ∧ obj.deleted = false then obj.updateTrie else obj) ∧
    (∀ addr, addr ∉ s.stateObjectsPending → t.trie.lookup addr = s.trie.lookup addr) ∧
    t.stateObjectsPending = ∅ ∧ t.stateObjectsDirty = s.stateObjectsDirty ∧ t.journal = s.journal ∧
    t.researchPreAlloc = s.researchPreAlloc ∧ t.researchPostAlloc = s.researchPostAlloc := by
  unfold StateDB.flushPending at flushed
  split at flushed
  · cases flushed
  cases flushed
  refine ⟨fun addr => Map.lookup_mapValues _ _ _, ?_, rfl, rfl, rfl, rfl, rfl⟩
  intro addr clean
  rw [Map.lookup_overwrite, if_neg clean]

theorem Traced.flushPending (traced : s.Traced) (entries : s.journal.entries = [])
    (flushed : s.flushPending = .ok t) : t.Traced := by
  obtain ⟨looked, trie, pending, dirty, journal, pre, post⟩ := flushed_fields flushed
  obtain ⟨origin, undoes, kept⟩ := traced.undoes
  have start : (s.ledger 0).bare = origin := by
    simpa only [Ledger.UndoesTo, ledger, entries, List.map_nil, Coherent] using undoes
  have unchanged {addr : Address} (clean : addr ∉ s.stateObjectsDirty) :
      t.stateObjects.lookup addr = s.stateObjects.lookup addr ∧ t.trie.lookup addr = s.trie.lookup addr := by
    have unflushed : addr ∉ s.stateObjectsPending := fun member => clean (traced.pending member)
    refine ⟨?_, trie addr unflushed⟩
    rw [looked]
    simp [unflushed]
  refine ⟨⟨?_, ?_, ?_, ?_, ?_, ?_, ?_⟩, ?_, ?_, ?_, (t.ledger 0).bare, ?_, ?_⟩
  · intro addr obj found
    rw [looked] at found
    obtain ⟨old, present, rfl⟩ := Option.map_eq_some_iff.mp found
    rw [← traced.sound.keyed addr old present]
    split <;> rfl
  · rw [journal, entries]
    rintro addr ⟨⟩
  · intro addr recorded absent
    rw [looked, Option.map_eq_none_iff] at absent
    have clean : addr ∉ s.stateObjectsDirty := fun member => (traced.marked addr member).1 absent
    rw [(unchanged clean).2]
    exact traced.sound.loaded addr (pre ▸ recorded) absent
  · rw [journal]
    exact traced.sound.counted
  · rw [journal]
    exact traced.sound.positive
  · intro addr obj found deleted
    rw [looked] at found
    obtain ⟨old, present, rfl⟩ := Option.map_eq_some_iff.mp found
    split at deleted
    · rename_i live
      rw [show old.updateTrie.deleted = old.deleted from rfl, live.2] at deleted
      cases deleted
    · rename_i unflushed
      rw [if_neg unflushed, dirty]
      exact traced.sound.deleted addr old present deleted
  · rw [journal, dirty]
    exact traced.sound.replaced
  · intro addr member
    rw [dirty] at member
    rw [looked, journal, ne_eq, Option.map_eq_none_iff]
    exact traced.marked addr member
  · rw [pending]
    exact Finset.empty_subset _
  · rw [post]
    exact traced.posted
  · simp only [Ledger.UndoesTo, ledger, journal, entries, List.map_nil, Coherent]
  · intro addr clean
    rw [dirty] at clean
    have bare : (t.ledger 0).bare addr = (s.ledger 0).bare addr := by
      rw [bare_eq, bare_eq, peek, peek, (unchanged clean).1, (unchanged clean).2]
    rw [bare, start, (unchanged clean).2]
    exact kept addr clean

theorem Traced.call (traced : s.Traced) {request : DbCall} (called : s.call keccak request = .ok (value, t)) :
    t.Traced := by
  cases request with
  | op op => exact traced.exec called
  | addLog log =>
    cases called
    have appended := traced.append_other (show (JournalEntry.addLogChange s.thash).change = .other from rfl)
    exact appended.untracked _ _ _ _
  | addRefund gas =>
    cases called
    have appended := traced.append_other (show (JournalEntry.refundChange s.refund).change = .other from rfl)
    exact appended.untracked _ _ _ _
  | subRefund gas =>
    obtain ⟨middle, subtracted, same⟩ := bind_ok.mp called
    cases same
    unfold StateDB.subRefund at subtracted
    split at subtracted
    · cases subtracted
    cases subtracted
    have appended := traced.append_other (show (JournalEntry.refundChange s.refund).change = .other from rfl)
    exact appended.untracked _ _ _ _
  | blockHash num hash =>
    cases called
    exact traced.untracked _ _ _ _
  | prepare thash ti =>
    cases called
    exact traced.prepare thash ti
  | finalise deleteEmptyObjects =>
    obtain ⟨middle, finalised, same⟩ := bind_ok.mp called
    cases same
    exact (traced.finalise finalised).1
  | intermediateRoot deleteEmptyObjects =>
    obtain ⟨last, rooted, same⟩ := bind_ok.mp called
    cases same
    obtain ⟨middle, finalised, flushed⟩ := bind_ok.mp rooted
    obtain ⟨traced', entries⟩ := traced.finalise finalised
    exact traced'.flushPending entries flushed

theorem Reachable.traced (reached : Reachable keccak s) : s.Traced := by
  obtain ⟨trie, calls, values, ran⟩ := reached
  exact run_invariant (fun _ _ _ _ traced called => Traced.call traced called) (new_traced trie) ran

end StateDB

end IDWDetector.State
