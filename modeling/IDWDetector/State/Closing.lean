import IDWDetector.State.Watched

namespace IDWDetector.State

namespace Account

def settled (x : Account) : Account := { x with touched := ∅, committed := x.current }

def valueAt (x : Option Account) (key : Hash) : Hash := (x.map fun x => x.current key).getD 0

end Account

namespace Coherent

variable {init accounts : Address → Option Account} {changes : List Change} {addr : Address}
  (coherent : Coherent init changes accounts)
include coherent

theorem info_of_unedited {x : Account} (start : init addr = some x)
    (unedited : ∀ edit, Change.edited addr edit ∉ changes)
    (replaced : ∀ y, Change.created addr (some y) ∈ changes → y.nonce = 0 ∧ y.code = [])
    (kept : ∀ prev, Change.created addr prev ∈ changes → ∀ key, x.current key = 0) :
    ∃ y, accounts addr = some y ∧ y.nonce = x.nonce ∧ y.balance = x.balance ∧ y.code = x.code ∧
      y.current = x.current := by
  refine coherent.follow_mem (motive := fun y => ∃ z, y = some z ∧ z.nonce = x.nonce ∧ z.balance = x.balance ∧
    z.code = x.code ∧ z.current = x.current) ⟨x, start, rfl, rfl, rfl, rfl⟩ ?_ ?_
  · rintro prev member ⟨z, same, nonce, balance, code, -⟩
    obtain ⟨p, rfl, rfl⟩ := Option.map_eq_some_iff.mp same
    obtain ⟨zero, empty⟩ := replaced p member
    refine ⟨_, rfl, ?_, balance, ?_, ?_⟩
    · rw [← nonce]
      exact zero.symm
    · rw [← code]
      exact empty.symm
    · funext key
      exact (kept _ member key).symm
  · intro edit y member
    exact absurd member (unedited edit)

theorem value_of_unwritten {key : Hash} (unwritten : ∀ prev, Change.edited addr (.storage key prev) ∉ changes)
    (kept : ∀ prev, Change.created addr prev ∈ changes → Account.valueAt (init addr) key = 0) :
    Account.valueAt (accounts addr) key = Account.valueAt (init addr) key := by
  refine coherent.follow_mem (motive := fun y => Account.valueAt y key = Account.valueAt (init addr) key) rfl ?_ ?_
  · intro prev member _
    exact (kept prev member).symm
  · intro edit x member earlier
    rw [← earlier]
    cases edit with
    | storage k prev =>
      have different : key ≠ k := by
        rintro rfl
        exact unwritten prev member
      simp [Account.valueAt, Edit.undo, Account.write, Function.update_of_ne different]
    | _ => rfl

end Coherent

namespace Ledger

def closed (keccak : Bytes → Hash) (deleteEmptyObjects : Bool) (l : Ledger) (addr : Address) (dirty : Bool) :
    Option Account :=
  if dirty then
    (l.accounts addr).bind fun x => if x.deletes keccak deleteEmptyObjects then none else some x.settled
  else l.accounts addr

end Ledger

namespace StateObject

theorem view_finalise (obj : StateObject) : obj.finalise.view = obj.view.settled := by
  have committed : obj.finalise.committed = obj.current := by
    funext key
    rw [current, StateObject.committed, StateObject.committed, lookup_finalise]
    cases obj.dirtyStorage.lookup key with
    | none => rfl
    | some value => rfl
  have current : obj.finalise.current = obj.current := by
    rw [← committed]
    funext key
    simp [StateObject.current, finalise]
  simp only [view, Account.settled, committed, current]
  rfl

end StateObject

namespace StateDB

variable {gone : StateObject → Prop} {keccak : Bytes → Hash} {deleteEmptyObjects : Bool} {first : Nat} {s s' : StateDB}
  {l : Ledger}

def finalObject (keccak : Bytes → Hash) (deleteEmptyObjects dirty : Bool) (obj : StateObject) : StateObject :=
  if dirty then
    if deletes keccak deleteEmptyObjects obj then { obj with deleted := true }
    else (obj.cacheCommitted (obj.researchTouched.filter fun key => obj.dirtyStorage.lookup key = none)).finalise
  else obj

theorem lookup_finalised (finalised : s.finalise keccak deleteEmptyObjects = .ok s') (addr : Address) :
    ∃ keys, s'.stateObjects.lookup addr = (s.stateObjects.lookup addr).map fun obj =>
      finalObject keccak deleteEmptyObjects (decide (addr ∈ s.journal.dirties.keys)) (obj.cacheCommitted keys) := by
  obtain ⟨middle, journal, refund, recorded, -, rfl, -⟩ := finalise_ok finalised
  have empty (obj : StateObject) : obj.cacheCommitted ∅ = obj := by
    have origin : obj.originStorage.overwrite ∅ (fun key => some (obj.trie.getD key 0)) = obj.originStorage := by
      apply Go.Map.ext
      intro key
      rw [Go.Map.lookup_overwrite, if_neg (Finset.notMem_empty key)]
    simp only [StateObject.cacheCommitted, Finset.filter_empty, origin]
  unfold recordStorage at recorded
  split at recorded
  · cases recorded
  · cases recorded
    simp only [finaliseDirty, dirtyObjects, Go.Map.lookup_mapValues, Option.map_map, Finset.mem_filter]
    cases found : s.stateObjects.lookup addr with
    | none => exact ⟨∅, rfl⟩
    | some obj =>
      simp only [Option.map_some, Option.isSome_some, and_true, Function.comp_apply, Option.some.injEq, finalObject,
        decide_eq_true_eq]
      by_cases listed : (s.researchPreAlloc.lookup addr).join.isSome = true
      · exact ⟨obj.researchTouched, by simp only [if_pos listed]⟩
      · refine ⟨∅, ?_⟩
        simp only [if_neg listed, empty]

theorem finalised_object (finalised : s.finalise keccak deleteEmptyObjects = .ok s') {addr : Address}
    {obj' : StateObject} (found : s'.stateObjects.lookup addr = some obj') :
    ∃ obj keys, s.stateObjects.lookup addr = some obj ∧ obj' = finalObject keccak deleteEmptyObjects
      (decide (addr ∈ s.journal.dirties.keys)) (obj.cacheCommitted keys) := by
  obtain ⟨keys, after⟩ := lookup_finalised finalised addr
  rw [found] at after
  obtain ⟨obj, old, same⟩ := Option.map_eq_some_iff.mp after.symm
  exact ⟨obj, keys, old, same.symm⟩

theorem finalised_trie (finalised : s.finalise keccak deleteEmptyObjects = .ok s') : s'.trie = s.trie := by
  obtain ⟨_, _, _, -, ⟨_, _, _, rfl⟩, rfl, -⟩ := finalise_ok finalised
  rfl

theorem Models.finalise_accounts (models : Models gone first s l) (noted : l.Noted)
    (gone_deletes : ∀ obj, gone obj → deletes keccak deleteEmptyObjects obj = true)
    (finalised : s.finalise keccak deleteEmptyObjects = .ok s') (addr : Address) :
    (s'.peek addr).bind StateObject.live =
      l.closed keccak deleteEmptyObjects addr (decide (addr ∈ s.journal.dirties.keys)) := by
  obtain ⟨keys, after⟩ := lookup_finalised finalised addr
  have accounts : l.accounts addr = (s.peek addr).bind StateObject.live := by rw [← models.same]; rfl
  have trie := finalised_trie finalised
  unfold Ledger.closed
  cases found : s.stateObjects.lookup addr with
  | none =>
    rw [found] at after
    have same : s'.peek addr = s.peek addr := by
      simp only [peek, after, found, trie]
      rfl
    rw [same, ← accounts]
    split
    · rename_i dirty
      have recorded : l.record.lookup addr ≠ none := by
        intro missing
        obtain ⟨sticky, away⟩ := noted.unrecorded addr missing
        exact models.not_dirty sticky away (of_decide_eq_true dirty)
      have absent : l.accounts addr = none := by rw [models.recorded_object recorded, found]; rfl
      rw [absent]
      rfl
    · rfl
  | some obj =>
    rw [found] at after
    have peeked : s'.peek addr = some (finalObject keccak deleteEmptyObjects
        (decide (addr ∈ s.journal.dirties.keys)) (obj.cacheCommitted keys)) := by
      simp only [peek, after]
      rfl
    have live : l.accounts addr = obj.live := by
      rw [accounts]
      simp only [peek, found]
      rfl
    have view := StateObject.view_cacheCommitted obj keys
    have deleted : (obj.cacheCommitted keys).deleted = obj.deleted := rfl
    rw [peeked, Option.bind_some, live]
    unfold finalObject
    split
    · split
      · rename_i deletes
        have both : obj.view.deletes keccak deleteEmptyObjects = true := by rw [← view]; exact deletes
        have none : ({ obj.cacheCommitted keys with deleted := true } : StateObject).live = none := rfl
        rw [none]
        unfold StateObject.live
        split
        · rfl
        · simp [both]
      · rename_i keeps
        have both : ¬ obj.view.deletes keccak deleteEmptyObjects = true := by rw [← view]; exact keeps
        cases marked : obj.deleted with
        | true =>
          exact absurd (gone_deletes obj (models.sound.deleted addr obj found marked)) both
        | false =>
          rw [StateObject.live_of_not_deleted marked, Option.bind_some, if_neg both]
          refine (StateObject.live_of_not_deleted ?_).trans ?_
          · exact marked
          · rw [StateObject.view_finalise, StateObject.view_cacheCommitted, view]
    · unfold StateObject.live
      rw [deleted, view]

def account (s : StateDB) (addr : Address) : Option Account := (s.peek addr).bind StateObject.live

theorem Models.unedited {init : Address → Option Account} (models : Models gone first s l)
    (tracks : Ledger.Tracks init l) {addr : Address} (clean : addr ∉ s.journal.dirties.keys) :
    ∀ edit, Change.edited addr edit ∉ l.changes := by
  intro edit member
  apply clean
  rw [models.mem_dirties]
  have positive : 0 < l.marks addr := List.countP_pos_iff.mpr ⟨_, member, by simp [Change.marks]⟩
  have sticky := tracks.sticky addr
  exact .inl (by omega)

theorem Models.finalise_boundary {init : Ledger}
    (models : Models (fun obj => deletes keccak deleteEmptyObjects obj = true) first s l) (fresh : init.Fresh)
    (tracks : Ledger.Tracks init.accounts l)
    (cleared : s.journal.entries = [] → s.journal.dirties = .empty)
    (finalised : s.finalise keccak deleteEmptyObjects = .ok s') :
    AtBoundary (fun obj => deletes keccak deleteEmptyObjects obj = true) s' := by
  -- an object that was not dirty is seen in the ledger
  have seen {addr : Address} {obj : StateObject} {keys : Finset Hash} (old : s.stateObjects.lookup addr = some obj)
      (kept : (obj.cacheCommitted keys).deleted = false) (clean : addr ∉ s.journal.dirties.keys) :
      (∀ edit, Change.edited addr edit ∉ l.changes) ∧ l.bare addr = some obj.view.untouched := by
    refine ⟨models.unedited tracks clean, ?_⟩
    have found : l.accounts addr = some obj.view := by
      rw [← models.same]
      simp only [ledger, peek, old]
      exact StateObject.live_of_not_deleted kept
    simp [Ledger.bare, found]
  have journal : s'.journal = .new ∧ s'.validRevisions = [] := by
    obtain ⟨_, _, _, -, -, rfl, -, -, -, new⟩ := finalise_ok finalised
    exact ⟨new cleared, rfl⟩
  refine ⟨journal.1, journal.2, ?_, ?_, ?_, ?_⟩
  · intro addr obj' found
    obtain ⟨obj, keys, old, rfl⟩ := finalised_object finalised found
    rw [← models.sound.keyed addr obj old]
    unfold finalObject
    split
    · split <;> rfl
    · rfl
  · intro addr obj' found kept
    obtain ⟨obj, keys, old, rfl⟩ := finalised_object finalised found
    unfold finalObject at kept ⊢
    split at kept
    · rename_i dirty
      rw [if_pos dirty]
      split at kept
      · cases kept
      · rename_i keeps
        rw [if_neg keeps]
        have alive : (obj.cacheCommitted keys).suicided = false := by
          cases marked : (obj.cacheCommitted keys).suicided with
          | false => rfl
          | true => exact absurd (by simp [deletes, marked]) keeps
        exact alive
    · rename_i clean
      rw [if_neg clean]
      obtain ⟨unedited, bare⟩ := seen old kept (fun dirty => clean (decide_eq_true dirty))
      exact tracks.coherent.of_unedited (fun y start => fresh.alive addr y start) (fun _ _ => rfl) unedited bare
  · intro addr obj' found kept key
    obtain ⟨obj, keys, old, rfl⟩ := finalised_object finalised found
    unfold finalObject at kept ⊢
    split at kept
    · rename_i dirty
      rw [if_pos dirty]
      split at kept
      · cases kept
      · rename_i keeps
        rw [if_neg keeps]
        simp [StateObject.current, StateObject.finalise]
    · rename_i clean
      rw [if_neg clean]
      obtain ⟨unedited, bare⟩ := seen old kept (fun dirty => clean (decide_eq_true dirty))
      have same := tracks.coherent.of_unedited (fun y start => fresh.clean addr y start) (fun _ _ => rfl) unedited bare
      have view := StateObject.view_cacheCommitted obj keys
      have currents : (obj.cacheCommitted keys).current = obj.current := congrArg Account.current view
      rw [currents, StateObject.committed_cacheCommitted]
      exact congrFun same key
  · intro addr obj' found marked
    obtain ⟨obj, keys, old, rfl⟩ := finalised_object finalised found
    have same : deletes keccak deleteEmptyObjects (obj.cacheCommitted keys) =
      deletes keccak deleteEmptyObjects obj := rfl
    unfold finalObject at marked ⊢
    split at marked
    · rename_i dirty
      rw [if_pos dirty]
      split at marked
      · rename_i deletes
        rw [if_pos deletes]
        exact deletes
      · rename_i keeps
        have gone := models.sound.deleted addr obj old marked
        exact absurd (same.trans gone) keeps
    · rename_i clean
      rw [if_neg clean]
      exact same.trans (models.sound.deleted addr obj old marked)

end StateDB

end IDWDetector.State
