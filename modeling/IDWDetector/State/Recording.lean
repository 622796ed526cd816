import IDWDetector.State.Refinement

namespace IDWDetector.State

open Go

namespace Account

def pre (x : Account) (sa : SubstateAccount) : SubstateAccount :=
  { sa with storage := sa.storage.overwrite x.touched fun key => some (x.committed key) }

def post (x : Account) : SubstateAccount :=
  { x.info with storage := StateDB.slotValues x.touched x.current }

def deletes (keccak : Bytes → Hash) (deleteEmptyObjects : Bool) (x : Account) : Bool :=
  x.suicided || (deleteEmptyObjects && x.empty keccak)

end Account

namespace Ledger

def preAccount (l : Ledger) (addr : Address) : Option SubstateAccount :=
  (l.record.lookup addr).join.bind fun sa => (l.accounts addr).map (·.pre sa)

def postAccount (keccak : Bytes → Hash) (deleteEmptyObjects : Bool) (l : Ledger) (addr : Address)
    (dirty : Bool) : Option SubstateAccount :=
  if dirty then
    (l.accounts addr).bind fun x => if x.deletes keccak deleteEmptyObjects then none else some x.post
  else l.preAccount addr

end Ledger

namespace StateObject

theorem committed_cacheCommitted (obj : StateObject) (keys : Finset Hash) :
    (obj.cacheCommitted keys).committed = obj.committed := by
  funext key
  unfold cacheCommitted committed
  simp only
  split
  · rfl
  · rename_i pending
    rw [Map.lookup_overwrite]
    split_ifs with member
    · have absent := (Finset.mem_filter.mp member).2.2
      simp [absent]
    · rfl

theorem view_cacheCommitted (obj : StateObject) (keys : Finset Hash) :
    (obj.cacheCommitted keys).view = obj.view :=
  view_of_committed (committed_cacheCommitted obj keys)

end StateObject

namespace StateDB

variable {gone : StateObject → Prop} {keccak : Bytes → Hash} {deleteEmptyObjects : Bool} {first : Nat}
    {s : StateDB} {l : Ledger}

theorem mem_dirties_iff (sound : Sound gone s) (addr : Address) :
    addr ∈ s.journal.dirties.keys ↔ 0 < s.journal.count addr := by
  have counted := sound.counted addr
  have positive := sound.positive addr
  rw [Map.mem_keys_iff]
  unfold Journal.count Map.getD at *
  cases found : s.journal.dirties.lookup addr with
  | none => simp
  | some n =>
    rw [found] at counted positive
    simp only [Option.getD_some] at counted ⊢
    have nonzero : n ≠ 0 := fun zero => positive (by rw [zero])
    constructor
    · intro _
      omega
    · intro _
      exact ⟨n, rfl⟩

theorem clearJournalAndRefund_eq (s : StateDB) : ∃ journal refund,
    s.clearJournalAndRefund = { s with journal := journal, refund := refund, validRevisions := [] } ∧
      journal.entries = [] ∧ (journal = s.journal ∨ journal = .new) ∧ (s.refund = 0 → refund = 0) ∧
      ((s.journal.entries = [] → s.journal.dirties = .empty) → journal = .new) := by
  unfold clearJournalAndRefund
  simp only
  split_ifs with short
  · exact ⟨.new, 0, rfl, rfl, .inr rfl, fun _ => rfl, fun _ => rfl⟩
  · have entries : s.journal.entries = [] := by
      rw [← List.length_eq_zero_iff]
      omega
    refine ⟨s.journal, s.refund, rfl, entries, .inl rfl, id, ?_⟩
    intro clean
    have dirties := clean entries
    cases held : s.journal
    rw [held] at entries dirties
    simp only at entries dirties
    rw [entries, dirties]
    rfl

theorem finalise_ok {s t : StateDB} (finalised : s.finalise keccak deleteEmptyObjects = .ok t) :
    ∃ middle journal refund, s.recordStorage = .ok middle ∧ (∃ pre post objects,
        middle = { s with researchPreAlloc := pre, researchPostAlloc := post, stateObjects := objects }) ∧
      t = { middle.finaliseDirty keccak deleteEmptyObjects with
        journal := journal, refund := refund, validRevisions := [] } ∧
      journal.entries = [] ∧ (journal = s.journal ∨ journal = .new) ∧ (s.refund = 0 → refund = 0) ∧
      ((s.journal.entries = [] → s.journal.dirties = .empty) → journal = .new) := by
  obtain ⟨middle, recorded, closed⟩ := Machine.bind_ok.mp finalised
  obtain ⟨journal, refund, cleared, rest⟩ := clearJournalAndRefund_eq (middle.finaliseDirty keccak deleteEmptyObjects)
  rw [cleared] at closed
  cases closed
  have frame := recorded
  unfold StateDB.recordStorage at frame
  split at frame
  · cases frame
  · cases frame
    exact ⟨_, journal, refund, recorded, ⟨_, _, _, rfl⟩, rfl, rest⟩

variable (models : Models gone first s l)
include models

theorem Models.recorded_object {addr : Address} (recorded : l.record.lookup addr ≠ none) :
    l.accounts addr = (s.stateObjects.lookup addr).bind StateObject.live := by
  rw [← models.same] at recorded ⊢
  simp only [ledger, peek]
  cases found : s.stateObjects.lookup addr with
  | some obj => rfl
  | none => simp [models.sound.loaded addr recorded found]

theorem Models.recordStorage (posted : s.researchPostAlloc = .empty)
    (kept : ∀ addr sa, l.record.lookup addr = some (some sa) → l.accounts addr ≠ none) :
    ∃ s', s.recordStorage = .ok s' ∧ s'.journal = s.journal ∧
      (∀ addr, s'.researchPreAlloc.lookup addr = (l.preAccount addr).map some) ∧
      (∀ addr, s'.researchPostAlloc.lookup addr = (l.preAccount addr).map some) ∧
      ∀ addr, (s'.stateObjects.lookup addr).map StateObject.view =
        (s.stateObjects.lookup addr).map StateObject.view := by
  have record : s.researchPreAlloc = l.record := by rw [← models.same]; rfl
  have present : ¬ Map.anyKey s.researchPreAlloc.keys (fun addr =>
      (s.researchPreAlloc.lookup addr).join.isSome ∧ s.stateObjects.lookup addr = none) = true := by
    rw [Map.anyKey_iff]
    rintro ⟨addr, -, recorded, absent⟩
    rw [record] at recorded
    obtain ⟨sa, found⟩ := Option.isSome_iff_exists.mp recorded
    have entry : l.record.lookup addr = some (some sa) := Option.join_eq_some_iff.mp found
    apply kept addr sa entry
    rw [models.recorded_object (by rw [entry]; simp), absent]
    rfl
  have pre (addr : Address) : ((l.record.lookup addr).bind fun sa =>
      sa.bind fun sa => (s.stateObjects.lookup addr).map fun obj => some (StateDB.preAccount sa obj)) =
      (l.preAccount addr).map some := by
    unfold Ledger.preAccount
    cases entry : l.record.lookup addr with
    | none => rfl
    | some found =>
      cases found with
      | none => rfl
      | some sa =>
        have live := kept addr sa entry
        rw [models.recorded_object (by rw [entry]; simp)] at live ⊢
        cases loaded : s.stateObjects.lookup addr with
        | none => rw [loaded] at live; exact absurd rfl live
        | some obj =>
          rw [loaded] at live
          cases marked : obj.deleted with
          | true => exact absurd (by simp [StateObject.live, marked]) live
          | false =>
            simp only [Option.join_some, Option.bind_some, Option.map_some, StateObject.live, marked]
            rfl
  unfold StateDB.recordStorage
  rw [if_neg present]
  refine ⟨_, rfl, rfl, ?_, ?_, ?_⟩
  · intro addr
    simp only [Map.lookup_filterMap, record]
    exact pre addr
  · intro addr
    simp only [Map.lookup_overwrite, Map.lookup_filterMap, record, pre]
    split_ifs with absent
    · rfl
    · rw [Map.not_mem_keys, Map.lookup_filterMap, pre] at absent
      rw [absent]
      rw [posted, Map.lookup_empty]
  · intro addr
    rw [Map.lookup_mapValues]
    cases s.stateObjects.lookup addr with
    | none => rfl
    | some obj =>
      simp only [Option.map_some]
      split
      · rw [StateObject.view_cacheCommitted]
      · rfl

theorem Models.finalise (posted : s.researchPostAlloc = .empty)
    (gone_deletes : ∀ obj, gone obj → deletes keccak deleteEmptyObjects obj = true)
    (kept : ∀ addr sa, l.record.lookup addr = some (some sa) → l.accounts addr ≠ none)
    (marked : ∀ addr ∈ s.journal.dirties.keys, l.record.lookup addr ≠ none) :
    ∃ s', s.finalise keccak deleteEmptyObjects = .ok s' ∧
      (∀ addr, s'.researchPreAlloc.lookup addr = (l.preAccount addr).map some) ∧
      ∀ addr, s'.researchPostAlloc.lookup addr =
        (l.postAccount keccak deleteEmptyObjects addr (decide (addr ∈ s.journal.dirties.keys))).map some := by
  obtain ⟨t, recorded, journal, pre, post, views⟩ := models.recordStorage posted kept
  refine ⟨_, Machine.bind_ok.mpr ⟨t, recorded, rfl⟩, ?_, ?_⟩
  · intro addr
    obtain ⟨_, _, cleared, -⟩ := clearJournalAndRefund_eq (t.finaliseDirty keccak deleteEmptyObjects)
    rw [cleared]
    exact pre addr
  · intro addr
    have whole : (t.stateObjects.lookup addr).bind (fun obj =>
        if deletes keccak deleteEmptyObjects obj then none else some (some (StateDB.postAccount obj))) =
        ((s.stateObjects.lookup addr).map StateObject.view).bind (fun x =>
          if x.deletes keccak deleteEmptyObjects then none else some (some x.post)) := by
      rw [← views, Option.bind_map]
      rfl
    have loaded : (t.stateObjects.lookup addr).isSome = (s.stateObjects.lookup addr).isSome := by
      simpa using congrArg Option.isSome (views addr)
    obtain ⟨_, _, cleared, -⟩ := clearJournalAndRefund_eq (t.finaliseDirty keccak deleteEmptyObjects)
    rw [cleared]
    simp only [finaliseDirty, Map.lookup_overwrite, dirtyObjects, Finset.mem_filter, journal, loaded, whole,
      post, Ledger.postAccount]
    by_cases dirty : addr ∈ s.journal.dirties.keys
    · rw [models.recorded_object (marked addr dirty)]
      cases found : s.stateObjects.lookup addr with
      | none =>
        simp only [dirty, true_and, Option.isSome_none]
        have absent : l.preAccount addr = none := by
          unfold Ledger.preAccount
          rw [models.recorded_object (marked addr dirty), found]
          cases (l.record.lookup addr).join <;> rfl
        simp [absent]
      | some obj =>
        simp only [dirty, true_and, Option.isSome_some, if_true, decide_true, Option.map_some, Option.bind_some]
        cases held : obj.deleted with
        | true =>
          have deletes : obj.view.deletes keccak deleteEmptyObjects = true :=
            gone_deletes obj (models.sound.deleted addr obj found held)
          simp [StateObject.live, held, deletes]
        | false =>
          rw [StateObject.live_of_not_deleted held, Option.bind_some]
          cases obj.view.deletes keccak deleteEmptyObjects <;> rfl
    · simp [dirty]

end StateDB

end IDWDetector.State
