import IDWDetector.State.Refinement

namespace IDWDetector.State

variable {added : List Log} {t : StateDB}

namespace StateDB

/-- From `s` to `s'` the current transaction has added logs and taken snapshots,
    and the journal can undo both. -/
structure Logged (s s' : StateDB) (added : List Log) : Prop where
  thash : s'.thash = s.thash
  logs : s'.getLogs s.thash = s.getLogs s.thash ++ added
  journal : ∃ entries, s'.journal.entries = entries ++ s.journal.entries ∧
    entries.count (.addLogChange s.thash) = added.length
  revisions : ∃ later, s'.validRevisions = s.validRevisions ++ later ∧
    ∀ revision ∈ later, s.nextRevisionId ≤ revision.id ∧ revision.id < s'.nextRevisionId
  nextRevisionId : s.nextRevisionId ≤ s'.nextRevisionId

/-- The ids of the revisions are used up. -/
def Numbered (s : StateDB) : Prop := ∀ revision ∈ s.validRevisions, revision.id < s.nextRevisionId

theorem new_numbered (trie : Go.Map Address StateAccount) : (StateDB.new trie).Numbered :=
  fun _ member => nomatch member

namespace Logged

variable {s u : StateDB} {more : List Log}

theorem still (thash : t.thash = s.thash) (logs : t.logs = s.logs)
    (entries : t.journal.entries = s.journal.entries) (revisions : t.validRevisions = s.validRevisions)
    (next : t.nextRevisionId = s.nextRevisionId) : Logged s t [] where
  thash := thash
  logs := by rw [List.append_nil, getLogs, getLogs, logs]
  journal := ⟨[], entries, rfl⟩
  revisions := ⟨[], by rw [revisions, List.append_nil], fun _ member => nomatch member⟩
  nextRevisionId := next.ge

theorem refl (s : StateDB) : Logged s s [] := still rfl rfl rfl rfl rfl

theorem trans (first : Logged s t added) (second : Logged t u more) : Logged s u (added ++ more) where
  thash := second.thash.trans first.thash
  logs := by
    have later := second.logs
    rw [first.thash, first.logs, List.append_assoc] at later
    exact later
  journal := by
    obtain ⟨old, oldEntries, oldCount⟩ := first.journal
    obtain ⟨new, newEntries, newCount⟩ := second.journal
    rw [first.thash] at newCount
    have entries : u.journal.entries = new ++ old ++ s.journal.entries := by
      rw [newEntries, oldEntries, List.append_assoc]
    have count : (new ++ old).count (.addLogChange s.thash) = (added ++ more).length := by
      rw [List.count_append, List.length_append]
      omega
    exact ⟨new ++ old, entries, count⟩
  revisions := by
    obtain ⟨old, oldRevisions, oldIds⟩ := first.revisions
    obtain ⟨new, newRevisions, newIds⟩ := second.revisions
    have grows := first.nextRevisionId
    have grows' := second.nextRevisionId
    refine ⟨old ++ new, by rw [newRevisions, oldRevisions, List.append_assoc], ?_⟩
    intro revision member
    rcases List.mem_append.mp member with inOld | inNew
    · have bounds := oldIds revision inOld
      omega
    · have bounds := newIds revision inNew
      omega
  nextRevisionId := first.nextRevisionId.trans second.nextRevisionId

theorem still_left (first : Logged s t []) (second : Logged t u added) : Logged s u added :=
  first.trans second

theorem still_right (first : Logged s t added) (second : Logged t u []) : Logged s u added := by
  have both := first.trans second
  rwa [List.append_nil] at both

theorem numbered (logged : Logged s t added) (numbered : s.Numbered) : t.Numbered := by
  obtain ⟨later, revisions, ids⟩ := logged.revisions
  have grows := logged.nextRevisionId
  intro revision member
  rw [revisions] at member
  rcases List.mem_append.mp member with before | after
  · have bound := numbered revision before
    omega
  · exact (ids revision after).2

end Logged

section Writes

variable (s : StateDB)

theorem append_logged (entry : JournalEntry) (other : entry.isLog = false) : Logged s (s.append entry) [] where
  thash := rfl
  logs := (List.append_nil _).symm
  journal := by
    have count : [entry].count (.addLogChange s.thash) = 0 := by
      rw [List.count_eq_zero, List.mem_singleton]
      intro same
      rw [← same] at other
      cases other
    exact ⟨[entry], Journal.entries_append s.journal entry, count⟩
  revisions := ⟨[], (List.append_nil _).symm, fun _ member => nomatch member⟩
  nextRevisionId := le_rfl

theorem snapshot_logged : Logged s s.snapshot.2 [] where
  thash := rfl
  logs := (List.append_nil _).symm
  journal := ⟨[], rfl, rfl⟩
  revisions := by
    refine ⟨_, rfl, ?_⟩
    intro revision member
    rw [List.mem_singleton.mp member]
    exact ⟨le_rfl, Nat.lt_succ_self _⟩
  nextRevisionId := Nat.le_succ _

theorem Primitives.logged {kind : JournalEntry → Bool} {s : StateDB} (primitives : Primitives kind s t)
    (other : ∀ entry, kind entry = true → entry.isLog = false) : Logged s t [] := by
  induction primitives with
  | refl => exact .refl s
  | tail _ step ih =>
    refine ih.trans ?_
    cases step with
    | record addr account =>
      unfold recordPre
      split
      · exact .refl _
      · exact .still rfl rfl rfl rfl rfl
    | put | mark => exact .still rfl rfl rfl rfl rfl
    | note entry allowed => exact append_logged _ entry (other entry allowed)
    | revise => exact snapshot_logged _

theorem exec_logged {keccak : Bytes → Hash} {first : Nat} {s : StateDB} {op : Op} {value : Value}
    (forward : ∀ number, op ≠ .revertToSnapshot number) (executed : s.exec keccak first op = .ok (value, t)) :
    Logged s t [] := by
  refine (exec_primitives forward executed).logged fun entry noted => ?_
  have other := (Bool.and_eq_true_iff.mp noted).2
  rwa [Bool.not_eq_true'] at other

theorem addRefund_logged (gas : Uint64) : Logged s (s.addRefund gas) [] :=
  (append_logged s (.refundChange s.refund) rfl).trans (.still rfl rfl rfl rfl rfl)

theorem subRefund_logged {gas : Uint64} (subtracted : s.subRefund gas = .ok t) : Logged s t [] := by
  unfold subRefund at subtracted
  split at subtracted
  · cases subtracted
  · cases subtracted
    exact (append_logged s (.refundChange s.refund) rfl).trans (.still rfl rfl rfl rfl rfl)

theorem addLog_logged (log : Log) :
    ∃ stored : Log, Logged s (s.addLog log) [stored] ∧
      stored.address = log.address ∧ stored.topics = log.topics ∧ stored.data = log.data := by
  refine ⟨{ log with txHash := s.thash, txIndex := s.txIndex, index := s.logSize }, ?_, rfl, rfl, rfl⟩
  exact
    { thash := rfl
      logs := by
        show (s.logs.set s.thash _).getD s.thash [] = _
        rw [Go.Map.getD, Go.Map.lookup_set_self]
        rfl
      journal := ⟨[.addLogChange s.thash], rfl, List.count_singleton_self⟩
      revisions := ⟨[], (List.append_nil _).symm, fun _ member => nomatch member⟩
      nextRevisionId := le_rfl }

end Writes

section Reverting

variable {s u : StateDB}

theorem revertEntry_logged {entry : JournalEntry} (other : entry.isLog = false)
    (reverted : s.revertEntry entry = .ok t) : Logged s t [] := by
  rcases revertEntry_cases reverted with written | ⟨_, _, rfl⟩ | ⟨_, _, rfl⟩ | ⟨_, _, rfl, _⟩
  · exact (written : Primitives (fun _ => false) s t).logged nofun
  · exact .still rfl rfl rfl rfl rfl
  · exact .still rfl rfl rfl rfl rfl
  · cases other

theorem getLogs_revert_addLogChange (s : StateDB) (hash : Hash) :
    ∃ t, s.revertEntry (.addLogChange hash) = .ok t ∧ t.thash = s.thash ∧
      t.nextRevisionId = s.nextRevisionId ∧
      ∀ other, t.getLogs other = if other = hash then (s.getLogs hash).dropLast else s.getLogs other := by
  refine ⟨_, rfl, rfl, rfl, ?_⟩
  intro other
  simp only [getLogs]
  by_cases single : (s.logs.getD hash []).length = 1
  · have nothing : (s.logs.getD hash []).dropLast = [] := by
      apply List.eq_nil_of_length_eq_zero
      rw [List.length_dropLast, single]
    rw [if_pos single, nothing]
    exact Go.Map.getD_delete _ _ _ _
  · rw [if_neg single]
    exact Go.Map.getD_set _ _ _ _ _

theorem revertEntry_logs {entry : JournalEntry} (reverted : s.revertEntry entry = .ok t) :
    t.thash = s.thash ∧ s.nextRevisionId ≤ t.nextRevisionId ∧
      t.getLogs s.thash =
        if entry = .addLogChange s.thash then (s.getLogs s.thash).dropLast else s.getLogs s.thash := by
  by_cases log : ∃ hash, entry = .addLogChange hash
  · obtain ⟨hash, rfl⟩ := log
    obtain ⟨t', reverted', thash, next, logs⟩ := getLogs_revert_addLogChange s hash
    rw [reverted] at reverted'
    cases reverted'
    refine ⟨thash, next.ge, ?_⟩
    rw [logs]
    by_cases current : s.thash = hash
    · rw [if_pos current, if_pos (congrArg _ current.symm), current]
    · have different : JournalEntry.addLogChange hash ≠ .addLogChange s.thash := by
        intro same
        cases same
        exact current rfl
      rw [if_neg current, if_neg different]
  · have other : entry.isLog = false := by
      cases entry with
      | addLogChange hash => exact absurd ⟨hash, rfl⟩ log
      | _ => rfl
    have logged := revertEntry_logged other reverted
    refine ⟨logged.thash, logged.nextRevisionId, ?_⟩
    rw [logged.logs, List.append_nil, if_neg fun same => log ⟨_, same⟩]

theorem revertEntries_logs {undone old : List JournalEntry} {kept : List Log}
    (entries : s.journal.entries = undone ++ old) (logs : s.getLogs s.thash = kept ++ added)
    (count : undone.count (.addLogChange s.thash) = added.length)
    (reverted : revertEntries old.length (undone ++ old) s = .ok t) :
    t.thash = s.thash ∧ s.nextRevisionId ≤ t.nextRevisionId ∧ t.journal.entries = old ∧
      t.getLogs s.thash = kept := by
  induction undone generalizing s added with
  | nil =>
    have nothing : added = [] := List.eq_nil_of_length_eq_zero count.symm
    rw [nothing, List.append_nil] at logs
    have same : t = s := by
      cases old with
      | nil =>
        cases reverted
        rfl
      | cons entry rest =>
        simp only [List.nil_append, revertEntries, List.length_cons, Nat.not_succ_le_self, if_false] at reverted
        cases reverted
        rfl
    rw [same]
    exact ⟨rfl, le_rfl, entries, logs⟩
  | cons entry rest ih =>
    have inside : old.length ≤ (rest ++ old).length := by
      rw [List.length_append]
      omega
    rw [List.cons_append, revertEntries, if_pos inside] at reverted
    obtain ⟨middle, first, later⟩ := Machine.bind_ok.mp reverted
    obtain ⟨thash, next, view⟩ := revertEntry_logs first
    have shorter : ∃ fewer : List Log, middle.getLogs s.thash = kept ++ fewer ∧
        rest.count (.addLogChange s.thash) = fewer.length := by
      by_cases log : entry = .addLogChange s.thash
      · rw [log, List.count_cons_self] at count
        rcases List.eq_nil_or_concat' added with none | ⟨fewer, last, split⟩
        · rw [none] at count
          cases count
        · rw [if_pos log, logs, split, ← List.append_assoc, List.dropLast_concat] at view
          rw [split, List.length_append, List.length_singleton] at count
          exact ⟨fewer, view, by omega⟩
      · rw [if_neg log, logs] at view
        rw [List.count_cons_of_ne log] at count
        exact ⟨added, view, count⟩
    obtain ⟨fewer, view', count'⟩ := shorter
    rw [← thash] at view' count'
    obtain ⟨thash', next', entries', kept'⟩ := ih
      (s := { middle with journal := { middle.journal.undirty entry with entries := rest ++ old } })
      rfl view' count' later
    exact ⟨thash'.trans thash, next.trans next', entries', thash ▸ kept'⟩

theorem findIdx_revision {before later : List Revision} {revision : Revision}
    (older : ∀ r ∈ before, r.id < revision.id) :
    (before ++ revision :: later).findIdx (fun r => decide (revision.id ≤ r.id)) = before.length := by
  induction before with
  | nil => simp [List.findIdx_cons]
  | cons first rest ih =>
    have smaller := older first List.mem_cons_self
    have notFound : decide (revision.id ≤ first.id) = false := decide_eq_false (by omega)
    have rest' := ih fun r member => older r (List.mem_cons_of_mem first member)
    rw [List.cons_append, List.findIdx_cons, notFound, rest']
    rfl

theorem revertToSnapshot_eq (numbered : s.Numbered) (logged : Logged s.snapshot.2 t added) :
    t.revertToSnapshot s.snapshot.1 =
      t.revertJournal s.journal.length >>= fun u => .ok { u with validRevisions := s.validRevisions } := by
  obtain ⟨later, revisions, -⟩ := logged.revisions
  have found : t.validRevisions = s.validRevisions ++ ⟨s.nextRevisionId, s.journal.length⟩ :: later := by
    rw [revisions]
    exact List.append_assoc _ _ _
  have index : t.validRevisions.findIdx (fun r => decide (s.nextRevisionId ≤ r.id)) =
      s.validRevisions.length := by
    have older : ∀ r ∈ s.validRevisions, r.id < (Revision.mk s.nextRevisionId s.journal.length).id := numbered
    rw [found]
    exact findIdx_revision older
  have lookup : t.validRevisions[s.validRevisions.length]? = some ⟨s.nextRevisionId, s.journal.length⟩ := by
    rw [found]
    simp
  have taken : t.validRevisions.take s.validRevisions.length = s.validRevisions := by
    rw [found, List.take_left]
  change t.revertToSnapshot s.nextRevisionId = _
  simp only [revertToSnapshot, index, lookup, taken, ne_eq, not_true_eq_false, if_false]

theorem revertToSnapshot_logged (numbered : s.Numbered) (logged : Logged s.snapshot.2 t added)
    (reverted : t.revertToSnapshot s.snapshot.1 = .ok u) :
    Logged s u [] ∧ u.journal.entries = s.journal.entries := by
  obtain ⟨undone, entries, count⟩ := logged.journal
  rw [revertToSnapshot_eq numbered logged] at reverted
  obtain ⟨middle, undoing, result⟩ := Machine.bind_ok.mp reverted
  cases result
  rw [revertJournal, entries] at undoing
  have thash : t.thash = s.thash := logged.thash
  have logs : t.getLogs t.thash = s.getLogs s.thash ++ added := by
    rw [thash]
    exact logged.logs
  have count' : undone.count (.addLogChange t.thash) = added.length := by
    rw [thash]
    exact count
  obtain ⟨thash', next, entries', kept⟩ := revertEntries_logs entries logs count' undoing
  have grows : s.nextRevisionId + 1 ≤ t.nextRevisionId := logged.nextRevisionId
  refine ⟨?_, entries'⟩
  exact
    { thash := thash'.trans thash
      logs := by
        rw [List.append_nil, ← thash] at *
        exact kept
      journal := ⟨[], entries', rfl⟩
      revisions := ⟨[], by rw [List.append_nil], fun _ member => nomatch member⟩
      nextRevisionId := by
        show s.nextRevisionId ≤ middle.nextRevisionId
        omega }

end Reverting

end StateDB

end IDWDetector.State
