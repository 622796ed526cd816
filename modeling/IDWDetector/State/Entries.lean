import IDWDetector.State.Refinement

namespace IDWDetector.State

variable {entry : JournalEntry}

def Journal.refundBefore : List JournalEntry → Uint64 → Uint64
  | [], refund => refund
  | .refundChange prev :: rest, _ => refundBefore rest prev
  | _ :: rest, refund => refundBefore rest refund

theorem Journal.refundBefore_cons (other : entry.refunds = false) (rest : List JournalEntry) (refund : Uint64) :
    refundBefore (entry :: rest) refund = refundBefore rest refund := by
  cases entry with
  | refundChange prev => cases other
  | _ => rfl

theorem Journal.refundBefore_append {added : List JournalEntry} (other : ∀ entry ∈ added, entry.refunds = false)
    (rest : List JournalEntry) (refund : Uint64) : refundBefore (added ++ rest) refund = refundBefore rest refund := by
  induction added with
  | nil => rfl
  | cons entry added ih =>
    rw [List.cons_append, refundBefore_cons (other entry List.mem_cons_self)]
    exact ih fun e member => other e (List.mem_cons_of_mem _ member)

namespace StateDB

def Extends (kind : JournalEntry → Bool) (s t : StateDB) : Prop :=
  ∃ added, t.journal.entries = added ++ s.journal.entries ∧ ∀ entry ∈ added, kind entry = true

structure Adds (kind : JournalEntry → Bool) (s t : StateDB) : Prop where
  refund : t.refund = s.refund
  entries : Extends kind s t

section Extending

variable {kind : JournalEntry → Bool} {s t u : StateDB}

theorem Extends.nothing (entries : t.journal.entries = s.journal.entries) : Extends kind s t :=
  ⟨[], entries, fun _ member => nomatch member⟩

theorem Extends.trans (first : Extends kind s t) (second : Extends kind t u) : Extends kind s u := by
  obtain ⟨old, entries, kinds⟩ := first
  obtain ⟨new, entries', kinds'⟩ := second
  refine ⟨new ++ old, by rw [entries', entries, List.append_assoc], ?_⟩
  intro entry member
  rcases List.mem_append.mp member with later | earlier
  · exact kinds' entry later
  · exact kinds entry earlier

theorem Extends.all (extended : Extends kind s t) (kinds : ∀ entry ∈ s.journal.entries, kind entry = true) :
    ∀ entry ∈ t.journal.entries, kind entry = true := by
  obtain ⟨added, entries, new⟩ := extended
  intro entry member
  rw [entries] at member
  rcases List.mem_append.mp member with later | earlier
  · exact new entry later
  · exact kinds entry earlier

theorem Adds.imp {other : JournalEntry → Bool} (adds : Adds kind s t)
    (implies : ∀ entry, kind entry = true → other entry = true) : Adds other s t := by
  obtain ⟨refund, added, entries, kinds⟩ := adds
  exact ⟨refund, added, entries, fun entry member => implies entry (kinds entry member)⟩

end Extending

namespace Adds

variable {kind : JournalEntry → Bool} {s t u : StateDB}

theorem nothing (refund : t.refund = s.refund) (entries : t.journal.entries = s.journal.entries) : Adds kind s t :=
  ⟨refund, .nothing entries⟩

theorem refl (s : StateDB) : Adds kind s s := nothing rfl rfl

theorem trans (first : Adds kind s t) (second : Adds kind t u) : Adds kind s u :=
  ⟨second.refund.trans first.refund, first.entries.trans second.entries⟩

theorem append (s : StateDB) (allowed : kind entry = true) : Adds kind s (s.append entry) := by
  refine ⟨rfl, [entry], Journal.entries_append s.journal entry, ?_⟩
  intro e member
  rw [List.mem_singleton.mp member]
  exact allowed

theorem refundBefore (adds : Adds kind s t) (other : ∀ entry, kind entry = true → entry.refunds = false) :
    Journal.refundBefore t.journal.entries t.refund = Journal.refundBefore s.journal.entries s.refund := by
  obtain ⟨added, entries, kinds⟩ := adds.entries
  rw [entries, adds.refund]
  exact Journal.refundBefore_append (fun entry member => other entry (kinds entry member)) _ _

end Adds

theorem Primitives.adds {kind : JournalEntry → Bool} {s t : StateDB} (primitives : Primitives kind s t) :
    Adds kind s t := by
  induction primitives with
  | refl => exact .refl s
  | tail _ step ih =>
    refine ih.trans ?_
    cases step with
    | record addr account =>
      unfold recordPre
      split
      · exact .refl _
      · exact .nothing rfl rfl
    | put | mark | revise => exact .nothing rfl rfl
    | note entry allowed => exact .append _ allowed

theorem exec_adds {keccak : Bytes → Hash} {first : Nat} {s t : StateDB} {op : Op} {value : Value}
    (forward : ∀ number, op ≠ .revertToSnapshot number) (executed : s.exec keccak first op = .ok (value, t)) :
    Adds op.allows s t :=
  (exec_primitives forward executed).adds.imp fun _ noted => (Bool.and_eq_true_iff.mp noted).1

section Reverting

variable {s t : StateDB}

theorem revertEntry_refund (other : entry.refunds = false) (reverted : s.revertEntry entry = .ok t) :
    t.refund = s.refund := by
  rcases revertEntry_cases reverted with written | ⟨_, _, rfl⟩ | ⟨_, rfl, _⟩ | ⟨_, _, _, rfl⟩
  · exact (written : Primitives JournalEntry.harmless s t).adds.refund
  · rfl
  · cases other
  · rfl

theorem revertEntries_refundBefore {snapshot : Nat} {entries : List JournalEntry}
    (journal : s.journal.entries = entries)
    (reverted : revertEntries snapshot entries s = .ok t) :
    Journal.refundBefore t.journal.entries t.refund = Journal.refundBefore entries s.refund := by
  refine revertEntries_rule (motive := fun u => Journal.refundBefore u.journal.entries u.refund =
    Journal.refundBefore entries s.refund) (by rw [journal]) ?_ journal reverted
  intro u u' entry rest same journal undone
  rw [← same, journal]
  cases refunds : entry.refunds with
  | false =>
    have kept := revertEntry_refund refunds undone
    rw [Journal.refundBefore_cons refunds]
    exact congrArg _ kept
  | true =>
    cases entry with
    | refundChange prev =>
      cases undone
      rfl
    | _ => cases refunds

end Reverting

end StateDB

end IDWDetector.State
