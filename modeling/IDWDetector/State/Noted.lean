import IDWDetector.State.RecordReplay

namespace IDWDetector.State

open Machine

def StateDB.Looked (s : StateDB) : Op → Prop
  | .createAccount addr => s.researchPreAlloc.lookup addr ≠ none
  | _ => True

namespace Ledger

def Looked (l : Ledger) : Op → Prop
  | .createAccount addr => l.record.lookup addr ≠ none
  | _ => True

namespace Noted

variable {l l' : Ledger} {addr : Address} (noted : Noted l)
include noted

theorem lookUp (addr : Address) : Noted (l.lookUp addr) := by
  unfold Ledger.lookUp
  split
  · exact noted
  · rename_i absent
    constructor
    · intro a sa found
      rcases Go.Map.of_lookup_set found with ⟨rfl, found⟩ | found
      · obtain ⟨x, live, -⟩ := Option.map_eq_some_iff.mp found
        simp [live]
      · exact noted.present a sa found
    · intro a member
      have recorded := noted.created a member
      have different : a ≠ addr := by
        rintro rfl
        rw [absent] at recorded
        cases recorded
      simp only [Go.Map.lookup_set_of_ne _ _ different]
      exact recorded
    · intro a missing
      simp only [Go.Map.lookup_set] at missing
      split at missing
      · cases missing
      · exact noted.unrecorded a missing

theorem put (addr : Address) (x : Account) : Noted (l.put addr (some x)) := by
  refine ⟨?_, noted.created, noted.unrecorded⟩
  intro a sa found
  by_cases same : a = addr
  · subst same
    simp [Ledger.put]
  · simp only [Ledger.put, Function.update_of_ne same]
    exact noted.present a sa found

theorem push {change : Change} (about : change.addr = some addr) (recorded : l.record.lookup addr ≠ none)
    (absent : change = .created addr none → l.record.lookup addr = some none) : Noted (l.push change) := by
  refine ⟨noted.present, ?_, ?_⟩
  · intro a member
    rcases List.mem_cons.mp member with same | member
    · subst same
      cases about
      exact absent rfl
    · exact noted.created a member
  · intro a missing
    refine ⟨(noted.unrecorded a missing).1, ?_⟩
    intro c member same
    rcases List.mem_cons.mp member with rfl | member
    · rw [about] at same
      cases same
      exact recorded missing
    · exact (noted.unrecorded a missing).2 c member same

section

variable (recorded : l.record.lookup addr ≠ none)
include recorded

theorem create (balance : Int) : Noted (l.create addr balance) := by
  refine (noted.push rfl recorded ?_).put addr _
  intro same
  have absent : l.accounts addr = none := (Change.created.inj same).2
  obtain ⟨entry, found⟩ := Option.ne_none_iff_exists'.mp recorded
  cases entry with
  | none => exact found
  | some sa => exact absurd absent (noted.present addr sa found)

theorem edit (edit : Edit) (x : Account) : Noted (l.edit addr edit x) :=
  (noted.push rfl recorded (by rintro ⟨⟩)).put addr x

theorem touch : Noted (l.touch addr) := by
  have pushed : Noted (l.push (.touched addr)) := noted.push rfl recorded (by rintro ⟨⟩)
  unfold Ledger.touch
  simp only
  split
  · refine ⟨pushed.present, pushed.created, ?_⟩
    intro a missing
    have different : a ≠ addr := by
      rintro rfl
      exact recorded missing
    simp only [Function.update_of_ne different]
    exact pushed.unrecorded a missing
  · exact pushed

end

theorem undo {change : Change} {rest : List Change} (head : l.changes = change :: rest)
    (undone : l.undo change = .ok l') : Noted { l' with changes := rest } := by
  have shorter (m : Ledger) (noted : Noted m) (changes : m.changes = change :: rest) :
      Noted { m with changes := rest } := by
    refine ⟨noted.present, ?_, ?_⟩
    · intro a member
      exact noted.created a (by rw [changes]; exact List.mem_cons_of_mem _ member)
    · intro a missing
      refine ⟨(noted.unrecorded a missing).1, ?_⟩
      intro c member
      exact (noted.unrecorded a missing).2 c (by rw [changes]; exact List.mem_cons_of_mem _ member)
  cases change with
  | touched a | other =>
    cases undone
    exact shorter l noted head
  | created a prev =>
    cases undone
    cases prev with
    | some x => exact shorter _ (noted.put a x) head
    | none =>
      have absent := noted.created a (by rw [head]; exact List.mem_cons_self)
      refine shorter _ ⟨?_, noted.created, noted.unrecorded⟩ head
      intro b sa found
      have different : b ≠ a := by
        rintro rfl
        have same : some none = some (some sa) := absent.symm.trans found
        cases same
      simp only [Ledger.put, Function.update_of_ne different]
      exact noted.present b sa found
  | edited a edit =>
    rcases undo_edited undone with rfl | ⟨x, -, rfl⟩
    · exact shorter _ (noted.lookUp a) ((lookUp_changes l a).trans head)
    · exact shorter _ ((noted.lookUp a).put a _) ((lookUp_changes l a).trans head)

theorem move (move : Move l l') : Noted l' := by
  cases move with
  | lookUp addr => exact noted.lookUp addr
  | create addr recorded => exact noted.create recorded _
  | read addr x key => exact noted.put addr _
  | edit addr edit x recorded => exact noted.edit recorded edit x
  | touch addr recorded => exact noted.touch recorded
  | undo l' change rest head undone => exact noted.undo head undone
  | revise revisions next => exact ⟨noted.present, noted.created, noted.unrecorded⟩

theorem moves (moves : Moves l l') : Noted l' := by
  induction moves with
  | refl => exact noted
  | tail _ move ih => exact ih.move move

theorem exec {keccak : Bytes → Hash} {op : Op} {value : Value} (looked : l.Looked op)
    (executed : l.exec keccak op = .ok (value, l')) : Noted l' := by
  cases op with
  | createAccount a =>
    cases executed
    exact noted.create looked _
  | _ => exact noted.moves (exec_moves keccak l l' _ value (by trivial) executed)

theorem run {keccak : Bytes → Hash} {ops : List Op} {values : List Value}
    (along : Along (Ledger.exec keccak) Looked l ops)
    (executed : run (Ledger.exec keccak) l ops = .ok (values, l')) : Noted l' :=
  run_along (fun _ _ _ _ looked noted first => noted.exec looked first) noted along executed

end Noted

end Ledger

namespace StateDB

variable {gone : StateObject → Prop} {first : Nat} {s : StateDB} {l : Ledger}

theorem Models.mem_dirties_of_fresh (models : Models (fun _ => False) first s l) (addr : Address) :
    addr ∈ s.journal.dirties.keys ↔
      0 < l.sticky addr + l.marks addr ∨ Change.created addr none ∈ l.changes := by
  rw [models.mem_dirties]
  constructor
  · rintro (positive | created)
    · exact .inl positive
    · exact .inr (models.created_of_entry created)
  · rintro (positive | created)
    · exact .inl positive
    · rcases models.entry_of_created created with entry | ⟨prev, member, marked, -⟩
      · exact .inr entry
      · exact (models.sound.replaced prev member marked).elim

theorem Models.looked (models : Models gone first s l) {op : Op} (looked : s.Looked op) : l.Looked op := by
  have record : l.record = s.researchPreAlloc := by rw [← models.same]; rfl
  cases op with
  | createAccount addr =>
    show l.record.lookup addr ≠ none
    rw [record]
    exact looked
  | _ => trivial

end StateDB

end IDWDetector.State
