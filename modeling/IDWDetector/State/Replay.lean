import IDWDetector.State.Agreement
import IDWDetector.State.OffTheChain

namespace IDWDetector.State

open Machine

variable {x : Account} {l : Ledger}

def Account.rebuilt (sa : SubstateAccount) : Account where
  nonce := sa.nonce
  balance := sa.balance
  code := sa.code
  suicided := false
  touched := ∅
  committed := fun key => sa.storage.getD key 0
  current := fun key => sa.storage.getD key 0

namespace Account.Agree

variable {slots : Set Hash} {y : Account} (agree : Account.Agree slots x y)
include agree

theorem pre_eq (visible : ∀ key ∈ x.touched, key ∈ slots) (sa : SubstateAccount) : x.pre sa = y.pre sa := by
  have storage : (sa.storage.overwrite x.touched fun key => some (x.committed key)) =
      sa.storage.overwrite y.touched fun key => some (y.committed key) := by
    apply Go.Map.ext
    intro key
    simp only [Go.Map.lookup_overwrite, ← agree.touched]
    split_ifs with member
    · rw [agree.committed key (visible key member)]
    · rfl
  simp only [Account.pre, storage]

theorem post_eq (visible : ∀ key ∈ x.touched, key ∈ slots) : x.post = y.post := by
  have storage : StateDB.slotValues x.touched x.current = StateDB.slotValues y.touched y.current := by
    apply Go.Map.ext
    intro key
    simp only [StateDB.slotValues, Go.Map.lookup_overwrite, ← agree.touched]
    split_ifs with member
    · rw [agree.current key (visible key member)]
    · rfl
  simp only [Account.post, agree.info, storage]

theorem deletes_eq (keccak : Bytes → Hash) (deleteEmptyObjects : Bool) :
    x.deletes keccak deleteEmptyObjects = y.deletes keccak deleteEmptyObjects := by
  unfold Account.deletes
  rw [agree.suicided, agree.empty keccak]

end Account.Agree

def Change.marks (addr : Address) : Change → Bool
  | .edited a _ | .touched a => decide (a = addr)
  | .created _ _ | .other => false

namespace Ledger

def marks (l : Ledger) (addr : Address) : Nat := l.changes.countP (Change.marks addr)

theorem Agree.marks_eq {scope : Set Address} {slots : Address → Set Hash} {m : Ledger} (agree : Agree scope slots l m)
    (addr : Address) : l.marks addr = m.marks addr := by
  unfold marks
  have related := agree.changes
  revert related
  generalize l.changes = left, m.changes = right
  intro related
  induction related with
  | nil => rfl
  | cons head tail ih =>
    rw [List.countP_cons, List.countP_cons, ih]
    cases head <;> rfl

theorem Agree.created_none_iff {scope : Set Address} {slots : Address → Set Hash} {m : Ledger}
    (agree : Agree scope slots l m) (addr : Address) :
    Change.created addr none ∈ l.changes ↔ Change.created addr none ∈ m.changes := by
  have related := agree.changes
  revert related
  generalize l.changes = left, m.changes = right
  intro related
  induction related with
  | nil => rfl
  | cons head tail ih =>
    rw [List.mem_cons, List.mem_cons]
    refine or_congr ?_ ih
    cases head with
    | created a p q same =>
      cases same with
      | none => rfl
      | some => simp
    | edited | touched | other => simp

structure Fresh (l : Ledger) : Prop where
  changes : l.changes = []
  sticky : l.sticky = fun _ => 0
  record : l.record = .empty
  revisions : l.revisions = []
  next : l.next = 0
  touched : ∀ addr x, l.accounts addr = some x → x.touched = ∅
  alive : ∀ addr x, l.accounts addr = some x → x.suicided = false
  clean : ∀ addr x, l.accounts addr = some x → x.current = x.committed

theorem Fresh.tracks (fresh : Fresh l) : Tracks l.accounts l := by
  constructor
  · rw [fresh.changes]
    show l.bare = l.accounts
    funext addr
    unfold bare
    cases found : l.accounts addr with
    | none => rfl
    | some x =>
      have untouched := fresh.touched addr x found
      obtain ⟨⟩ := x
      simp only at untouched
      subst untouched
      rfl
  · intro addr _
    rw [fresh.sticky, fresh.changes]
    simp
  · intro addr entry found
    rw [fresh.record] at found
    cases found
  · intro addr prev x member
    rw [fresh.changes] at member
    cases member
  · intro addr
    rw [fresh.sticky]

/-- The transaction of which `ResearchPreAlloc` was recorded, and the ledger that a
    replay starts with. -/
structure Recorded (keccak : Bytes → Hash) (ops : List Op) (values : List Value) (init final replay : Ledger) :
    Prop where
  fresh : Fresh init
  along : Machine.Along (Ledger.exec keccak) Creatable init ops
  executed : Machine.run (Ledger.exec keccak) init ops = .ok (values, final)
  before : readBefore [] ops = true
  fresh' : Fresh replay
  rebuilt : ∀ addr, replay.accounts addr = (final.preAccount addr).map Account.rebuilt

namespace Recorded

variable {keccak : Bytes → Hash} {ops : List Op} {values : List Value} {init final replay : Ledger}

def scope (final : Ledger) : Set Address := fun addr => final.record.lookup addr ≠ none

def slots (init replay : Ledger) (addr : Address) : Set Hash := fun key =>
  ∀ x y, init.accounts addr = some x → replay.accounts addr = some y → x.committed key = y.committed key

theorem tracks (recorded : Recorded keccak ops values init final replay) : Tracks init.accounts final :=
  recorded.fresh.tracks.moves (run_moves recorded.along recorded.executed)

variable {addr : Address}

theorem rebuilt_of_absent (recorded : Recorded keccak ops values init final replay)
    (absent : init.accounts addr = none) : replay.accounts addr = none := by
  rw [recorded.rebuilt]
  unfold preAccount
  cases entry : final.record.lookup addr with
  | none => rfl
  | some found =>
    have info := recorded.tracks.recorded addr found entry
    rw [absent] at info
    rw [info]
    rfl

theorem rebuilt_of_present (recorded : Recorded keccak ops values init final replay) (used : addr ∈ scope final)
    (found : init.accounts addr = some x) :
    ∃ last, final.accounts addr = some last ∧ replay.accounts addr = some (.rebuilt (last.pre x.info)) := by
  obtain ⟨entry, looked⟩ := Option.ne_none_iff_exists'.mp used
  have info := recorded.tracks.recorded addr entry looked
  rw [found] at info
  have live : final.accounts addr ≠ none := recorded.tracks.live (by rw [found]; simp)
  obtain ⟨last, present⟩ := Option.ne_none_iff_exists'.mp live
  refine ⟨last, present, ?_⟩
  rw [recorded.rebuilt]
  unfold preAccount
  rw [looked, info, present]
  rfl

theorem committed_pre (last x : Account) (key : Hash) :
    (Account.rebuilt (last.pre x.info)).committed key = if key ∈ last.touched then last.committed key else 0 := by
  simp only [Account.rebuilt, Account.pre, Account.info, newSubstateAccount, Go.Map.getD, Go.Map.lookup_overwrite]
  split <;> rfl

section

variable (recorded : Recorded keccak ops values init final replay)
include recorded

theorem visible {key : Hash} (used : addr ∈ scope final)
    (touched : ∀ x slot, init.accounts addr = some x → x.committed slot ≠ 0 → key ∈ final.touchedAt addr) :
    key ∈ slots init replay addr := by
  intro x y start rebuilt
  obtain ⟨last, present, same⟩ := recorded.rebuilt_of_present used start
  rw [rebuilt] at same
  cases same
  have bare : final.bare addr = some last.untouched := by simp [Ledger.bare, present]
  rw [committed_pre]
  by_cases stored : ∃ slot, x.committed slot ≠ 0
  · obtain ⟨slot, nonzero⟩ := stored
    have member := touched x slot start nonzero
    have inside : key ∈ last.touched := by simpa [touchedAt, present] using member
    obtain ⟨y, found, committed⟩ := recorded.tracks.coherent.committed_of_uncreated start
      fun prev created => nonzero (recorded.tracks.kept addr prev x created start slot)
    rw [bare] at found
    cases found
    rw [if_pos inside, ← committed]
    rfl
  · have zero : ∀ slot, x.committed slot = 0 := fun slot => not_not.mp fun nonzero => stored ⟨slot, nonzero⟩
    have last_zero : last.committed key = 0 := by
      rcases recorded.tracks.coherent.committed_cases bare with empty | ⟨y, found, committed⟩
      · exact empty key
      · rw [start] at found
        cases found
        rw [← zero key, ← committed]
        rfl
    rw [zero, last_zero]
    simp

theorem agree : Agree (scope final) (slots init replay) init replay := by
  refine ⟨?_, ?_, ?_, ?_, ?_, ?_⟩
  · intro addr used
    cases start : init.accounts addr with
    | none =>
      rw [recorded.rebuilt_of_absent start]
      exact .none
    | some x =>
      obtain ⟨last, present, rebuilt⟩ := recorded.rebuilt_of_present used start
      rw [rebuilt]
      refine .some ⟨rfl, rfl, rfl, recorded.fresh.alive addr x start, recorded.fresh.touched addr x start, ?_, ?_⟩
      · intro key member
        exact member x _ start rebuilt
      · intro key member
        rw [recorded.fresh.clean addr x start]
        exact member x _ start rebuilt
  · rw [recorded.fresh.changes, recorded.fresh'.changes]
    exact .nil
  · rw [recorded.fresh.sticky, recorded.fresh'.sticky]
  · rw [recorded.fresh.record, recorded.fresh'.record]
  · rw [recorded.fresh.revisions, recorded.fresh'.revisions]
  · rw [recorded.fresh.next, recorded.fresh'.next]

theorem within {op : Op} (member : op ∈ ops) : op.Within (scope final) (slots init replay) := by
  have covers := fun {op : Op} (inside : op ∈ ops) =>
    run_covers recorded.fresh.tracks recorded.along recorded.executed inside
  have used : ∀ addr, op.addr = some addr → addr ∈ scope final := (covers member).1
  refine ⟨used, ?_⟩
  intro addr key about
  have inside : addr ∈ scope final := used addr (by cases op <;> cases about <;> rfl)
  apply recorded.visible inside
  intro x slot start nonzero
  by_cases committed : op = .getCommittedState addr key
  · subst committed
    have read : Op.getState addr key ∈ ops :=
      (getState_mem_of_readBefore recorded.before member).resolve_left (by simp)
    exact (covers read).2 addr key x slot rfl (by rintro ⟨⟩) start nonzero
  · exact (covers member).2 addr key x slot about committed start nonzero

theorem replays :
    ∃ last, run (Ledger.exec keccak) replay ops = .ok (values, last) ∧
      Agree (scope final) (slots init replay) final last := by
  have along : Along (Ledger.exec keccak)
      (fun _ (op : Op) => op.Within (scope final) (slots init replay)) init ops :=
    Along.of_forall (fun op member _ => recorded.within member) init
  have step (l m : Ledger) (op : Op) (related : Agree (scope final) (slots init replay) l m)
      (inside : op.Within (scope final) (slots init replay)) :
      Agrees (Agree (scope final) (slots init replay)) (l.exec keccak op) (m.exec keccak op) :=
    related.exec keccak inside
  have agrees := run_agrees step recorded.agree along
  obtain ⟨⟨values', last⟩, executed, same, related⟩ := agrees.ok recorded.executed
  cases same
  exact ⟨last, executed, related⟩

end

theorem marks_eq_zero (away : ∀ change ∈ l.changes, change.addr ≠ some addr) : l.marks addr = 0 := by
  unfold marks
  rw [List.countP_eq_zero]
  intro change member marked
  apply away change member
  cases change <;> simp_all [Change.marks, Change.addr]

variable (recorded : Recorded keccak ops values init final replay)
include recorded

theorem touched_visible (used : addr ∈ scope final) (found : final.accounts addr = some x) :
    ∀ key ∈ x.touched, key ∈ slots init replay addr := by
  intro key member
  apply recorded.visible used
  intro _ _ _ _
  simpa [touchedAt, found] using member

theorem preAccount_eq {last : Ledger} (related : Agree (scope final) (slots init replay) final last) (addr : Address) :
    final.preAccount addr = last.preAccount addr := by
  unfold preAccount
  rw [← related.record]
  cases entry : final.record.lookup addr with
  | none => rfl
  | some found =>
    have used : addr ∈ scope final := by
      intro missing
      rw [entry] at missing
      cases missing
    cases found with
    | none => rfl
    | some sa =>
      have rel := related.accounts addr used
      cases left : final.accounts addr <;> cases right : last.accounts addr <;> rw [left, right] at rel
      · cases rel
      · cases rel
      · cases rel with
        | some same =>
          simp only [Option.join_some, Option.bind_some, Option.map_some]
          rw [same.pre_eq (recorded.touched_visible used left)]

theorem deletes_of_unmarked (absent : init.accounts addr = none) (found : final.accounts addr = some x)
    (unmarked : final.marks addr = 0) :
    x.deletes keccak true = true := by
  have unedited : ∀ edit, Change.edited addr edit ∉ final.changes := by
    intro edit member
    have := (List.countP_eq_zero.mp unmarked) _ member
    simp [Change.marks] at this
  have bare : final.bare addr = some x.untouched := by simp [Ledger.bare, found]
  have blank := recorded.tracks.coherent.blank_of_unedited absent unedited bare
  have nonce : x.nonce = 0 := congrArg Account.nonce blank
  have balance : x.balance = 0 := congrArg Account.balance blank
  have code : x.code = [] := congrArg Account.code blank
  simp [Account.deletes, Account.empty, nonce, balance, code]

theorem postAccount_eq {last : Ledger} (related : Agree (scope final) (slots init replay) final last)
    {deleteEmptyObjects : Bool} {dirty dirty' : Bool}
    (marked : dirty = true → 0 < final.sticky addr + final.marks addr ∨ Change.created addr none ∈ final.changes)
    (marks : 0 < final.sticky addr + final.marks addr → dirty = true)
    (marked' : dirty' = true ↔ 0 < last.sticky addr + last.marks addr ∨ Change.created addr none ∈ last.changes)
    (redirtied : deleteEmptyObjects = false → Change.created addr none ∈ final.changes → dirty = true) :
    final.postAccount keccak deleteEmptyObjects addr dirty =
      last.postAccount keccak deleteEmptyObjects addr dirty' := by
  have pre := recorded.preAccount_eq related addr
  rw [← related.sticky, ← related.marks_eq, ← related.created_none_iff] at marked'
  by_cases used : addr ∈ scope final
  · have rel := related.accounts addr used
    cases left : final.accounts addr <;> cases right : last.accounts addr <;> rw [left, right] at rel
    · have none : final.preAccount addr = none := by
        unfold preAccount
        rw [left]
        cases (final.record.lookup addr).join <;> rfl
      unfold postAccount
      rw [← pre, none, left, right]
      cases dirty <;> cases dirty' <;> rfl
    · cases rel
    · cases rel
    · rename_i x y
      cases rel with
      | some same =>
        have posts : (final.accounts addr).bind (fun x =>
            if x.deletes keccak deleteEmptyObjects then none else some x.post) =
            (last.accounts addr).bind fun x =>
              if x.deletes keccak deleteEmptyObjects then none else some x.post := by
          rw [left, right, Option.bind_some, Option.bind_some, same.deletes_eq,
            same.post_eq (recorded.touched_visible used left)]
        unfold postAccount
        rw [← posts, ← pre]
        cases start : init.accounts addr with
        | some x₀ =>
          have uncreated : Change.created addr none ∉ final.changes := by
            intro member
            have absent := recorded.tracks.coherent.absent_of_created member
            rw [start] at absent
            cases absent
          have equal : dirty = dirty' := by
            rw [Bool.eq_iff_iff, marked']
            constructor
            · exact marked
            · intro either
              exact marks (either.resolve_right uncreated)
          rw [equal]
        | none =>
          have created : Change.created addr none ∈ final.changes := by
            apply recorded.tracks.coherent.created_of_absent start
            rw [bare_ne_none, left]
            simp
          have replayed : dirty' = true := marked'.mpr (.inr created)
          rw [replayed]
          cases marked : dirty with
          | true => rfl
          | false =>
            have flag : deleteEmptyObjects = true := by
              cases deleteEmptyObjects with
              | true => rfl
              | false => rw [redirtied rfl created] at marked; cases marked
            have unmarked : final.marks addr = 0 := by
              have nonneg := recorded.tracks.sticky addr
              by_contra nonzero
              have positive := marks (by omega)
              rw [marked] at positive
              cases positive
            have deleted := recorded.deletes_of_unmarked start left unmarked
            have none : final.preAccount addr = none := by
              obtain ⟨entry, looked⟩ := Option.ne_none_iff_exists'.mp used
              have info := recorded.tracks.recorded addr entry looked
              rw [start] at info
              unfold preAccount
              rw [looked, info]
              rfl
            rw [none, left, flag]
            simp [deleted]
  · have missing : final.record.lookup addr = none := not_not.mp used
    obtain ⟨sticky, away⟩ := recorded.tracks.unrecorded addr missing
    have unmarked := marks_eq_zero away
    have uncreated : Change.created addr none ∉ final.changes := fun member => away _ member rfl
    have clean : ¬ (0 < final.sticky addr + final.marks addr ∨ Change.created addr none ∈ final.changes) := by
      rintro (positive | member)
      · omega
      · exact uncreated member
    have first : dirty = false := by
      cases held : dirty with
      | false => rfl
      | true => exact absurd (marked held) clean
    have second : dirty' = false := by
      cases held : dirty' with
      | false => rfl
      | true => exact absurd (marked'.mp held) clean
    unfold postAccount
    rw [first, second, pre]
    rfl

end Recorded

end Ledger

end IDWDetector.State
