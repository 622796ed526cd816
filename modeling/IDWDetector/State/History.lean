import IDWDetector.State.Ledger

namespace IDWDetector.State

variable {x : Account}

def Account.untouched (x : Account) : Account := { x with touched := ∅ }

def Change.addr : Change → Option Address
  | .created addr _ | .edited addr _ | .touched addr => some addr
  | .other => none

@[simp] theorem Edit.undo_touched (edit : Edit) (x : Account) : (edit.undo x).touched = x.touched := by
  cases edit <;> rfl

@[simp] theorem Edit.undo_committed (edit : Edit) (x : Account) : (edit.undo x).committed = x.committed := by
  cases edit <;> rfl

theorem Edit.undo_untouched (edit : Edit) (x : Account) : edit.undo x.untouched = (edit.undo x).untouched := by
  cases edit <;> rfl

/-- The changes, undone one by one, lead from these accounts back to the first
    ones; a created account starts out blank. -/
def Coherent (init : Address → Option Account) : List Change → (Address → Option Account) → Prop
  | [], accounts => accounts = init
  | .created addr prev :: rest, accounts =>
    accounts addr = some (.blank ((prev.map Account.balance).getD 0)) ∧
      Coherent init rest (Function.update accounts addr (prev.map Account.untouched))
  | .edited addr edit :: rest, accounts => ∃ x, accounts addr = some x ∧
      Coherent init rest (Function.update accounts addr (some (edit.undo x)))
  | .touched _ :: rest, accounts => Coherent init rest accounts
  | .other :: rest, accounts => Coherent init rest accounts

namespace Coherent

variable {init accounts : Address → Option Account} {changes : List Change} {addr : Address}

theorem follow {motive : List Change → Option Account → Prop} (addr : Address)
    (start : motive [] (init addr))
    (skip : ∀ change rest x, motive rest x → (∀ prev, change ≠ .created addr prev) →
      (∀ edit, change ≠ .edited addr edit) → motive (change :: rest) x)
    (created : ∀ prev rest, motive rest (prev.map Account.untouched) →
      motive (.created addr prev :: rest) (some (.blank ((prev.map Account.balance).getD 0))))
    (edited : ∀ edit rest x, motive rest (some (Edit.undo edit x)) →
      motive (.edited addr edit :: rest) (some x))
    (coherent : Coherent init changes accounts) : motive changes (accounts addr) := by
  induction changes generalizing accounts with
  | nil =>
    rw [show accounts = init from coherent]
    exact start
  | cons change rest ih =>
    cases change with
    | created other prev =>
      obtain ⟨blank, earlier⟩ := coherent
      have later := ih earlier
      by_cases same : addr = other
      · subst same
        rw [blank]
        exact created prev rest (by simpa using later)
      · rw [Function.update_of_ne same] at later
        exact skip _ rest _ later (by rintro p ⟨⟩; exact same rfl) (by rintro e ⟨⟩)
    | edited other edit =>
      obtain ⟨x, found, earlier⟩ := coherent
      have later := ih earlier
      by_cases same : addr = other
      · subst same
        rw [found]
        exact edited edit rest x (by simpa using later)
      · rw [Function.update_of_ne same] at later
        exact skip _ rest _ later (by rintro p ⟨⟩) (by rintro e ⟨⟩; exact same rfl)
    | touched other =>
      exact skip _ rest _ (ih (show Coherent init rest accounts from coherent))
        (by rintro p ⟨⟩) (by rintro e ⟨⟩)
    | other =>
      exact skip _ rest _ (ih (show Coherent init rest accounts from coherent))
        (by rintro p ⟨⟩) (by rintro e ⟨⟩)

variable (coherent : Coherent init changes accounts)
include coherent

theorem follow_mem {motive : Option Account → Prop} (start : motive (init addr))
    (created : ∀ prev, Change.created addr prev ∈ changes → motive (prev.map Account.untouched) →
      motive (some (.blank ((prev.map Account.balance).getD 0))))
    (edited : ∀ edit x, Change.edited addr edit ∈ changes → motive (some (Edit.undo edit x)) → motive (some x)) :
    motive (accounts addr) := by
  refine follow (motive := fun rest x => rest ⊆ changes → motive x) addr (fun _ => start) ?_ ?_ ?_ coherent
    (List.Subset.refl _)
  · intro change rest x earlier _ _ inside
    exact earlier (List.cons_subset.mp inside).2
  · intro prev rest earlier inside
    obtain ⟨member, inside⟩ := List.cons_subset.mp inside
    exact created prev member (earlier inside)
  · intro edit rest x earlier inside
    obtain ⟨member, inside⟩ := List.cons_subset.mp inside
    exact edited edit x member (earlier inside)

theorem live_of_init (found : init addr ≠ none) : accounts addr ≠ none :=
  coherent.follow_mem (motive := fun x => x ≠ none) found (fun _ _ _ => by simp) fun _ _ _ _ => by simp

theorem created_of_absent (absent : init addr = none) (live : accounts addr ≠ none) :
    Change.created addr none ∈ changes := by
  refine coherent.follow_mem (motive := fun x => x ≠ none → Change.created addr none ∈ changes)
    (fun found => absurd absent found) ?_ ?_ live
  · intro prev member earlier _
    cases prev with
    | none => exact member
    | some x => exact earlier (by simp)
  · intro edit x _ earlier _
    exact earlier (by simp)

theorem absent_of_created (member : Change.created addr none ∈ changes) : init addr = none := by
  by_contra found
  refine follow (motive := fun changes x => (x ≠ none ∧ Change.created addr none ∉ changes)) addr
    ⟨found, by simp⟩ ?_ ?_ ?_ coherent |>.2 member
  · intro change rest x earlier different _
    refine ⟨earlier.1, ?_⟩
    rw [List.mem_cons, not_or]
    exact ⟨fun same => different none same.symm, earlier.2⟩
  · intro prev rest earlier
    refine ⟨by simp, ?_⟩
    rw [List.mem_cons, not_or]
    refine ⟨?_, earlier.2⟩
    rintro ⟨⟩
    exact earlier.1 rfl
  · intro edit rest x earlier
    refine ⟨by simp, ?_⟩
    rw [List.mem_cons, not_or]
    exact ⟨by rintro ⟨⟩, earlier.2⟩

theorem of_unedited {motive : Account → Prop} (start : ∀ y, init addr = some y → motive y)
    (blank : ∀ prev : Option Account, (∀ y, prev = some y → motive y.untouched) →
      motive (.blank ((prev.map Account.balance).getD 0))) (unedited : ∀ edit, Change.edited addr edit ∉ changes)
    (found : accounts addr = some x) : motive x := by
  refine coherent.follow_mem (motive := fun x => ∀ y, x = some y → motive y) start ?_ ?_ x found
  · rintro prev - earlier y ⟨⟩
    exact blank prev fun y same => earlier _ (by rw [same]; rfl)
  · intro edit x member
    exact absurd member (unedited edit)

theorem blank_of_unedited (absent : init addr = none) (unedited : ∀ edit, Change.edited addr edit ∉ changes)
    (found : accounts addr = some x) : x = .blank 0 := by
  refine coherent.of_unedited (motive := fun x => x = .blank 0) (by simp [absent]) ?_ unedited found
  intro prev earlier
  cases prev with
  | none => rfl
  | some p =>
    have zero : p.balance = 0 := congrArg Account.balance (earlier p rfl)
    simp [zero]

theorem committed_cases (found : accounts addr = some x) :
    (∀ key, x.committed key = 0) ∨ ∃ y, init addr = some y ∧ x.committed = y.committed := by
  refine coherent.follow_mem (motive := fun x => ∀ y, x = some y → (∀ key, y.committed key = 0) ∨
    ∃ z, init addr = some z ∧ y.committed = z.committed) (fun y same => .inr ⟨y, same, rfl⟩) ?_ ?_ x found
  · rintro prev - - y ⟨⟩
    exact .inl fun _ => rfl
  · rintro edit x - earlier y ⟨⟩
    simpa using earlier _ rfl

theorem committed_of_uncreated (start : init addr = some x) (uncreated : ∀ prev, Change.created addr prev ∉ changes) :
    ∃ y, accounts addr = some y ∧ y.committed = x.committed := by
  refine coherent.follow_mem (motive := fun y => ∃ z, y = some z ∧ z.committed = x.committed) ⟨x, start, rfl⟩ ?_ ?_
  · intro prev member
    exact absurd member (uncreated prev)
  · rintro edit y - ⟨z, ⟨⟩, committed⟩
    exact ⟨y, rfl, by simpa using committed⟩

theorem unchanged (none : ∀ change ∈ changes, change.addr ≠ some addr) : accounts addr = init addr := by
  refine coherent.follow_mem (motive := fun x => x = init addr) rfl ?_ ?_
  · intro prev member
    exact absurd rfl (none _ member)
  · intro edit x member
    exact absurd rfl (none _ member)

end Coherent

namespace Ledger

def bare (l : Ledger) : Address → Option Account := fun addr => (l.accounts addr).map Account.untouched

theorem bare_put (l : Ledger) (addr : Address) (x : Option Account) :
    (l.put addr x).bare = Function.update l.bare addr (x.map Account.untouched) := by
  funext a
  by_cases same : a = addr
  · subst same
    simp [bare, put]
  · simp [bare, put, same]

variable {addr : Address}

theorem bare_update_self {l : Ledger} {x : Option Account} (found : l.accounts addr = x) :
    Function.update l.bare addr (x.map Account.untouched) = l.bare := by
  rw [← found]
  exact Function.update_eq_self addr l.bare

/-- What holds along a transaction of the accounts it started with. An account
    that had a storage is never replaced. -/
structure Tracks (init : Address → Option Account) (l : Ledger) : Prop where
  coherent : Coherent init l.changes l.bare
  unrecorded : ∀ addr, l.record.lookup addr = none →
    l.sticky addr = 0 ∧ ∀ change ∈ l.changes, change.addr ≠ some addr
  recorded : ∀ addr entry, l.record.lookup addr = some entry → entry = (init addr).map Account.info
  kept : ∀ addr prev x, Change.created addr prev ∈ l.changes → init addr = some x → ∀ key, x.committed key = 0
  sticky : ∀ addr, 0 ≤ l.sticky addr

theorem info_bare (l : Ledger) (addr : Address) :
    (l.accounts addr).map Account.info = (l.bare addr).map Account.info := by
  unfold bare
  cases l.accounts addr <;> rfl

variable {init : Address → Option Account} {l l' : Ledger}

section

variable (tracks : Tracks init l)
include tracks

theorem Tracks.lookUp (addr : Address) : Tracks init (l.lookUp addr) := by
  unfold Ledger.lookUp
  split
  · exact tracks
  · rename_i absent
    have away := tracks.unrecorded addr absent
    have same : l.bare addr = init addr := tracks.coherent.unchanged away.2
    refine ⟨tracks.coherent, ?_, ?_, tracks.kept, tracks.sticky⟩
    · intro a missing
      apply tracks.unrecorded a
      simp only [Go.Map.lookup_set] at missing
      split at missing
      · cases missing
      · exact missing
    · intro a entry found
      rcases Go.Map.of_lookup_set found with ⟨rfl, rfl⟩ | found
      · rw [info_bare, same]
      · exact tracks.recorded a entry found

theorem Tracks.push_put {change : Change} (recorded : l.record.lookup addr ≠ none) (about : change.addr = some addr)
    (coherent : Coherent init (change :: l.changes) ((l.push change).put addr (some x)).bare)
    (kept : ∀ prev y, change = .created addr prev → init addr = some y → ∀ key, y.committed key = 0) :
    Tracks init ((l.push change).put addr (some x)) := by
  refine ⟨coherent, ?_, tracks.recorded, ?_, tracks.sticky⟩
  · intro a missing
    refine ⟨(tracks.unrecorded a missing).1, ?_⟩
    intro c member
    rcases List.mem_cons.mp member with rfl | member
    · intro same
      rw [about] at same
      cases same
      exact recorded missing
    · exact (tracks.unrecorded a missing).2 c member
  · intro a prev y member start
    rcases List.mem_cons.mp member with same | member
    · subst same
      cases about
      exact kept prev y rfl start
    · exact tracks.kept a prev y member start

theorem Tracks.create (recorded : l.record.lookup addr ≠ none)
    (clear : ∀ x, l.accounts addr = some x → ∀ key, x.committed key = 0) :
    Tracks init (l.create addr (l.balanceOf addr)) := by
  refine tracks.push_put recorded rfl ⟨?_, ?_⟩ ?_
  · simp only [bare_put, Function.update_self]
    rfl
  · rw [bare_put, Function.update_idem]
    have same : Function.update (l.push (.created addr (l.accounts addr))).bare addr
        ((l.accounts addr).map Account.untouched) = l.bare := bare_update_self (l := l) rfl
    rw [same]
    exact tracks.coherent
  · intro prev y _ start
    by_cases created : ∃ p, Change.created addr p ∈ l.changes
    · obtain ⟨p, member⟩ := created
      exact tracks.kept addr p y member start
    · obtain ⟨z, found, committed⟩ := tracks.coherent.committed_of_uncreated start
        fun p member => created ⟨p, member⟩
      obtain ⟨w, live, rfl⟩ := Option.map_eq_some_iff.mp found
      intro key
      rw [← committed]
      exact clear w live key

theorem Tracks.read (key : Hash) (found : l.accounts addr = some x) :
    Tracks init (l.put addr (some (x.touch key))) := by
  have same : (l.put addr (some (x.touch key))).bare = l.bare := by
    rw [bare_put]
    exact bare_update_self (x := some x) found
  refine ⟨?_, tracks.unrecorded, tracks.recorded, tracks.kept, tracks.sticky⟩
  rw [same]
  exact tracks.coherent

theorem Tracks.edit {edit : Edit} (recorded : l.record.lookup addr ≠ none)
    (found : l.accounts addr = some (edit.undo x)) :
    Tracks init (l.edit addr edit x) := by
  refine tracks.push_put recorded rfl ⟨x.untouched, ?_, ?_⟩ (by rintro prev y ⟨⟩)
  · simp only [bare_put, Function.update_self]
    rfl
  · rw [bare_put, Function.update_idem, Edit.undo_untouched]
    have same : Function.update (l.push (.edited addr edit)).bare addr
        (some (edit.undo x).untouched) = l.bare := bare_update_self (l := l) found
    rw [same]
    exact tracks.coherent

theorem Tracks.touch (recorded : l.record.lookup addr ≠ none) : Tracks init (l.touch addr) := by
  have away : ∀ a, l.record.lookup a = none → a ≠ addr := by
    intro a missing same
    subst same
    exact recorded missing
  have pushed : Tracks init (l.push (.touched addr)) := by
    refine ⟨tracks.coherent, ?_, tracks.recorded, ?_, tracks.sticky⟩
    · intro a missing
      refine ⟨(tracks.unrecorded a missing).1, ?_⟩
      intro c member
      rcases List.mem_cons.mp member with rfl | member
      · intro same
        cases same
        exact recorded missing
      · exact (tracks.unrecorded a missing).2 c member
    · intro a prev x member start
      rcases List.mem_cons.mp member with same | member
      · cases same
      · exact tracks.kept a prev x member start
  unfold Ledger.touch
  simp only
  split
  · refine ⟨pushed.coherent, ?_, pushed.recorded, pushed.kept, ?_⟩
    · intro a missing
      simp only [Function.update_of_ne (away a missing)]
      exact pushed.unrecorded a missing
    · intro a
      by_cases same : a = addr
      · subst same
        simp only [Function.update_self]
        have := pushed.sticky a
        omega
      · simp only [Function.update_of_ne same]
        exact pushed.sticky a
  · exact pushed

theorem Tracks.undo {change : Change} {rest : List Change} (head : l.changes = change :: rest)
    (undone : l.undo change = .ok l') :
    Tracks init { l' with changes := rest } := by
  have coherent := tracks.coherent
  rw [head] at coherent
  have shorter : ∀ c ∈ rest, c ∈ l.changes := fun c member => head ▸ List.mem_cons_of_mem _ member
  -- what remains of the invariant once the accounts are known to be coherent
  have rebuild (m : Ledger) (record : m.record = l.record) (marks : m.sticky = l.sticky)
      (same : Coherent init rest m.bare) : Tracks init { m with changes := rest } := by
    refine ⟨same, ?_, ?_, ?_, ?_⟩
    · intro a missing
      rw [record] at missing
      obtain ⟨zero, away⟩ := tracks.unrecorded a missing
      refine ⟨?_, fun c member => away c (shorter c member)⟩
      rw [← zero, ← marks]
    · intro a entry found
      rw [record] at found
      exact tracks.recorded a entry found
    · intro a prev x member start
      exact tracks.kept a prev x (shorter _ member) start
    · intro a
      rw [marks]
      exact tracks.sticky a
  cases change with
  | created addr prev =>
    cases undone
    refine rebuild (l.put addr prev) rfl rfl ?_
    rw [bare_put]
    exact coherent.2
  | touched addr =>
    cases undone
    exact rebuild l rfl rfl coherent
  | other =>
    cases undone
    exact rebuild l rfl rfl coherent
  | edited addr edit =>
    obtain ⟨x, found, earlier⟩ := coherent
    obtain ⟨y, live, rfl⟩ := Option.map_eq_some_iff.mp found
    have recorded : l.record.lookup addr ≠ none := by
      intro missing
      exact (tracks.unrecorded addr missing).2 _ (by rw [head]; exact List.mem_cons_self) rfl
    have looked : l.lookUp addr = l := by
      unfold Ledger.lookUp
      split
      · rfl
      · rename_i missing
        exact absurd missing recorded
    simp only [Ledger.undo, live, looked] at undone
    cases undone
    refine rebuild (l.put addr (some (edit.undo y))) rfl rfl ?_
    rw [bare_put]
    rw [Edit.undo_untouched] at earlier
    exact earlier

theorem Tracks.move (move : Move l l') : Tracks init l' := by
  cases move with
  | lookUp addr => exact tracks.lookUp addr
  | create addr recorded clear => exact tracks.create recorded clear
  | read addr x key recorded found => exact tracks.read key found
  | edit addr edit x recorded found => exact tracks.edit recorded found
  | touch addr recorded => exact tracks.touch recorded
  | undo middle change rest head undone => exact tracks.undo head undone
  | revise revisions next =>
    exact ⟨tracks.coherent, tracks.unrecorded, tracks.recorded, tracks.kept, tracks.sticky⟩

theorem Tracks.moves (moves : Moves l l') : Tracks init l' := by
  induction moves with
  | refl => exact tracks
  | tail _ move ih => exact ih.move move

end

theorem bare_ne_none : l.bare addr ≠ none ↔ l.accounts addr ≠ none := by
  unfold bare
  simp

theorem Tracks.live (tracks : Tracks init l) (start : init addr ≠ none) : l.accounts addr ≠ none :=
  bare_ne_none.mp (tracks.coherent.live_of_init start)

theorem record_mono (move : Move l l') (recorded : l.record.lookup addr ≠ none) : l'.record.lookup addr ≠ none := by
  have looked (a : Address) : (l.lookUp a).record.lookup addr ≠ none := by
    unfold lookUp
    split
    · exact recorded
    · simp only [Go.Map.lookup_set]
      split
      · simp
      · exact recorded
  cases move with
  | lookUp a => exact looked a
  | create | read | edit | revise => exact recorded
  | touch a =>
    unfold touch
    simp only
    split <;> exact recorded
  | undo middle change rest head undone =>
    cases change with
    | created | touched | other => cases undone; exact recorded
    | edited a edit =>
      rcases undo_edited undone with rfl | ⟨x, -, rfl⟩
      · exact looked a
      · exact looked a

def touchedAt (l : Ledger) (addr : Address) : Finset Hash := ((l.accounts addr).map Account.touched).getD ∅

theorem touchedAt_put (l : Ledger) (addr a : Address) (x : Option Account) :
    (l.put addr x).touchedAt a = if a = addr then (x.map Account.touched).getD ∅ else l.touchedAt a := by
  by_cases same : a = addr
  · subst same
    simp [touchedAt, put]
  · simp [touchedAt, put, same]

theorem touchedAt_mono (tracks : Tracks init l) (move : Move l l') {slot : Hash} (start : init addr = some x)
    (stored : x.committed slot ≠ 0) :
    l.touchedAt addr ⊆ l'.touchedAt addr := by
  have uncreated (prev : Option Account) {m : Ledger} (later : Tracks init m) :
      Change.created addr prev ∉ m.changes :=
    fun member => stored (later.kept addr prev x member start slot)
  have after := tracks.move move
  cases move with
  | lookUp a => simp [touchedAt]
  | create a =>
    have different : addr ≠ a := by
      intro same
      subst same
      exact uncreated _ after List.mem_cons_self
    simp only [create, touchedAt_put, if_neg different]
    exact subset_rfl
  | read a y key recorded found =>
    rw [touchedAt_put]
    split_ifs with same
    · subst same
      simp [touchedAt, found, Account.touch]
    · exact subset_rfl
  | edit a edit y recorded found =>
    simp only [Ledger.edit, touchedAt_put]
    split_ifs with same
    · subst same
      simp [touchedAt, found]
    · exact subset_rfl
  | touch a =>
    unfold touch
    simp only
    split <;> exact subset_rfl
  | revise => exact subset_rfl
  | undo middle change rest head undone =>
    cases change with
    | touched | other => cases undone; exact subset_rfl
    | created a prev =>
      cases undone
      have different : addr ≠ a := by
        intro same
        subst same
        exact uncreated prev tracks (by rw [head]; exact List.mem_cons_self)
      show _ ⊆ (l.put a prev).touchedAt addr
      rw [touchedAt_put, if_neg different]
    | edited a edit =>
      rcases undo_edited undone with rfl | ⟨y, found, rfl⟩
      · show _ ⊆ (l.lookUp a).touchedAt addr
        simp [touchedAt]
      · show _ ⊆ ((l.lookUp a).put a (some (edit.undo y))).touchedAt addr
        rw [touchedAt_put]
        split_ifs with same
        · subst same
          simp [touchedAt, found]
        · simp [touchedAt]

theorem Moves.record_mono (moves : Moves l l') (recorded : l.record.lookup addr ≠ none) :
    l'.record.lookup addr ≠ none := by
  induction moves with
  | refl => exact recorded
  | tail _ move ih => exact Ledger.record_mono move ih

theorem Moves.touchedAt_mono (moves : Moves l l') (tracks : Tracks init l) {slot : Hash} (start : init addr = some x)
    (stored : x.committed slot ≠ 0) :
    l.touchedAt addr ⊆ l'.touchedAt addr := by
  induction moves with
  | refl => exact subset_rfl
  | tail earlier move ih => exact ih.trans (Ledger.touchedAt_mono (tracks.moves earlier) move start stored)

/-- Whatever was changed was looked up first, and what was there then is still there. -/
structure Noted (l : Ledger) : Prop where
  present : ∀ addr sa, l.record.lookup addr = some (some sa) → l.accounts addr ≠ none
  created : ∀ addr, Change.created addr none ∈ l.changes → l.record.lookup addr = some none
  unrecorded : ∀ addr, l.record.lookup addr = none →
    l.sticky addr = 0 ∧ ∀ change ∈ l.changes, change.addr ≠ some addr

theorem Tracks.noted (tracks : Tracks init l) : Noted l := by
  refine ⟨?_, ?_, tracks.unrecorded⟩
  · intro addr sa found
    apply tracks.live
    intro absent
    have entry := tracks.recorded addr _ found
    rw [absent] at entry
    cases entry
  · intro addr member
    have recorded : l.record.lookup addr ≠ none := fun missing => (tracks.unrecorded addr missing).2 _ member rfl
    obtain ⟨entry, found⟩ := Option.ne_none_iff_exists'.mp recorded
    rw [found, tracks.recorded addr entry found, tracks.coherent.absent_of_created member]
    rfl

end Ledger

end IDWDetector.State
