import IDWDetector.State.Noted

namespace IDWDetector.State

open Machine

def slotsOf (ops : List Op) (addr : Address) : Finset Hash :=
  (ops.filterMap fun op => op.slot.bind fun slot => if slot.1 = addr then some slot.2 else none).toFinset

def lookedUp (ops : List Op) : List Address := ops.filterMap Op.addr

theorem mem_slotsOf {ops : List Op} {addr : Address} {key : Hash} :
    key ∈ slotsOf ops addr ↔ ∃ op ∈ ops, op.slot = some (addr, key) := by
  unfold slotsOf
  rw [List.mem_toFinset, List.mem_filterMap]
  constructor
  · rintro ⟨op, member, found⟩
    obtain ⟨⟨a, k⟩, slot, same⟩ := Option.bind_eq_some_iff.mp found
    split at same
    · rename_i equal
      cases same
      cases equal
      exact ⟨op, member, slot⟩
    · cases same
  · rintro ⟨op, member, slot⟩
    refine ⟨op, member, ?_⟩
    rw [slot]
    simp

def Op.see (op : Op) (seen : Address → Finset Hash) : Address → Finset Hash :=
  match op.slot with
  | some (addr, key) => Function.update seen addr (insert key (seen addr))
  | none => seen

theorem slotsOf_cons (op : Op) (past : List Op) : slotsOf (op :: past) = op.see (slotsOf past) := by
  funext addr
  ext key
  rw [mem_slotsOf, List.exists_mem_cons_iff, ← mem_slotsOf]
  unfold Op.see
  cases slot : op.slot with
  | none => simp
  | some place =>
    obtain ⟨a, k⟩ := place
    by_cases same : addr = a
    · subst same
      simp only [Function.update_self, Finset.mem_insert, Option.some.injEq, Prod.mk.injEq, true_and]
      rw [eq_comm]
    · simp [Function.update_of_ne same, Ne.symm same]

theorem slotsOf_reverse (ops : List Op) : slotsOf ops.reverse = slotsOf ops := by
  funext addr
  ext key
  simp only [mem_slotsOf, List.mem_reverse]

namespace Ledger

/-- Operations of the EVM after which the record of the touched slots is still complete. -/
def Keeps (seen : Address → Finset Hash) (l : Ledger) : Op → Prop
  | .createAccount addr => l.record.lookup addr ≠ none ∧ seen addr = ∅ ∧ ∀ x, l.accounts addr = some x →
      (∀ key, x.committed key = 0) ∧ x.nonce = 0 ∧ x.code = []
  | .addBalance addr _ | .subBalance addr _ | .setBalance addr _ | .setNonce addr _ | .setCode addr _
  | .setState addr _ _ => l.accounts addr = none → seen addr = ∅
  | .getCommittedState addr key => key ∈ seen addr
  | .revertToSnapshot number => ∀ revision ∈ l.revisions, revision.1 = number →
      ∀ addr x, Change.created addr (some x) ∈ l.changes.take (l.changes.length - revision.2) → seen addr = ∅
  | _ => True

theorem Keeps.creatable {seen : Address → Finset Hash} {l : Ledger} {op : Op} (keeps : l.Keeps seen op) :
    l.Creatable op := by
  cases op with
  | createAccount addr => exact ⟨keeps.1, fun x found => (keeps.2.2 x found).1⟩
  | _ => trivial

/-- What is recorded of the operations so far: the addresses that they looked up, and on the
    accounts the slots that they have seen. -/
structure Watched (looked : Set Address) (seen : Address → Finset Hash) (l : Ledger) : Prop where
  recorded : ∀ addr, l.record.lookup addr ≠ none → addr ∈ looked
  touched : ∀ addr x, l.accounts addr = some x → x.touched = seen addr
  replaced : ∀ addr x, Change.created addr (some x) ∈ l.changes → x.touched = ∅ ∧ x.nonce = 0 ∧ x.code = []
  written : ∀ addr key prev, Change.edited addr (.storage key prev) ∈ l.changes → key ∈ seen addr

namespace Watched

variable {looked : Set Address} {seen : Address → Finset Hash} {l l' : Ledger} {addr : Address}
  {init : Address → Option Account}

theorem see_subset (seen : Address → Finset Hash) (addr : Address) (key : Hash) (a : Address) :
    seen a ⊆ Function.update seen addr (insert key (seen addr)) a := by
  by_cases same : a = addr
  · subst same
    rw [Function.update_self]
    exact Finset.subset_insert key (seen a)
  · rw [Function.update_of_ne same]

section

variable (watched : Watched looked seen l)
include watched

variable {x : Account} {change : Change}

theorem mono {more : Set Address} (grown : looked ⊆ more) : Watched more seen l :=
  { watched with recorded := fun addr recorded => grown (watched.recorded addr recorded) }

theorem lookUp (member : addr ∈ looked) : Watched looked seen (l.lookUp addr) := by
  refine ⟨?_, ?_, ?_, ?_⟩
  · intro a recorded
    unfold Ledger.lookUp at recorded
    split at recorded
    · exact watched.recorded a recorded
    · simp only [Go.Map.lookup_set] at recorded
      split at recorded
      · rename_i same
        exact same ▸ member
      · exact watched.recorded a recorded
  · intro a x found
    rw [lookUp_accounts] at found
    exact watched.touched a x found
  · rw [lookUp_changes]
    exact watched.replaced
  · rw [lookUp_changes]
    exact watched.written

theorem put (same : x.touched = seen addr) : Watched looked seen (l.put addr (some x)) := by
  refine ⟨watched.recorded, ?_, watched.replaced, watched.written⟩
  intro a y found
  by_cases equal : a = addr
  · subst equal
    simp only [Ledger.put, Function.update_self, Option.some.injEq] at found
    rw [← found]
    exact same
  · simp only [Ledger.put, Function.update_of_ne equal] at found
    exact watched.touched a y found

theorem push (replaced : ∀ a x, change = .created a (some x) → x.touched = ∅ ∧ x.nonce = 0 ∧ x.code = [])
    (written : ∀ a key prev, change = .edited a (.storage key prev) → key ∈ seen a) :
    Watched looked seen (l.push change) := by
  refine ⟨watched.recorded, watched.touched, ?_, ?_⟩
  · intro a x member
    rcases List.mem_cons.mp member with same | member
    · exact replaced a x same.symm
    · exact watched.replaced a x member
  · intro a key prev member
    rcases List.mem_cons.mp member with same | member
    · exact written a key prev same.symm
    · exact watched.written a key prev member

theorem create (unseen : seen addr = ∅) (clear : ∀ x, l.accounts addr = some x → x.nonce = 0 ∧ x.code = [])
    (balance : Int) :
    Watched looked seen (l.create addr balance) := by
  refine (watched.push ?_ ?_).put unseen.symm
  · rintro a x same
    obtain ⟨rfl, found⟩ := Change.created.inj same
    exact ⟨(watched.touched addr x found).trans unseen, clear x found⟩
  · rintro a key prev ⟨⟩

theorem edit {edit : Edit} (same : x.touched = seen addr)
    (written : ∀ key prev, edit = .storage key prev → key ∈ seen addr) :
    Watched looked seen (l.edit addr edit x) := by
  refine (watched.push ?_ ?_).put same
  · rintro a y ⟨⟩
  · rintro a key prev ⟨⟩
    exact written key prev rfl

theorem touch (addr : Address) : Watched looked seen (l.touch addr) := by
  have pushed : Watched looked seen (l.push (.touched addr)) := watched.push (by rintro a x ⟨⟩) (by rintro a k p ⟨⟩)
  unfold Ledger.touch
  simp only
  split
  · exact ⟨pushed.recorded, pushed.touched, pushed.replaced, pushed.written⟩
  · exact pushed

theorem getOrNew (member : addr ∈ looked) (unseen : l.accounts addr = none → seen addr = ∅) :
    Watched looked seen (l.getOrNew addr).2 ∧ (l.getOrNew addr).1.touched = seen addr := by
  unfold Ledger.getOrNew
  cases found : l.accounts addr with
  | some x => exact ⟨watched.lookUp member, watched.touched addr x found⟩
  | none =>
    refine ⟨(watched.lookUp member).create (unseen found) ?_ 0, (unseen found).symm⟩
    intro x live
    rw [lookUp_accounts, found] at live
    cases live

theorem seeAbsent (absent : l.accounts addr = none) (key : Hash) :
    Watched looked (Function.update seen addr (insert key (seen addr))) l := by
  refine ⟨watched.recorded, ?_, watched.replaced, ?_⟩
  · intro a x found
    have different : a ≠ addr := by
      rintro rfl
      rw [absent] at found
      cases found
    rw [Function.update_of_ne different]
    exact watched.touched a x found
  · intro a k prev member
    exact see_subset seen addr key a (watched.written a k prev member)

theorem touchSlot (found : l.accounts addr = some x) (key : Hash) :
    Watched looked (Function.update seen addr (insert key (seen addr))) (l.put addr (some (x.touch key))) := by
  refine ⟨watched.recorded, ?_, watched.replaced, ?_⟩
  · intro a y live
    by_cases equal : a = addr
    · subst equal
      simp only [Ledger.put, Function.update_self, Option.some.injEq] at live
      rw [← live, Function.update_self, ← watched.touched a x found]
      rfl
    · simp only [Ledger.put, Function.update_of_ne equal] at live
      rw [Function.update_of_ne equal]
      exact watched.touched a y live
  · intro a k prev member
    exact see_subset seen addr key a (watched.written a k prev member)

theorem undo (tracks : Tracks init l) {rest : List Change} (head : l.changes = change :: rest)
    (undone : l.undo change = .ok l') (unseen : ∀ a x, change = .created a (some x) → seen a = ∅) :
    Watched looked seen { l' with changes := rest } := by
  have shorter (m : Ledger) (watched : Watched looked seen m) (changes : m.changes = change :: rest) :
      Watched looked seen { m with changes := rest } := by
    refine ⟨watched.recorded, watched.touched, ?_, ?_⟩
    · intro a x member
      exact watched.replaced a x (by rw [changes]; exact List.mem_cons_of_mem _ member)
    · intro a key prev member
      exact watched.written a key prev (by rw [changes]; exact List.mem_cons_of_mem _ member)
  cases change with
  | touched a | other =>
    cases undone
    exact shorter l watched head
  | created a prev =>
    cases undone
    cases prev with
    | some x =>
      refine shorter _ (watched.put ?_) head
      rw [unseen a x rfl]
      exact (watched.replaced a x (by rw [head]; exact List.mem_cons_self)).1
    | none =>
      refine shorter _ ⟨watched.recorded, ?_, watched.replaced, watched.written⟩ head
      intro b y live
      have different : b ≠ a := by
        rintro rfl
        simp [Ledger.put] at live
      simp only [Ledger.put, Function.update_of_ne different] at live
      exact watched.touched b y live
  | edited a edit =>
    have recorded : l.record.lookup a ≠ none := by
      intro missing
      exact (tracks.unrecorded a missing).2 _ (by rw [head]; exact List.mem_cons_self) rfl
    have member := watched.recorded a recorded
    have kept := (lookUp_changes l a).trans head
    rcases undo_edited undone with rfl | ⟨x, found, rfl⟩
    · exact shorter _ (watched.lookUp member) kept
    · refine shorter _ ((watched.lookUp member).put ?_) kept
      rw [Edit.undo_touched]
      exact watched.touched a x found

theorem undoChanges (tracks : Tracks init l) {snapshot : Nat} {changes : List Change} (entries : l.changes = changes)
    (undone : Ledger.undoChanges snapshot changes l = .ok l')
    (unseen : ∀ a x, Change.created a (some x) ∈ changes.take (changes.length - snapshot) → seen a = ∅) :
    Watched looked seen l' := by
  induction changes generalizing l with
  | nil =>
    cases undone
    exact watched
  | cons change rest ih =>
    rw [Ledger.undoChanges] at undone
    split at undone
    · rename_i long
      have taken : (change :: rest).take ((change :: rest).length - snapshot) =
          change :: rest.take (rest.length - snapshot) := by
        rw [List.length_cons, Nat.succ_sub long, List.take_succ_cons]
      rw [taken] at unseen
      obtain ⟨middle, first, later⟩ := bind_ok.mp undone
      have after := watched.undo tracks entries first fun a x same => unseen a x (same ▸ List.mem_cons_self)
      exact ih after (tracks.undo entries first) rfl later fun a x member =>
        unseen a x (List.mem_cons_of_mem _ member)
    · cases undone
      exact watched

theorem revert (tracks : Tracks init l) {number : Nat} (keeps : l.Keeps seen (.revertToSnapshot number))
    (reverted : l.revert number = .ok l') :
    Watched looked seen l' := by
  simp only [Ledger.revert] at reverted
  split at reverted
  · cases reverted
  · rename_i revision found
    split at reverted
    · cases reverted
    · rename_i same
      obtain ⟨middle, undone, last⟩ := bind_ok.mp reverted
      cases last
      have after := watched.undoChanges tracks rfl undone
        (keeps revision (List.mem_of_getElem? found) (not_not.mp same))
      exact ⟨after.recorded, after.touched, after.replaced, after.written⟩

end

theorem lookUp_put (l : Ledger) (addr : Address) (x : Account) (key : Hash) (found : l.accounts addr = some x) :
    (l.put addr (some (x.touch key))).lookUp addr = (l.lookUp addr).put addr (some (x.touch key)) := by
  unfold Ledger.lookUp
  simp only [Ledger.put, Function.update_self, found]
  cases l.record.lookup addr <;> rfl

theorem exec (watched : Watched looked seen l) (tracks : Tracks init l) {keccak : Bytes → Hash} {op : Op}
    {value : Value} (keeps : l.Keeps seen op) (executed : l.exec keccak op = .ok (value, l')) :
    Watched {addr | op.addr = some addr ∨ addr ∈ looked} (op.see seen) l' := by
  have wider : Watched {addr | op.addr = some addr ∨ addr ∈ looked} seen l := watched.mono fun _ member => .inr member
  cases op with
  | exist a | empty a | getBalance a | getNonce a | getCode a | getCodeHash a =>
    cases executed
    exact wider.lookUp (.inl rfl)
  | getCommittedState a key =>
    cases executed
    have member : key ∈ seen a := keeps
    have same : Op.see (.getCommittedState a key) seen = seen := by
      simp only [Op.see, Op.slot, Finset.insert_eq_of_mem member, Function.update_eq_self]
    rw [same]
    exact wider.lookUp (.inl rfl)
  | getState a key =>
    simp only [Ledger.exec] at executed
    split at executed
    · rename_i absent
      cases executed
      exact (wider.seeAbsent absent key).lookUp (.inl rfl)
    · rename_i x found
      cases executed
      rw [← lookUp_put l a x key found]
      exact (wider.touchSlot found key).lookUp (.inl rfl)
  | addBalance a amount =>
    cases executed
    obtain ⟨after, same⟩ := wider.getOrNew (.inl rfl) (show l.accounts a = none → seen a = ∅ from keeps)
    simp only [Ledger.addBalance]
    split
    · split
      · exact after.touch a
      · exact after
    · exact after.edit same (by rintro key prev ⟨⟩)
  | subBalance a amount =>
    cases executed
    obtain ⟨after, same⟩ := wider.getOrNew (.inl rfl) (show l.accounts a = none → seen a = ∅ from keeps)
    simp only [Ledger.subBalance]
    split
    · exact after
    · exact after.edit same (by rintro key prev ⟨⟩)
  | setBalance a | setNonce a | setCode a =>
    cases executed
    obtain ⟨after, same⟩ := wider.getOrNew (.inl rfl) (show l.accounts a = none → seen a = ∅ from keeps)
    exact after.edit same (by rintro key prev ⟨⟩)
  | setState a key value =>
    cases executed
    obtain ⟨after, same⟩ := wider.getOrNew (.inl rfl) (show l.accounts a = none → seen a = ∅ from keeps)
    have found := (getOrNew_moves l a).2.2
    have touched := after.touchSlot found key
    simp only [Ledger.setState]
    split
    · exact touched
    · have member : key ∈ Function.update seen a (insert key (seen a)) a := by
        rw [Function.update_self]
        exact Finset.mem_insert_self key (seen a)
      have grown : ((l.getOrNew a).1.touch key).touched = Function.update seen a (insert key (seen a)) a := by
        rw [Function.update_self, ← same]
        rfl
      have edited : Watched _ _ (((l.getOrNew a).2.put a (some ((l.getOrNew a).1.touch key))).edit a
          (.storage key ((l.getOrNew a).1.current key)) (((l.getOrNew a).1.touch key).write key value)) :=
        touched.edit grown (by rintro k prev ⟨⟩; exact member)
      rw [put_edit] at edited
      exact edited
  | suicide a =>
    simp only [Ledger.exec] at executed
    split at executed
    · cases executed
      exact wider.lookUp (.inl rfl)
    · rename_i x found
      cases executed
      exact (wider.lookUp (.inl rfl)).edit (watched.touched a x found) (by rintro key prev ⟨⟩)
  | createAccount a =>
    cases executed
    exact wider.create keeps.2.1 (fun x found => (keeps.2.2 x found).2) _
  | snapshot =>
    cases executed
    exact ⟨wider.recorded, wider.touched, wider.replaced, wider.written⟩
  | revertToSnapshot number =>
    obtain ⟨middle, reverted, last⟩ := bind_ok.mp executed
    cases last
    exact wider.revert tracks keeps reverted

theorem run {keccak : Bytes → Hash} {ops : List Op} {values : List Value} (fresh : Fresh l)
    (along : Along (remember (Ledger.exec keccak)) (fun memory op => memory.2.Keeps (slotsOf memory.1) op)
      ([], l) ops)
    (executed : run (Ledger.exec keccak) l ops = .ok (values, l')) :
    Watched {addr | addr ∈ lookedUp ops} (slotsOf ops) l' ∧ Tracks l.accounts l' ∧
      ∀ addr ∈ lookedUp ops, l'.record.lookup addr ≠ none := by
  have start : Watched {addr | addr ∈ lookedUp []} (slotsOf []) l := by
    refine ⟨?_, fresh.touched, ?_, ?_⟩
    · intro addr recorded
      rw [fresh.record] at recorded
      exact absurd rfl recorded
    · intro addr x member
      rw [fresh.changes] at member
      cases member
    · intro addr key prev member
      rw [fresh.changes] at member
      cases member
  have step (memory : List Op × Ledger) (op : Op) (value : Value) (memory' : List Op × Ledger) :
      memory.2.Keeps (slotsOf memory.1) op →
      (Watched {addr | addr ∈ lookedUp memory.1} (slotsOf memory.1) memory.2 ∧ Tracks l.accounts memory.2 ∧
        ∀ addr ∈ lookedUp memory.1, memory.2.record.lookup addr ≠ none) →
      remember (Ledger.exec keccak) memory op = .ok (value, memory') →
      Watched {addr | addr ∈ lookedUp memory'.1} (slotsOf memory'.1) memory'.2 ∧ Tracks l.accounts memory'.2 ∧
        ∀ addr ∈ lookedUp memory'.1, memory'.2.record.lookup addr ≠ none := by
    rintro keeps ⟨watched, tracks, covers⟩ stepped
    obtain ⟨first, same⟩ := remember_ok stepped
    have moves := exec_moves keccak memory.2 memory'.2 op value keeps.creatable first
    have looked (addr : Address) : addr ∈ lookedUp memory'.1 ↔ op.addr = some addr ∨ addr ∈ lookedUp memory.1 := by
      simp only [same, lookedUp, List.mem_filterMap, List.mem_cons, exists_eq_or_imp]
    refine ⟨?_, tracks.moves moves, ?_⟩
    · rw [same, slotsOf_cons, ← same]
      exact (watched.exec tracks keeps first).mono fun addr member => (looked addr).mpr member
    · intro addr member
      rcases (looked addr).mp member with about | earlier
      · exact exec_records keeps.creatable first about
      · exact moves.record_mono (covers addr earlier)
  obtain ⟨watched, tracks, covers⟩ := run_along step ⟨start, fresh.tracks, by simp [lookedUp]⟩ along
    (run_remember executed)
  have looked (addr : Address) : addr ∈ lookedUp (ops.reverse ++ []) ↔ addr ∈ lookedUp ops := by
    simp [lookedUp]
  refine ⟨?_, tracks, fun addr member => covers addr ((looked addr).mpr member)⟩
  rw [← slotsOf_reverse ops, ← List.append_nil ops.reverse]
  exact watched.mono fun addr member => (looked addr).mp member

end Watched

end Ledger

end IDWDetector.State
