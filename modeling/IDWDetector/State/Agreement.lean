import IDWDetector.State.History
import Mathlib.Data.Set.Basic
import Mathlib.Data.Option.Basic

namespace IDWDetector.State

open Machine

variable {op : Op} {value : Value}

structure Account.Agree (slots : Set Hash) (x y : Account) : Prop where
  nonce : x.nonce = y.nonce
  balance : x.balance = y.balance
  code : x.code = y.code
  suicided : x.suicided = y.suicided
  touched : x.touched = y.touched
  committed : ∀ key ∈ slots, x.committed key = y.committed key
  current : ∀ key ∈ slots, x.current key = y.current key

namespace Account.Agree

variable {slots : Set Hash} {x y : Account}

theorem refl (slots : Set Hash) (x : Account) : Account.Agree slots x x :=
  ⟨rfl, rfl, rfl, rfl, rfl, fun _ _ => rfl, fun _ _ => rfl⟩

variable (agree : Account.Agree slots x y)
include agree

theorem info : x.info = y.info := by
  unfold Account.info
  rw [agree.nonce, agree.balance, agree.code]

theorem empty (keccak : Bytes → Hash) : x.empty keccak = y.empty keccak := by
  unfold Account.empty
  rw [agree.nonce, agree.balance, agree.code]

theorem touch (key : Hash) : Account.Agree slots (x.touch key) (y.touch key) :=
  { agree with touched := by simp only [Account.touch, agree.touched] }

theorem write (key value : Hash) : Account.Agree slots (x.write key value) (y.write key value) := by
  refine { agree with current := ?_ }
  intro k inside
  by_cases same : k = key
  · subst same
    simp [Account.write]
  · simp only [Account.write, Function.update_of_ne same]
    exact agree.current k inside

theorem undo (edit : Edit) : Account.Agree slots (edit.undo x) (edit.undo y) := by
  cases edit with
  | suicided prev prevbalance => exact { agree with suicided := rfl, balance := rfl }
  | balance prev => exact { agree with balance := rfl }
  | nonce prev => exact { agree with nonce := rfl }
  | storage key prevalue => exact agree.write key prevalue
  | code prevcode => exact { agree with code := rfl }

end Account.Agree

inductive Change.Agree (scope : Set Address) (slots : Address → Set Hash) : Change → Change → Prop
  | created (addr : Address) (p q : Option Account) (same : Option.Rel (Account.Agree (slots addr)) p q) :
      Change.Agree scope slots (.created addr p) (.created addr q)
  | edited (addr : Address) (edit : Edit) (inside : addr ∈ scope) :
      Change.Agree scope slots (.edited addr edit) (.edited addr edit)
  | touched (addr : Address) : Change.Agree scope slots (.touched addr) (.touched addr)
  | other : Change.Agree scope slots .other .other

namespace Ledger

structure Agree (scope : Set Address) (slots : Address → Set Hash) (l m : Ledger) : Prop where
  accounts : ∀ addr ∈ scope, Option.Rel (Account.Agree (slots addr)) (l.accounts addr) (m.accounts addr)
  changes : List.Forall₂ (Change.Agree scope slots) l.changes m.changes
  sticky : l.sticky = m.sticky
  record : l.record = m.record
  revisions : l.revisions = m.revisions
  next : l.next = m.next

end Ledger

namespace Op

def addr : Op → Option Address
  | .exist addr | .empty addr | .getBalance addr | .getNonce addr | .getCode addr | .getCodeHash addr
  | .getState addr _ | .getCommittedState addr _ | .addBalance addr _ | .subBalance addr _
  | .setBalance addr _ | .setNonce addr _ | .setCode addr _ | .setState addr _ _ | .suicide addr
  | .createAccount addr => some addr
  | .snapshot | .revertToSnapshot _ => none

def slot : Op → Option (Address × Hash)
  | .getState addr key | .getCommittedState addr key | .setState addr key _ => some (addr, key)
  | _ => none

structure Within (scope : Set Address) (slots : Address → Set Hash) (op : Op) : Prop where
  addr : ∀ addr, op.addr = some addr → addr ∈ scope
  slot : ∀ addr key, op.slot = some (addr, key) → key ∈ slots addr

end Op

namespace Ledger.Agree

variable {scope : Set Address} {slots : Address → Set Hash} {l m : Ledger} {addr : Address}

section

variable (agree : Agree scope slots l m)
include agree

theorem accounts_cases (inside : addr ∈ scope) : l.accounts addr = none ∧ m.accounts addr = none ∨
    ∃ x y, l.accounts addr = some x ∧ m.accounts addr = some y ∧ Account.Agree (slots addr) x y := by
  have rel := agree.accounts addr inside
  revert rel
  cases l.accounts addr <;> cases m.accounts addr <;> intro rel
  · exact .inl ⟨rfl, rfl⟩
  · cases rel
  · cases rel
  · cases rel with
    | some related => exact .inr ⟨_, _, rfl, rfl, related⟩

theorem map_eq {α : Type} (inside : addr ∈ scope) (read : Account → α)
    (same : ∀ x y, Account.Agree (slots addr) x y → read x = read y) :
    (l.accounts addr).map read = (m.accounts addr).map read := by
  rcases agree.accounts_cases inside with ⟨left, right⟩ | ⟨x, y, left, right, related⟩
  · rw [left, right]
  · rw [left, right, Option.map_some, Option.map_some, same x y related]

theorem lookUp (inside : addr ∈ scope) : Agree scope slots (l.lookUp addr) (m.lookUp addr) := by
  have info := agree.map_eq inside Account.info fun x y related => related.info
  unfold Ledger.lookUp
  rw [← agree.record]
  split
  · exact agree
  · refine { agree with record := ?_ }
    simp only [info]

theorem put {p q : Option Account} (related : Option.Rel (Account.Agree (slots addr)) p q) :
    Agree scope slots (l.put addr p) (m.put addr q) := by
  refine { agree with accounts := ?_ }
  intro a inside
  by_cases same : a = addr
  · subst same
    simpa [Ledger.put] using related
  · simp only [Ledger.put, Function.update_of_ne same]
    exact agree.accounts a inside

theorem push {c d : Change} (related : Change.Agree scope slots c d) : Agree scope slots (l.push c) (m.push d) :=
  { agree with changes := .cons related agree.changes }

theorem create (inside : addr ∈ scope) (balance : Int) :
    Agree scope slots (l.create addr balance) (m.create addr balance) :=
  (agree.push (.created addr _ _ (agree.accounts addr inside))).put (.some (.refl _ _))

theorem edit (inside : addr ∈ scope) (edit : Edit) {x y : Account} (related : Account.Agree (slots addr) x y) :
    Agree scope slots (l.edit addr edit x) (m.edit addr edit y) :=
  (agree.push (.edited addr edit inside)).put (.some related)

theorem touch (addr : Address) : Agree scope slots (l.touch addr) (m.touch addr) := by
  have pushed := agree.push (.touched addr)
  unfold Ledger.touch
  simp only
  split
  · refine { pushed with sticky := ?_ }
    rw [pushed.sticky]
  · exact pushed

section

variable (inside : addr ∈ scope)
include inside

theorem getOrNew :
    Account.Agree (slots addr) (l.getOrNew addr).1 (m.getOrNew addr).1 ∧
      Agree scope slots (l.getOrNew addr).2 (m.getOrNew addr).2 := by
  have looked := agree.lookUp inside
  unfold Ledger.getOrNew
  rcases agree.accounts_cases inside with ⟨left, right⟩ | ⟨x, y, left, right, related⟩
  · rw [left, right]
    exact ⟨.refl _ _, looked.create inside 0⟩
  · rw [left, right]
    exact ⟨related, looked⟩

theorem change {edit : Account → Edit} {body : Account → Account}
    (edits : ∀ x y, Account.Agree (slots addr) x y → edit x = edit y)
    (bodies : ∀ x y, Account.Agree (slots addr) x y → Account.Agree (slots addr) (body x) (body y)) :
    Agree scope slots (l.change addr edit body) (m.change addr edit body) := by
  obtain ⟨related, obtained⟩ := agree.getOrNew inside
  unfold Ledger.change
  simp only
  rw [edits _ _ related]
  exact obtained.edit inside _ (bodies _ _ related)

theorem addBalance (keccak : Bytes → Hash) (amount : Int) :
    Agree scope slots (l.addBalance keccak addr amount) (m.addBalance keccak addr amount) := by
  obtain ⟨related, obtained⟩ := agree.getOrNew inside
  unfold Ledger.addBalance
  simp only
  rw [related.empty keccak, related.balance]
  split
  · split
    · exact obtained.touch addr
    · exact obtained
  · exact obtained.edit inside _ { related with balance := rfl }

theorem subBalance (amount : Int) : Agree scope slots (l.subBalance addr amount) (m.subBalance addr amount) := by
  obtain ⟨related, obtained⟩ := agree.getOrNew inside
  unfold Ledger.subBalance
  simp only
  rw [related.balance]
  split
  · exact obtained
  · exact obtained.edit inside _ { related with balance := rfl }

theorem setState {key : Hash} (visible : key ∈ slots addr) (value : Hash) :
    Agree scope slots (l.setState addr key value) (m.setState addr key value) := by
  obtain ⟨related, obtained⟩ := agree.getOrNew inside
  unfold Ledger.setState
  simp only
  rw [related.current key visible]
  split
  · exact obtained.put (.some (related.touch key))
  · exact obtained.edit inside _ ((related.touch key).write key value)

end

theorem undo {c d : Change} (related : Change.Agree scope slots c d) :
    Both (Agree scope slots) (l.undo c) (m.undo d) := by
  cases related with
  | created addr p q same => exact agree.put same
  | touched addr => exact agree
  | other => exact agree
  | edited addr edit inside =>
    have looked := agree.lookUp inside
    rcases agree.accounts_cases inside with ⟨left, right⟩ | ⟨x, y, left, right, same⟩
    all_goals simp only [Ledger.undo, left, right]
    · cases edit.required
      · exact looked
      · trivial
    · exact looked.put (.some (same.undo edit))

end

theorem undoChanges (snapshot : Nat) {changes changes' : List Change} (agree : Agree scope slots l m)
    (related : List.Forall₂ (Change.Agree scope slots) changes changes') :
    Both (Agree scope slots) (Ledger.undoChanges snapshot changes l)
      (Ledger.undoChanges snapshot changes' m) := by
  induction related generalizing l m with
  | nil => exact agree
  | @cons c d rest rest' head tail ih =>
    simp only [Ledger.undoChanges]
    rw [← tail.length_eq]
    split
    · refine (agree.undo head).bind ?_
      intro middle middle' _ same
      exact ih { same with changes := tail }
    · exact agree

variable (agree : Agree scope slots l m)
include agree

theorem revert (number : Nat) : Both (Agree scope slots) (l.revert number) (m.revert number) := by
  simp only [Ledger.revert]
  rw [← agree.revisions]
  split
  · trivial
  · split
    · trivial
    · refine (agree.undoChanges _ agree.changes).bind ?_
      intro middle middle' _ same
      exact { same with revisions := rfl }

theorem snapshot : Agree scope slots l.snapshot m.snapshot := by
  refine { agree with revisions := ?_, next := ?_ }
  · simp only [Ledger.snapshot, agree.revisions, agree.next, agree.changes.length_eq]
  · simp only [Ledger.snapshot, agree.next]

theorem reads {α : Type} (inside : addr ∈ scope) (answer : Option α → Value) (read : Account → α)
    (same : ∀ x y, Account.Agree (slots addr) x y → read x = read y) :
    answer ((l.accounts addr).map read) = answer ((m.accounts addr).map read) ∧
      Agree scope slots (l.lookUp addr) (m.lookUp addr) :=
  ⟨congrArg answer (agree.map_eq inside read same), agree.lookUp inside⟩

theorem exec (keccak : Bytes → Hash) (within : op.Within scope slots) :
    Agrees (Agree scope slots) (l.exec keccak op) (m.exec keccak op) := by
  cases op with
  | exist addr =>
    obtain ⟨same, looked⟩ := agree.reads (within.addr addr rfl) (.bool ·.isSome) (fun _ => ()) fun _ _ _ => rfl
    rw [Option.isSome_map, Option.isSome_map] at same
    exact ⟨same, looked⟩
  | empty addr =>
    exact agree.reads (within.addr addr rfl) (.bool <| ·.getD true) _ fun _ _ related => related.empty keccak
  | getBalance addr =>
    exact agree.reads (within.addr addr rfl) (.balance <| ·.getD 0) _ fun _ _ related => related.balance
  | getNonce addr =>
    exact agree.reads (within.addr addr rfl) (.nonce <| ·.getD 0) _ fun _ _ related => related.nonce
  | getCode addr =>
    exact agree.reads (within.addr addr rfl) (.code <| ·.getD []) _ fun _ _ related => related.code
  | getCodeHash addr =>
    exact agree.reads (within.addr addr rfl) (.hash <| ·.getD 0) _ fun _ _ related => congrArg keccak related.code
  | getCommittedState addr key =>
    have visible := within.slot addr key rfl
    exact agree.reads (within.addr addr rfl) (.hash <| ·.getD 0) _ fun _ _ related => related.committed key visible
  | getState addr key =>
    have inside := within.addr addr rfl
    have visible := within.slot addr key rfl
    have looked := agree.lookUp inside
    rcases agree.accounts_cases inside with ⟨left, right⟩ | ⟨x, y, left, right, same⟩
    all_goals simp only [Ledger.exec, left, right]
    · exact ⟨rfl, looked⟩
    · exact ⟨congrArg Value.hash (same.current key visible), looked.put (.some (same.touch key))⟩
  | addBalance addr amount => exact ⟨rfl, agree.addBalance (within.addr addr rfl) keccak amount⟩
  | subBalance addr amount => exact ⟨rfl, agree.subBalance (within.addr addr rfl) amount⟩
  | setBalance addr amount =>
    refine ⟨rfl, ?_⟩
    dsimp only
    refine agree.change (within.addr addr rfl) (fun x y related => ?_) fun x y related => ?_
    · rw [related.balance]
    · exact { related with balance := rfl }
  | setNonce addr nonce =>
    refine ⟨rfl, ?_⟩
    dsimp only
    refine agree.change (within.addr addr rfl) (fun x y related => ?_) fun x y related => ?_
    · rw [related.nonce]
    · exact { related with nonce := rfl }
  | setCode addr code =>
    refine ⟨rfl, ?_⟩
    dsimp only
    refine agree.change (within.addr addr rfl) (fun x y related => ?_) fun x y related => ?_
    · rw [related.code]
    · exact { related with code := rfl }
  | setState addr key value =>
    exact ⟨rfl, agree.setState (within.addr addr rfl) (within.slot addr key rfl) value⟩
  | suicide addr =>
    have inside := within.addr addr rfl
    have looked := agree.lookUp inside
    rcases agree.accounts_cases inside with ⟨left, right⟩ | ⟨x, y, left, right, same⟩
    all_goals simp only [Ledger.exec, left, right]
    · exact ⟨rfl, looked⟩
    · rw [same.suicided, same.balance]
      exact ⟨rfl, looked.edit inside _ { same with suicided := rfl, balance := rfl }⟩
  | createAccount addr =>
    have inside := within.addr addr rfl
    have same := agree.map_eq inside Account.balance fun _ _ related => related.balance
    simp only [Ledger.exec, balanceOf, same]
    exact ⟨rfl, agree.create inside _⟩
  | snapshot => exact ⟨rfl, agree.snapshot⟩
  | revertToSnapshot number =>
    refine (agree.revert number).bind ?_
    intro middle middle' _ same
    exact ⟨rfl, same⟩

end Ledger.Agree

namespace Ledger

variable {init : Address → Option Account} {l l' : Ledger} {keccak : Bytes → Hash}

theorem touch_record (l : Ledger) (addr : Address) : (l.touch addr).record = l.record := by
  unfold touch
  simp only
  split <;> rfl

theorem exec_records {addr : Address} (creatable : l.Creatable op) (executed : l.exec keccak op = .ok (value, l'))
    (about : op.addr = some addr) :
    l'.record.lookup addr ≠ none := by
  have looked := lookUp_recorded l addr
  have obtained := (getOrNew_moves l addr).2.1
  cases op with
  | snapshot | revertToSnapshot => cases about
  | exist | empty | getBalance | getNonce | getCode | getCodeHash | getCommittedState =>
    cases about
    cases executed
    exact looked
  | setBalance | setNonce | setCode =>
    cases about
    cases executed
    exact obtained
  | getState | suicide =>
    cases about
    simp only [exec] at executed
    split at executed <;> cases executed <;> exact looked
  | addBalance a amount =>
    cases about
    cases executed
    unfold addBalance
    simp only
    split
    · split
      · rw [touch_record]
        exact obtained
      · exact obtained
    · exact obtained
  | subBalance | setState =>
    cases about
    cases executed
    simp only [subBalance, setState]
    split <;> exact obtained
  | createAccount a =>
    cases about
    cases executed
    exact creatable.1

theorem exec_touches {addr : Address} {key : Hash} (executed : l.exec keccak op = .ok (value, l'))
    (about : op.slot = some (addr, key)) (current : op ≠ .getCommittedState addr key) (live : l.accounts addr ≠ none) :
    key ∈ l'.touchedAt addr := by
  cases op with
  | getCommittedState =>
    cases about
    exact absurd rfl current
  | getState a k =>
    cases about
    simp only [exec] at executed
    split at executed
    · rename_i absent
      exact absurd absent live
    · cases executed
      simp [touchedAt_put, Account.touch]
  | setState a k v =>
    cases about
    cases executed
    unfold setState
    simp only
    split
    · simp [touchedAt_put, Account.touch]
    · simp [Ledger.edit, touchedAt_put, Account.touch, Account.write]
  | _ => cases about

theorem Tracks.exec (tracks : Tracks init l) (creatable : l.Creatable op)
    (executed : l.exec keccak op = .ok (value, l')) : Tracks init l' :=
  tracks.moves (exec_moves keccak l l' op value creatable executed)

theorem run_moves {ops : List Op} {values : List Value}
    (along : Along (Ledger.exec keccak) Creatable l ops)
    (executed : run (Ledger.exec keccak) l ops = .ok (values, l')) : Moves l l' :=
  run_along (fun m op value m' creatable moves first => moves.trans (exec_moves keccak m m' op value creatable first))
    .refl along executed

theorem run_covers {ops : List Op} {values : List Value} (tracks : Tracks init l)
    (along : Along (Ledger.exec keccak) Creatable l ops)
    (executed : run (Ledger.exec keccak) l ops = .ok (values, l')) (member : op ∈ ops) :
    (∀ addr, op.addr = some addr → l'.record.lookup addr ≠ none) ∧
      ∀ addr key x slot, op.slot = some (addr, key) → op ≠ .getCommittedState addr key →
        init addr = some x → x.committed slot ≠ 0 → key ∈ l'.touchedAt addr := by
  induction ops generalizing l values with
  | nil => cases member
  | cons first rest ih =>
    obtain ⟨value, middle, tail, head, later, -⟩ := run_cons_ok executed
    have along' := along.2 value middle head
    have tracks' := tracks.exec along.1 head
    have moves := run_moves along' later
    rcases List.mem_cons.mp member with rfl | member
    · constructor
      · intro addr about
        exact moves.record_mono (exec_records along.1 head about)
      · intro addr key x slot about current start stored
        have live : l.accounts addr ≠ none := tracks.live (by rw [start]; simp)
        exact moves.touchedAt_mono tracks' start stored (exec_touches head about current live)
    · exact ih tracks' along' later member

end Ledger

end IDWDetector.State
