import IDWDetector.State.Entries
import IDWDetector.State.History
import IDWDetector.State.Logs

namespace IDWDetector.State

open Machine

namespace Ledger

def UndoesTo (init : Address → Option Account) (l : Ledger) : Prop := Coherent init l.changes l.bare

def Undoable (l : Ledger) : Prop := ∃ init, Coherent init l.changes l.bare

variable {init : Address → Option Account} {l l' : Ledger}

theorem UndoesTo.create (coherent : l.UndoesTo init) (addr : Address) :
    (l.create addr (l.balanceOf addr)).UndoesTo init := by
  refine ⟨?_, ?_⟩
  · simp only [Ledger.create, bare_put, Function.update_self]
    rfl
  · have same : Function.update (l.push (.created addr (l.accounts addr))).bare addr
        ((l.accounts addr).map Account.untouched) = l.bare := bare_update_self (l := l) rfl
    rw [Ledger.create, bare_put, Function.update_idem, same]
    exact coherent

theorem undo_ok {change : Change} {rest : List Change}
    (coherent : Coherent init (change :: rest) l.bare) :
    ∃ l', l.undo change = .ok l' ∧ Coherent init rest l'.bare := by
  cases change with
  | created addr prev =>
    refine ⟨_, rfl, ?_⟩
    rw [bare_put]
    exact coherent.2
  | touched addr => exact ⟨l, rfl, coherent⟩
  | other => exact ⟨l, rfl, coherent⟩
  | edited addr edit =>
    obtain ⟨x, found, earlier⟩ := coherent
    obtain ⟨y, live, rfl⟩ := Option.map_eq_some_iff.mp found
    refine ⟨(l.lookUp addr).put addr (some (edit.undo y)), by simp only [Ledger.undo, live], ?_⟩
    have bare : (l.lookUp addr).bare = l.bare := by
      unfold Ledger.bare
      rw [lookUp_accounts]
    rw [bare_put, bare, Option.map_some, ← Edit.undo_untouched]
    exact earlier

theorem undoChanges_ok {changes : List Change} (snapshot : Nat) (log : l.changes = changes)
    (coherent : l.UndoesTo init) :
    ∃ l', undoChanges snapshot changes l = .ok l' ∧ l'.UndoesTo init := by
  induction changes generalizing l with
  | nil => exact ⟨l, rfl, coherent⟩
  | cons change rest ih =>
    rw [undoChanges]
    split
    · rw [UndoesTo, log] at coherent
      obtain ⟨middle, undone, earlier⟩ := undo_ok coherent
      obtain ⟨last, later, coherent'⟩ := ih (l := { middle with changes := rest }) rfl earlier
      exact ⟨last, bind_ok.mpr ⟨middle, undone, later⟩, coherent'⟩
    · exact ⟨l, rfl, coherent⟩

variable (coherent : l.UndoesTo init)
include coherent

theorem UndoesTo.move (move : Move l l') : l'.UndoesTo init := by
  cases move with
  | create addr recorded clear => exact coherent.create addr
  | undo middle change rest head undone =>
    rw [UndoesTo, head] at coherent
    obtain ⟨same, undone', earlier⟩ := undo_ok coherent
    rw [undone] at undone'
    cases undone'
    exact earlier
  | lookUp addr =>
    unfold Ledger.lookUp
    split
    · exact coherent
    · exact coherent
  | read addr x key recorded found =>
    have same : (l.put addr (some (x.touch key))).bare = l.bare := by
      rw [bare_put]
      exact bare_update_self (x := some x) found
    rw [UndoesTo, same]
    exact coherent
  | edit addr edit x recorded found =>
    refine ⟨x.untouched, ?_, ?_⟩
    · simp only [Ledger.edit, bare_put, Function.update_self]
      rfl
    · have same : Function.update (l.push (.edited addr edit)).bare addr
          (some (edit.undo x).untouched) = l.bare := bare_update_self (l := l) found
      rw [Ledger.edit, bare_put, Function.update_idem, Edit.undo_untouched, same]
      exact coherent
  | touch addr recorded =>
    unfold Ledger.touch
    simp only
    split
    · exact coherent
    · exact coherent
  | revise revisions next => exact coherent

theorem UndoesTo.moves (moves : Moves l l') : l'.UndoesTo init := by
  induction moves with
  | refl => exact coherent
  | tail _ move ih => exact ih.move move

theorem UndoesTo.exec {keccak : Bytes → Hash} {op : Op} {value : Value}
    (executed : l.exec keccak op = .ok (value, l')) : l'.UndoesTo init := by
  cases op with
  | createAccount addr =>
    cases executed
    exact coherent.create addr
  | _ => exact coherent.moves (exec_moves keccak l l' _ value (by trivial) executed)

end Ledger

namespace StateDB

/-- The journal can be undone without a panic. -/
def Revertible (s : StateDB) : Prop := ∃ gone, Sound gone s ∧ (s.ledger 0).Undoable

structure Origin where
  accounts : Address → Option Account
  refund : Uint64

structure RevertsTo (origin : Origin) (s : StateDB) : Prop where
  accounts : ∃ gone, Sound gone s ∧ (s.ledger 0).UndoesTo origin.accounts
  refund : Journal.refundBefore s.journal.entries s.refund = origin.refund

variable {origin : Origin} {s t u : StateDB}

theorem RevertsTo.revertible (reverts : s.RevertsTo origin) : s.Revertible := by
  obtain ⟨gone, sound, coherent⟩ := reverts.accounts
  exact ⟨gone, sound, origin.accounts, coherent⟩

theorem Revertible.revertsTo (revertible : s.Revertible) : ∃ origin, s.RevertsTo origin := by
  obtain ⟨gone, sound, init, coherent⟩ := revertible
  exact ⟨⟨init, _⟩, ⟨gone, sound, coherent⟩, rfl⟩

theorem new_revertsTo (trie : Go.Map Address StateAccount) :
    (StateDB.new trie).RevertsTo ⟨((StateDB.new trie).ledger 0).bare, 0⟩ := by
  refine ⟨⟨fun _ => True, ⟨?_, ?_, ?_, ?_, ?_, ?_, ?_⟩, rfl⟩, rfl⟩
  · exact fun _ _ found => nomatch found
  · exact fun _ member => nomatch member
  · exact fun _ recorded => absurd rfl recorded
  · exact fun _ => Int.le_refl 0
  · exact fun _ zero => nomatch zero
  · exact fun _ _ _ _ => trivial
  · exact fun _ _ _ => trivial

theorem new_revertible (trie : Go.Map Address StateAccount) : (StateDB.new trie).Revertible :=
  (new_revertsTo trie).revertible

theorem RevertsTo.append_other (reverts : s.RevertsTo origin) {entry : JournalEntry} (other : entry.change = .other) :
    ∃ gone, Sound gone (s.append entry) ∧ ((s.append entry).ledger 0).UndoesTo origin.accounts := by
  obtain ⟨gone, sound, coherent⟩ := reverts.accounts
  refine ⟨gone, sound.append ?_ ?_, ?_⟩
  · intro addr same
    rw [same] at other
    cases other
  · intro prev same
    rw [same] at other
    cases other
  · rw [ledger_append, other]
    exact coherent

theorem undoes_of_accounts {init : Address → Option Account}
    (undoes : ∃ gone, Sound gone s ∧ (s.ledger 0).UndoesTo init)
    (trie : t.trie = s.trie) (objects : t.stateObjects = s.stateObjects) (journal : t.journal = s.journal)
    (pre : t.researchPreAlloc = s.researchPreAlloc) : ∃ gone, Sound gone t ∧ (t.ledger 0).UndoesTo init := by
  obtain ⟨gone, ⟨keyed, created, loaded, counted, positive, deleted, replaced⟩, coherent⟩ := undoes
  refine ⟨gone, ⟨?_, ?_, ?_, ?_, ?_, ?_, ?_⟩, ?_⟩
  · rwa [objects]
  · rwa [journal, trie]
  · rwa [pre, objects, trie]
  · rwa [journal]
  · rwa [journal]
  · rwa [objects]
  · rwa [journal]
  · have changes : (t.ledger 0).changes = (s.ledger 0).changes := by
      simp only [ledger, journal]
    have bare : (t.ledger 0).bare = (s.ledger 0).bare := by
      funext addr
      simp only [Ledger.bare, ledger, peek, objects, trie]
    rw [Ledger.UndoesTo, changes, bare]
    exact coherent

theorem RevertsTo.revertJournal (reverts : s.RevertsTo origin) (snapshot : Nat) :
    ∃ t, s.revertJournal snapshot = .ok t ∧ t.RevertsTo origin := by
  obtain ⟨gone, sound, coherent⟩ := reverts.accounts
  have models : Models gone 0 s (s.ledger 0) := ⟨sound, rfl⟩
  obtain ⟨l, undone, coherent'⟩ := Ledger.undoChanges_ok snapshot rfl coherent
  obtain ⟨t, reverted, models'⟩ := Both.ok_right (models.revertEntries snapshot rfl) undone
  refine ⟨t, reverted, ⟨gone, models'.sound, ?_⟩, ?_⟩
  · rw [models'.same]
    exact coherent'
  · rw [revertEntries_refundBefore rfl reverted]
    exact reverts.refund

theorem RevertsTo.revertToSnapshot {added : List Log} (reverts : t.RevertsTo origin) (numbered : s.Numbered)
    (logged : Logged s.snapshot.2 t added) :
    ∃ u, t.revertToSnapshot s.snapshot.1 = .ok u ∧ u.RevertsTo origin := by
  obtain ⟨u, reverted, reverts'⟩ := reverts.revertJournal s.journal.length
  refine ⟨{ u with validRevisions := s.validRevisions }, ?_,
    undoes_of_accounts reverts'.accounts rfl rfl rfl rfl, reverts'.refund⟩
  rw [revertToSnapshot_eq numbered logged, reverted]
  rfl

theorem RevertsTo.exec (keccak : Bytes → Hash) {op : Op} {value : Value} (reverts : s.RevertsTo origin)
    (forward : ∀ number, op ≠ .revertToSnapshot number) (executed : s.exec keccak 0 op = .ok (value, t)) :
    t.RevertsTo origin := by
  obtain ⟨gone, sound, coherent⟩ := reverts.accounts
  obtain ⟨l, executed', models'⟩ := Models.exec_ok ⟨sound, rfl⟩ executed
  refine ⟨⟨gone, models'.sound, ?_⟩, ?_⟩
  · rw [models'.same]
    exact coherent.exec executed'
  · rw [(exec_adds forward executed).refundBefore fun _ => Op.not_refunds_of_allows]
    exact reverts.refund

structure Quiet (s t : StateDB) : Prop where
  logged : Logged s t []
  reverts : ∀ origin, s.RevertsTo origin → t.RevertsTo origin

namespace Quiet

theorem refl (s : StateDB) : Quiet s s := ⟨.refl s, fun _ => id⟩

theorem trans (first : Quiet s t) (second : Quiet t u) : Quiet s u :=
  ⟨first.logged.trans second.logged, fun origin reverts => second.reverts origin (first.reverts origin reverts)⟩

theorem revertible (quiet : Quiet s t) (revertible : s.Revertible) : t.Revertible := by
  obtain ⟨origin, reverts⟩ := revertible.revertsTo
  exact (quiet.reverts origin reverts).revertible

theorem of_op (keccak : Bytes → Hash) (op : Op) {value : Value}
    (forward : ∀ number, op ≠ .revertToSnapshot number) (executed : s.exec keccak 0 op = .ok (value, t)) : Quiet s t :=
  ⟨exec_logged forward executed, fun _ reverts => reverts.exec keccak forward executed⟩

end Quiet

section Operations

variable (s : StateDB)

theorem setState_quiet (addr : Address) (key value : Hash) : Quiet s (s.setState addr key value) :=
  .of_op (fun _ => 0) (.setState addr key value) nofun rfl

theorem suicide_quiet (addr : Address) : Quiet s (s.suicide addr).2 := .of_op (fun _ => 0) (.suicide addr) nofun rfl

theorem addRefund_quiet (gas : Uint64) : Quiet s (s.addRefund gas) := by
  refine ⟨addRefund_logged s gas, fun origin reverts => ?_⟩
  have appended := reverts.append_other (show (JournalEntry.refundChange s.refund).change = .other from rfl)
  refine ⟨undoes_of_accounts appended rfl rfl rfl rfl, ?_⟩
  rw [← reverts.refund, addRefund, append, Journal.entries_append]
  rfl

theorem subRefund_quiet {t : StateDB} {gas : Uint64} (subtracted : s.subRefund gas = .ok t) : Quiet s t := by
  refine ⟨subRefund_logged s subtracted, fun origin reverts => ?_⟩
  have appended := reverts.append_other (show (JournalEntry.refundChange s.refund).change = .other from rfl)
  unfold subRefund at subtracted
  split at subtracted
  · cases subtracted
  · cases subtracted
    refine ⟨undoes_of_accounts appended rfl rfl rfl rfl, ?_⟩
    rw [← reverts.refund, append, Journal.entries_append]
    rfl

theorem addLog_reverts {origin : Origin} (log : Log) (reverts : s.RevertsTo origin) :
    (s.addLog log).RevertsTo origin := by
  have appended := reverts.append_other (show (JournalEntry.addLogChange s.thash).change = .other from rfl)
  refine ⟨undoes_of_accounts appended rfl rfl rfl rfl, ?_⟩
  rw [← reverts.refund, addLog, append, Journal.entries_append]
  rfl

end Operations

end StateDB

end IDWDetector.State
