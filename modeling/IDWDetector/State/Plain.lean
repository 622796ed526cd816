import IDWDetector.State.Undo

namespace IDWDetector.State

namespace StateDB

def hasSuicided (s : StateDB) (addr : Address) : Bool × StateDB :=
  match s.getStateObject addr with
  | (some stateObject, s) => (stateObject.suicided, s)
  | (none, s) => (false, s)

/-- No transaction is open: no refund, no account that was destructed but is still there,
    and no slot whose value is not committed. -/
structure Closed (s : StateDB) : Prop where
  refund : s.refund = 0
  suicided : ∀ addr, (s.hasSuicided addr).1 = false
  committed : ∀ addr key, (s.getState addr key).1 = (s.getCommittedState addr key).1

/-- The accounts that a closed transaction leaves. -/
structure Origin.Closed (origin : Origin) : Prop where
  refund : origin.refund = 0
  accounts : ∀ addr x, origin.accounts addr = some x → x.suicided = false ∧ x.current = x.committed

variable {s t u : StateDB} {origin : Origin}

theorem getStateObject_fst (s : StateDB) (addr : Address) : (s.getStateObject addr).1 = s.liveObject addr := by
  have found := getDeletedStateObject_fst s addr
  unfold getStateObject liveObject
  split <;> rename_i object <;> rw [object] at found
  · rename_i obj _
    rw [← found]
    cases marked : obj.deleted <;> simp [marked, Option.filter]
  · rw [← found]
    rfl

theorem closed_of_live (refund : s.refund = 0) (settled : ∀ addr obj, s.liveObject addr = some obj →
    obj.suicided = false ∧ obj.current = obj.committed) : s.Closed := by
  refine ⟨refund, ?_, ?_⟩
  · intro addr
    have live := getStateObject_fst s addr
    unfold hasSuicided
    cases looked : s.getStateObject addr with
    | mk found t =>
      rw [looked] at live
      cases found with
      | none => rfl
      | some obj => exact (settled addr obj live.symm).1
  · intro addr key
    have live := getStateObject_fst s addr
    unfold getState getCommittedState
    cases looked : s.getStateObject addr with
    | mk found t =>
      rw [looked] at live
      cases found with
      | none => rfl
      | some obj =>
        obtain ⟨value, -⟩ := obj.getState_spec key
        obtain ⟨value', -⟩ := obj.getCommittedState_spec key
        simp only [value, value']
        exact congrFun (settled addr obj live.symm).2 key

end StateDB

def Change.harmless : Change → Bool
  | .edited _ (.suicided _ _) | .edited _ (.storage _ _) => false
  | _ => true

theorem JournalEntry.change_harmless {entry : JournalEntry} (harmless : entry.harmless = true) :
    entry.change.harmless = true := by
  cases entry with
  | suicideChange | storageChange | refundChange => cases harmless
  | _ => rfl

theorem Coherent.settled {init accounts : Address → Option Account} {changes : List Change}
    {addr : Address} {x : Account}
    (coherent : Coherent init changes accounts) (harmless : ∀ change ∈ changes, change.harmless = true)
    (start : ∀ x, init addr = some x → x.suicided = false ∧ x.current = x.committed) (found : accounts addr = some x) :
    x.suicided = false ∧ x.current = x.committed := by
  refine coherent.follow_mem (motive := fun x => ∀ y, x = some y → y.suicided = false ∧ y.current = y.committed)
    start ?_ ?_ x found
  · rintro prev - - y ⟨⟩
    exact ⟨rfl, rfl⟩
  · rintro edit x member earlier y ⟨⟩
    have before := earlier _ rfl
    cases edit with
    | suicided | storage => cases harmless _ member
    | balance | nonce | code => exact before

namespace StateDB

variable {s t u : StateDB} {origin : Origin}

theorem RevertsTo.closed (reverts : s.RevertsTo origin) (start : origin.Closed)
    (harmless : ∀ entry ∈ s.journal.entries, entry.harmless = true) : s.Closed := by
  have unrefunded : ∀ entry ∈ s.journal.entries, entry.refunds = false := by
    intro entry member
    have kept := harmless entry member
    cases entry with
    | refundChange => cases kept
    | _ => rfl
  have refund := reverts.refund
  rw [← List.append_nil s.journal.entries, Journal.refundBefore_append unrefunded] at refund
  refine closed_of_live (refund.trans start.refund) ?_
  intro addr obj live
  obtain ⟨gone, -, coherent⟩ := reverts.accounts
  have changes : ∀ change ∈ (s.ledger 0).changes, change.harmless = true := by
    intro change member
    obtain ⟨entry, listed, rfl⟩ := List.mem_map.mp member
    exact JournalEntry.change_harmless (harmless entry listed)
  have found : (s.ledger 0).bare addr = some obj.view.untouched := by
    show Option.map Account.untouched ((s.peek addr).bind StateObject.live) = _
    rw [peek_live, live]
    rfl
  exact Coherent.settled coherent changes (start.accounts addr) found

structure Plain (s t : StateDB) : Prop extends Quiet s t where
  adds : Adds JournalEntry.harmless s t

namespace Plain

theorem refl (s : StateDB) : Plain s s := ⟨.refl s, .refl s⟩

theorem trans (first : Plain s t) (second : Plain t u) : Plain s u :=
  ⟨first.toQuiet.trans second.toQuiet, first.adds.trans second.adds⟩

theorem of_op (keccak : Bytes → Hash) (op : Op) {value : Value} (settles : op.settles = true)
    (forward : ∀ number, op ≠ .revertToSnapshot number) (executed : s.exec keccak 0 op = .ok (value, t)) :
    Plain s t := by
  refine ⟨.of_op keccak op forward executed, (exec_adds forward executed).imp fun entry allowed => ?_⟩
  rwa [Op.allows, settles, Bool.not_true, Bool.false_and, Bool.or_false] at allowed

end Plain

section Operations

variable (keccak : Bytes → Hash) (s : StateDB) (addr : Address)

theorem exist_plain : Plain s (s.exist addr).2 := .of_op (fun _ => 0) (.exist addr) rfl nofun rfl

theorem getBalance_plain : Plain s (s.getBalance addr).2 :=
  .of_op (fun _ => 0) (.getBalance addr) rfl nofun rfl

theorem getNonce_plain : Plain s (s.getNonce addr).2 :=
  .of_op (fun _ => 0) (.getNonce addr) rfl nofun rfl

theorem getCode_plain : Plain s (s.getCode addr).2 :=
  .of_op (fun _ => 0) (.getCode addr) rfl nofun rfl

theorem getCodeHash_plain : Plain s (s.getCodeHash keccak addr).2 :=
  .of_op keccak (.getCodeHash addr) rfl nofun rfl

theorem addBalance_plain (amount : Int) : Plain s (s.addBalance keccak addr amount) :=
  .of_op keccak (.addBalance addr amount) rfl nofun rfl

theorem subBalance_plain (amount : Int) : Plain s (s.subBalance addr amount) :=
  .of_op (fun _ => 0) (.subBalance addr amount) rfl nofun rfl

theorem setNonce_plain (nonce : Uint64) : Plain s (s.setNonce addr nonce) :=
  .of_op (fun _ => 0) (.setNonce addr nonce) rfl nofun rfl

theorem setCode_plain (code : Bytes) : Plain s (s.setCode addr code) :=
  .of_op (fun _ => 0) (.setCode addr code) rfl nofun rfl

theorem createAccount_plain : Plain s (s.createAccount addr) :=
  .of_op (fun _ => 0) (.createAccount addr) rfl nofun rfl

theorem snapshot_plain : Plain s s.snapshot.2 := .of_op (fun _ => 0) .snapshot rfl nofun rfl

end Operations

end StateDB

end IDWDetector.State
