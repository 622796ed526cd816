import IDWDetector.State.Plain

namespace IDWDetector.State

open Machine

variable {value : Value}

def Op.keepsCode : Op → Bool
  | .setCode _ _ | .createAccount _ | .revertToSnapshot _ => false
  | _ => true

namespace Ledger

def codeAt (l : Ledger) (addr : Address) : Bytes := ((l.accounts addr).map Account.code).getD []

variable {l l' : Ledger}

theorem codeAt_put (l : Ledger) (addr a : Address) (x : Account) (same : x.code = l.codeAt addr) :
    (l.put addr (some x)).codeAt a = l.codeAt a := by
  by_cases here : a = addr
  · subst here
    simp only [codeAt, put, Function.update_self, Option.map_some, Option.getD_some]
    exact same
  · simp only [codeAt, put, Function.update_of_ne here]

theorem codeAt_lookUp (l : Ledger) (addr a : Address) : (l.lookUp addr).codeAt a = l.codeAt a := by
  rw [codeAt, lookUp_accounts, codeAt]

theorem getOrNew_codeAt (l : Ledger) (addr a : Address) :
    (l.getOrNew addr).2.codeAt a = l.codeAt a ∧ (l.getOrNew addr).1.code = l.codeAt addr := by
  unfold getOrNew
  cases found : l.accounts addr with
  | some x => exact ⟨codeAt_lookUp l addr a, by simp [codeAt, found]⟩
  | none =>
    have missing : l.codeAt addr = [] := by simp [codeAt, found]
    refine ⟨?_, missing.symm⟩
    rw [← codeAt_lookUp l addr a]
    apply codeAt_put
    rw [codeAt, push]
    simp only [lookUp_accounts, found]
    rfl

theorem edit_codeAt (l : Ledger) (addr a : Address) (edit : Edit) (x : Account) (same : x.code = l.codeAt addr) :
    (l.edit addr edit x).codeAt a = l.codeAt a :=
  codeAt_put (l.push (.edited addr edit)) addr a x same

theorem change_codeAt (l : Ledger) (addr a : Address) {edit : Account → Edit} {body : Account → Account}
    (kept : ∀ x, (body x).code = x.code) : (l.change addr edit body).codeAt a = l.codeAt a := by
  have found := getOrNew_codeAt l addr a
  have here := getOrNew_codeAt l addr addr
  rw [← found.1]
  apply edit_codeAt
  exact (kept _).trans (found.2.trans here.1.symm)

theorem exec_codeAt {keccak : Bytes → Hash} {op : Op} (addr : Address) (keeps : op.keepsCode = true)
    (executed : l.exec keccak op = .ok (value, l')) : l'.codeAt addr = l.codeAt addr := by
  cases op with
  | exist a | empty a | getBalance a | getNonce a | getCode a | getCodeHash a | getCommittedState a key =>
    cases executed
    exact codeAt_lookUp l a addr
  | getState a key =>
    simp only [exec] at executed
    split at executed <;> cases executed
    · exact codeAt_lookUp l a addr
    · rename_i x found
      rw [← codeAt_lookUp l a addr]
      apply codeAt_put
      rw [codeAt, lookUp_accounts, found]
      rfl
  | addBalance a amount =>
    cases executed
    have found := getOrNew_codeAt l a addr
    have here := getOrNew_codeAt l a a
    simp only [addBalance]
    split
    · split
      · rw [← found.1]
        unfold Ledger.touch
        simp only
        split <;> rfl
      · exact found.1
    · rw [← found.1]
      apply edit_codeAt
      rw [found.2, here.1]
  | subBalance a amount =>
    cases executed
    have found := getOrNew_codeAt l a addr
    have here := getOrNew_codeAt l a a
    simp only [subBalance]
    split
    · exact found.1
    · rw [← found.1]
      apply edit_codeAt
      rw [found.2, here.1]
  | setBalance a amount | setNonce a nonce =>
    cases executed
    exact change_codeAt l a addr fun _ => rfl
  | setState a key value =>
    cases executed
    have found := getOrNew_codeAt l a addr
    have here := getOrNew_codeAt l a a
    simp only [setState]
    split
    · rw [← found.1]
      apply codeAt_put
      rw [Account.touch, found.2, here.1]
    · rw [← found.1]
      apply edit_codeAt
      rw [Account.write, Account.touch, found.2, here.1]
  | suicide a =>
    simp only [exec] at executed
    split at executed <;> cases executed
    · exact codeAt_lookUp l a addr
    · rename_i x found
      rw [← codeAt_lookUp l a addr]
      apply edit_codeAt
      rw [codeAt, lookUp_accounts, found]
      rfl
  | snapshot =>
    cases executed
    rfl
  | setCode | createAccount | revertToSnapshot => cases keeps

end Ledger

namespace StateDB

def codeAt (s : StateDB) (addr : Address) : Bytes := (s.getCode addr).1

variable {s t u : StateDB}

theorem Models.codeAt {gone : StateObject → Prop} {first : Nat} {l : Ledger} (models : Models gone first s l)
    (addr : Address) : s.codeAt addr = l.codeAt addr := by
  have agrees : Agrees (Models gone first) (s.exec (fun _ => 0) first (.getCode addr))
      (l.exec (fun _ => 0) (.getCode addr)) := models.exec (.getCode addr)
  exact Value.code.inj agrees.1

theorem exist_of_codeAt (s : StateDB) (addr : Address) (coded : s.codeAt addr ≠ []) : (s.exist addr).1 = true := by
  unfold codeAt getCode at coded
  unfold exist
  split at coded <;> rename_i found
  · exact absurd rfl coded
  · rw [found]
    rfl

theorem Models.existAt {gone : StateObject → Prop} {first : Nat} {l : Ledger} (models : Models gone first s l)
    (addr : Address) : (s.exist addr).1 = (l.accounts addr).isSome := by
  have agrees : Agrees (Models gone first) (s.exec (fun _ => 0) first (.exist addr))
      (l.exec (fun _ => 0) (.exist addr)) := models.exec (.exist addr)
  exact Value.bool.inj agrees.1

theorem exist_of_op (op : Op) (revertible : s.Revertible) (executed : s.exec (fun _ => 0) 0 op = .ok (value, t))
    (same : ∀ l l' : Ledger, ∀ value, l.exec (fun _ => 0) op = .ok (value, l') → l'.accounts = l.accounts)
    (addr : Address) : (t.exist addr).1 = (s.exist addr).1 := by
  obtain ⟨gone, sound, _⟩ := revertible
  have models : Models gone 0 s (s.ledger 0) := ⟨sound, rfl⟩
  obtain ⟨l, executed', models'⟩ := models.exec_ok executed
  rw [models'.existAt addr, models.existAt addr, same _ _ _ executed']

theorem exist_getBalance (revertible : s.Revertible) (caller addr : Address) :
    ((s.getBalance caller).2.exist addr).1 = (s.exist addr).1 := by
  refine exist_of_op (.getBalance caller) revertible rfl ?_ addr
  intro l l' value executed
  cases executed
  exact Ledger.lookUp_accounts l caller

theorem exist_snapshot (revertible : s.Revertible) (addr : Address) :
    (s.snapshot.2.exist addr).1 = (s.exist addr).1 := by
  refine exist_of_op .snapshot revertible rfl ?_ addr
  intro l l' value executed
  cases executed
  rfl

theorem createAccount_codeAt (revertible : s.Revertible) (addr : Address) :
    (s.createAccount addr).codeAt addr = [] := by
  obtain ⟨gone, sound, _⟩ := revertible
  have models : Models gone 0 s (s.ledger 0) := ⟨sound, rfl⟩
  have agrees : Agrees (Models gone 0) (s.exec (fun _ => 0) 0 (.createAccount addr))
      ((s.ledger 0).exec (fun _ => 0) (.createAccount addr)) := models.exec (.createAccount addr)
  have created : Models gone 0 (s.createAccount addr) _ := agrees.2
  rw [created.codeAt addr]
  simp [Ledger.codeAt, Ledger.create, Ledger.put, Account.blank]

structure Calm (s t : StateDB) : Prop where
  plain : Plain s t
  code : s.Revertible → ∀ addr, t.codeAt addr = s.codeAt addr

namespace Calm

theorem refl (s : StateDB) : Calm s s := ⟨.refl s, fun _ _ => rfl⟩

theorem trans (first : Calm s t) (second : Calm t u) : Calm s u where
  plain := first.plain.trans second.plain
  code := fun revertible addr =>
    (second.code (first.plain.revertible revertible) addr).trans (first.code revertible addr)

theorem of_op (keccak : Bytes → Hash) (op : Op) (plain : Plain s t) (keeps : op.keepsCode = true)
    (executed : s.exec keccak 0 op = .ok (value, t)) : Calm s t where
  plain := plain
  code := by
    intro ⟨gone, sound, _⟩ addr
    have models : Models gone 0 s (s.ledger 0) := ⟨sound, rfl⟩
    obtain ⟨l, executed', models'⟩ := models.exec_ok executed
    rw [models'.codeAt addr, models.codeAt addr]
    exact Ledger.exec_codeAt addr keeps executed'

end Calm

section Operations

variable (keccak : Bytes → Hash) (s : StateDB) (addr : Address)

theorem exist_calm : Calm s (s.exist addr).2 := .of_op (fun _ => 0) (.exist addr) (exist_plain s addr) rfl rfl

theorem getBalance_calm : Calm s (s.getBalance addr).2 :=
  .of_op (fun _ => 0) (.getBalance addr) (getBalance_plain s addr) rfl rfl

theorem getNonce_calm : Calm s (s.getNonce addr).2 :=
  .of_op (fun _ => 0) (.getNonce addr) (getNonce_plain s addr) rfl rfl

theorem getCodeHash_calm : Calm s (s.getCodeHash keccak addr).2 :=
  .of_op keccak (.getCodeHash addr) (getCodeHash_plain keccak s addr) rfl rfl

theorem addBalance_calm (amount : Int) : Calm s (s.addBalance keccak addr amount) :=
  .of_op keccak (.addBalance addr amount) (addBalance_plain keccak s addr amount) rfl rfl

theorem subBalance_calm (amount : Int) : Calm s (s.subBalance addr amount) :=
  .of_op (fun _ => 0) (.subBalance addr amount) (subBalance_plain s addr amount) rfl rfl

theorem setNonce_calm (nonce : Uint64) : Calm s (s.setNonce addr nonce) :=
  .of_op (fun _ => 0) (.setNonce addr nonce) (setNonce_plain s addr nonce) rfl rfl

theorem snapshot_calm : Calm s s.snapshot.2 := .of_op (fun _ => 0) .snapshot (snapshot_plain s) rfl rfl

end Operations

end StateDB

end IDWDetector.State
