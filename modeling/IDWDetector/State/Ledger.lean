import IDWDetector.State.Operations
import Mathlib.Logic.Function.Basic

namespace IDWDetector.State

/-- What a transaction can observe of an account: no cache, no trie. -/
structure Account where
  nonce : Uint64
  balance : Int
  code : Bytes
  suicided : Bool
  touched : Finset Hash
  committed : Hash → Hash
  current : Hash → Hash

namespace Account

def blank (balance : Int) : Account where
  nonce := 0
  balance := balance
  code := []
  suicided := false
  touched := ∅
  committed := fun _ => 0
  current := fun _ => 0

def info (x : Account) : SubstateAccount := newSubstateAccount x.nonce x.balance x.code

def empty (keccak : Bytes → Hash) (x : Account) : Bool :=
  decide (x.nonce = 0 ∧ x.balance = 0 ∧ keccak x.code = keccak [])

def touch (x : Account) (key : Hash) : Account := { x with touched := insert key x.touched }

def write (x : Account) (key value : Hash) : Account :=
  { x with current := Function.update x.current key value }

end Account

inductive Edit
  | suicided (prev : Bool) (prevbalance : Int)
  | balance (prev : Int)
  | nonce (prev : Uint64)
  | storage (key prevalue : Hash)
  | code (prevcode : Bytes)

namespace Edit

def undo : Edit → Account → Account
  | .suicided prev prevbalance, x => { x with suicided := prev, balance := prevbalance }
  | .balance prev, x => { x with balance := prev }
  | .nonce prev, x => { x with nonce := prev }
  | .storage key prevalue, x => x.write key prevalue
  | .code prevcode, x => { x with code := prevcode }

def required : Edit → Bool
  | .suicided _ _ => false
  | _ => true

end Edit

inductive Change
  | created (addr : Address) (prev : Option Account)
  | edited (addr : Address) (edit : Edit)
  | touched (addr : Address)
  | other

/-- The accounts as one transaction sees them, with its undo log and its record.
    `sticky` counts the dirty marks that no entry of the log accounts for. -/
structure Ledger where
  accounts : Address → Option Account
  changes : List Change
  sticky : Address → Int
  record : SubstateAlloc
  revisions : List (Int × Nat)
  next : Int

namespace Ledger

variable (l : Ledger) (addr : Address)

def lookUp : Ledger :=
  match l.record.lookup addr with
  | some _ => l
  | none => { l with record := l.record.set addr ((l.accounts addr).map Account.info) }

def put (x : Option Account) : Ledger :=
  { l with accounts := Function.update l.accounts addr x }

def push (change : Change) : Ledger := { l with changes := change :: l.changes }

def create (balance : Int) : Ledger :=
  (l.push (.created addr (l.accounts addr))).put addr (some (.blank balance))

def getOrNew : Account × Ledger :=
  match l.accounts addr with
  | some x => (x, l.lookUp addr)
  | none => (.blank 0, (l.lookUp addr).create addr 0)

def edit (edit : Edit) (x : Account) : Ledger :=
  (l.push (.edited addr edit)).put addr (some x)

def touch : Ledger :=
  let l := l.push (.touched addr)
  if addr = ripemd then { l with sticky := Function.update l.sticky addr (l.sticky addr + 1) } else l

def balanceOf : Int := ((l.accounts addr).map Account.balance).getD 0

def undo : Change → Except Panic Ledger
  | .created addr prev => .ok (l.put addr prev)
  | .edited addr edit =>
    match l.accounts addr with
    | none => if edit.required then .error .nilDereference else .ok (l.lookUp addr)
    | some x => .ok ((l.lookUp addr).put addr (some (edit.undo x)))
  | .touched _ | .other => .ok l

def undoChanges (snapshot : Nat) : List Change → Ledger → Except Panic Ledger
  | [], l => .ok l
  | change :: rest, l =>
    if snapshot ≤ rest.length then do
      let l ← l.undo change
      undoChanges snapshot rest { l with changes := rest }
    else .ok l

def revert (number : Nat) : Except Panic Ledger :=
  let idx := l.revisions.findIdx fun revision => decide ((number : Int) ≤ revision.1)
  match l.revisions[idx]? with
  | none => .error (.revisionNotFound number)
  | some revision =>
    if revision.1 ≠ number then .error (.revisionNotFound number)
    else do
      let l' ← undoChanges revision.2 l.changes l
      .ok { l' with revisions := l.revisions.take idx }

def snapshot : Ledger :=
  { l with next := l.next + 1, revisions := l.revisions ++ [(l.next, l.changes.length)] }

def addBalance (keccak : Bytes → Hash) (l : Ledger) (addr : Address) (amount : Int) : Ledger :=
  let (x, l) := l.getOrNew addr
  if amount = 0 then
    if x.empty keccak then l.touch addr else l
  else l.edit addr (.balance x.balance) { x with balance := x.balance + amount }

def subBalance (amount : Int) : Ledger :=
  let (x, l) := l.getOrNew addr
  if amount = 0 then l else l.edit addr (.balance x.balance) { x with balance := x.balance - amount }

def setState (key value : Hash) : Ledger :=
  let (x, l) := l.getOrNew addr
  if x.current key = value then l.put addr (some (x.touch key))
  else l.edit addr (.storage key (x.current key)) ((x.touch key).write key value)

def change (edit : Account → Edit) (body : Account → Account) : Ledger :=
  let (x, l) := l.getOrNew addr
  l.edit addr (edit x) (body x)

def exec (keccak : Bytes → Hash) (l : Ledger) : Op → Except Panic (Value × Ledger)
  | .exist addr => .ok (.bool (l.accounts addr).isSome, l.lookUp addr)
  | .empty addr => .ok (.bool (((l.accounts addr).map (·.empty keccak)).getD true), l.lookUp addr)
  | .getBalance addr => .ok (.balance (l.balanceOf addr), l.lookUp addr)
  | .getNonce addr => .ok (.nonce (((l.accounts addr).map Account.nonce).getD 0), l.lookUp addr)
  | .getCode addr => .ok (.code (((l.accounts addr).map Account.code).getD []), l.lookUp addr)
  | .getCodeHash addr =>
    .ok (.hash (((l.accounts addr).map fun x => keccak x.code).getD 0), l.lookUp addr)
  | .getState addr key =>
    match l.accounts addr with
    | none => .ok (.hash 0, l.lookUp addr)
    | some x => .ok (.hash (x.current key), (l.lookUp addr).put addr (some (x.touch key)))
  | .getCommittedState addr key =>
    .ok (.hash (((l.accounts addr).map (·.committed key)).getD 0), l.lookUp addr)
  | .addBalance addr amount => .ok (.none, l.addBalance keccak addr amount)
  | .subBalance addr amount => .ok (.none, l.subBalance addr amount)
  | .setBalance addr amount =>
    .ok (.none, l.change addr (.balance ·.balance) ({ · with balance := amount }))
  | .setNonce addr nonce => .ok (.none, l.change addr (.nonce ·.nonce) ({ · with nonce := nonce }))
  | .setCode addr code => .ok (.none, l.change addr (.code ·.code) ({ · with code := code }))
  | .setState addr key value => .ok (.none, l.setState addr key value)
  | .suicide addr =>
    match l.accounts addr with
    | none => .ok (.bool false, l.lookUp addr)
    | some x => .ok (.bool true, (l.lookUp addr).edit addr (.suicided x.suicided x.balance)
        { x with suicided := true, balance := 0 })
  | .createAccount addr => .ok (.none, l.create addr (l.balanceOf addr))
  | .snapshot => .ok (.none, l.snapshot)
  | .revertToSnapshot number => do
    let l ← l.revert number
    .ok (.none, l)

/-- The elementary moves that every operation is made of. -/
inductive Move : Ledger → Ledger → Prop
  | lookUp (l : Ledger) (addr : Address) : Move l (l.lookUp addr)
  | create (l : Ledger) (addr : Address) (recorded : l.record.lookup addr ≠ none)
      (clear : ∀ x, l.accounts addr = some x → ∀ key, x.committed key = 0) :
      Move l (l.create addr (l.balanceOf addr))
  | read (l : Ledger) (addr : Address) (x : Account) (key : Hash)
      (recorded : l.record.lookup addr ≠ none) (found : l.accounts addr = some x) :
      Move l (l.put addr (some (x.touch key)))
  | edit (l : Ledger) (addr : Address) (edit : Edit) (x : Account)
      (recorded : l.record.lookup addr ≠ none) (found : l.accounts addr = some (edit.undo x)) :
      Move l (l.edit addr edit x)
  | touch (l : Ledger) (addr : Address) (recorded : l.record.lookup addr ≠ none) : Move l (l.touch addr)
  | undo (l l' : Ledger) (change : Change) (rest : List Change) (head : l.changes = change :: rest)
      (undone : l.undo change = .ok l') : Move l { l' with changes := rest }
  | revise (l : Ledger) (revisions : List (Int × Nat)) (next : Int) :
      Move l { l with revisions := revisions, next := next }

abbrev Moves : Ledger → Ledger → Prop := Relation.ReflTransGen Move

def Creatable (l : Ledger) : Op → Prop
  | .createAccount addr => l.record.lookup addr ≠ none ∧
      ∀ x, l.accounts addr = some x → ∀ key, x.committed key = 0
  | _ => True

section

include l addr

@[simp] theorem lookUp_accounts : (l.lookUp addr).accounts = l.accounts := by
  unfold lookUp
  split <;> rfl

@[simp] theorem lookUp_changes : (l.lookUp addr).changes = l.changes := by
  unfold lookUp
  split <;> rfl

theorem lookUp_recorded : (l.lookUp addr).record.lookup addr ≠ none := by
  unfold lookUp
  split
  · rename_i found
    rw [found]
    exact Option.some_ne_none _
  · simp

theorem getOrNew_moves :
    Moves l (l.getOrNew addr).2 ∧ (l.getOrNew addr).2.record.lookup addr ≠ none ∧
      (l.getOrNew addr).2.accounts addr = some (l.getOrNew addr).1 := by
  have first : Move l (l.lookUp addr) := .lookUp l addr
  have recorded := lookUp_recorded l addr
  unfold getOrNew
  cases found : l.accounts addr with
  | some x => exact ⟨.single first, recorded, by simpa using found⟩
  | none =>
    have absent : (l.lookUp addr).balanceOf addr = 0 := by simp [balanceOf, found]
    have second : Move (l.lookUp addr) ((l.lookUp addr).create addr ((l.lookUp addr).balanceOf addr)) :=
      .create _ addr recorded (by simp [found])
    rw [absent] at second
    exact ⟨.tail (.single first) second, recorded, by simp [create, put]⟩

theorem put_put (x y : Option Account) : (l.put addr x).put addr y = l.put addr y := by
  simp [put]

theorem put_edit (y : Option Account) (edit : Edit) (x : Account) :
    (l.put addr y).edit addr edit x = l.edit addr edit x := by
  simp [Ledger.edit, push, put]

theorem change_moves (edit : Account → Edit) (body : Account → Account) (undone : ∀ x, (edit x).undo (body x) = x) :
    Moves l (l.change addr edit body) := by
  obtain ⟨moves, recorded, found⟩ := getOrNew_moves l addr
  refine moves.tail (.edit _ addr _ _ recorded ?_)
  rw [undone]
  exact found

end

theorem addBalance_moves (keccak : Bytes → Hash) (l : Ledger) (addr : Address) (amount : Int) :
    Moves l (l.addBalance keccak addr amount) := by
  obtain ⟨moves, recorded, found⟩ := getOrNew_moves l addr
  unfold addBalance
  simp only
  split
  · split
    · exact moves.tail (.touch _ addr recorded)
    · exact moves
  · exact moves.tail (.edit _ addr _ _ recorded found)

theorem subBalance_moves (l : Ledger) (addr : Address) (amount : Int) :
    Moves l (l.subBalance addr amount) := by
  obtain ⟨moves, recorded, found⟩ := getOrNew_moves l addr
  unfold subBalance
  simp only
  split
  · exact moves
  · exact moves.tail (.edit _ addr _ _ recorded found)

theorem setState_moves (l : Ledger) (addr : Address) (key value : Hash) :
    Moves l (l.setState addr key value) := by
  obtain ⟨moves, recorded, found⟩ := getOrNew_moves l addr
  have read := moves.tail (.read _ addr _ key recorded found)
  unfold setState
  simp only
  split
  · exact read
  · let x := (l.getOrNew addr).1
    have undone : Edit.undo (.storage key (x.current key)) ((x.touch key).write key value) = x.touch key := by
      simp [Edit.undo, Account.write, Account.touch]
    have last : Move _ _ := .edit ((l.getOrNew addr).2.put addr (some (x.touch key))) addr
      (.storage key (x.current key)) ((x.touch key).write key value) recorded (by simp [put, undone])
    rw [put_edit] at last
    exact read.tail last

theorem undo_edited {l l' : Ledger} {addr : Address} {edit : Edit} (undone : l.undo (.edited addr edit) = .ok l') :
    l' = l.lookUp addr ∨ ∃ x, l.accounts addr = some x ∧ l' = (l.lookUp addr).put addr (some (edit.undo x)) := by
  simp only [undo] at undone
  split at undone
  · split at undone <;> cases undone
    exact .inl rfl
  · rename_i x found
    cases undone
    exact .inr ⟨x, found, rfl⟩

theorem undoChanges_moves (snapshot : Nat) (changes : List Change) (l l' : Ledger)
    (entries : l.changes = changes) (undone : undoChanges snapshot changes l = .ok l') : Moves l l' := by
  induction changes generalizing l with
  | nil =>
    cases undone
    exact .refl
  | cons change rest ih =>
    simp only [undoChanges] at undone
    split at undone
    · obtain ⟨middle, first, later⟩ := Machine.bind_ok.mp undone
      exact .head (.undo l middle change rest entries first) (ih _ rfl later)
    · cases undone
      exact .refl

theorem revert_moves (l l' : Ledger) (number : Nat) (reverted : l.revert number = .ok l') : Moves l l' := by
  simp only [revert] at reverted
  split at reverted
  · cases reverted
  · split at reverted
    · cases reverted
    · obtain ⟨middle, undone, last⟩ := Machine.bind_ok.mp reverted
      cases last
      exact (undoChanges_moves _ _ l middle rfl undone).tail (.revise middle _ middle.next)

theorem exec_moves (keccak : Bytes → Hash) (l l' : Ledger) (op : Op) (value : Value)
    (creatable : l.Creatable op) (executed : l.exec keccak op = .ok (value, l')) : Moves l l' := by
  have query (addr : Address) : Moves l (l.lookUp addr) := .single (.lookUp l addr)
  cases op with
  | exist addr | empty addr | getBalance addr | getNonce addr | getCode addr | getCodeHash addr
  | getCommittedState addr =>
    cases executed
    exact query addr
  | getState addr key =>
    simp only [exec] at executed
    split at executed <;> cases executed
    · exact query addr
    · rename_i x found
      exact (query addr).tail (.read _ addr x key (lookUp_recorded l addr) (by simpa using found))
  | addBalance addr amount => cases executed; exact addBalance_moves keccak l addr amount
  | subBalance addr amount => cases executed; exact subBalance_moves l addr amount
  | setBalance addr | setNonce addr | setCode addr =>
    cases executed
    exact change_moves l addr _ _ fun _ => rfl
  | setState addr key value => cases executed; exact setState_moves l addr key value
  | suicide addr =>
    simp only [exec] at executed
    split at executed <;> cases executed
    · exact query addr
    · rename_i x found
      exact (query addr).tail (.edit _ addr _ _ (lookUp_recorded l addr) (by simpa [Edit.undo] using found))
  | createAccount addr =>
    cases executed
    exact .single (.create l addr creatable.1 creatable.2)
  | snapshot => cases executed; exact .single (.revise l _ _)
  | revertToSnapshot number =>
    obtain ⟨middle, reverted, last⟩ := Machine.bind_ok.mp executed
    cases last
    exact revert_moves l l' number reverted

end Ledger

end IDWDetector.State
