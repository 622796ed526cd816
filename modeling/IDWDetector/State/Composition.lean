import IDWDetector.State.Exactness

namespace IDWDetector.State

open Go Machine

variable {addr : Address} {key : Hash} {first s : StateDB}

/-- An alloc, with the orders in which `range` yields its accounts and their slots. -/
structure Listing where
  alloc : SubstateAlloc
  order : List Address
  slots : Address → List Hash

/-- Go iterates a map in some order, each key once. -/
structure Listing.Enumerates (listing : Listing) : Prop where
  order : Map.Enumerates listing.order listing.alloc
  slots : ∀ addr sa, listing.alloc.lookup addr = some (some sa) → Map.Enumerates (listing.slots addr) sa.storage

def setAllocs (s : StateDB) : List Listing → Except Panic StateDB
  | [] => .ok s
  | listing :: rest => do
    let s ← setAccounts listing.alloc listing.slots s listing.order
    setAllocs s rest

def makeOffTheChainStateDBWithTxs (keccak : Bytes → Hash) (allocs : List Listing) : Except Panic StateDB := do
  let s ← setAllocs (StateDB.new .empty) allocs
  s.commit keccak false

theorem Overlaid.setAllocs {base : SubstateAlloc} {listings : List Listing} (overlaid : Overlaid base s)
    (enumerated : ∀ listing ∈ listings, listing.Enumerates)
    (filled : ∀ listing ∈ listings, ∀ addr, listing.alloc.lookup addr ≠ some none) :
    ∃ s', setAllocs s listings = .ok s' ∧
      Overlaid (listings.foldl (fun base listing => overlay base listing.alloc) base) s' := by
  induction listings generalizing base s with
  | nil => exact ⟨s, rfl, overlaid⟩
  | cons listing rest ih =>
    have listed := enumerated listing List.mem_cons_self
    have entries (addr : Address) (member : addr ∈ listing.order) : ∃ sa, listing.alloc.lookup addr = some (some sa) ∧
        Map.Enumerates (listing.slots addr) sa.storage := by
      obtain ⟨entry, found⟩ := (Map.mem_keys_iff _ _).mp ((listed.order.mem_iff addr).mp member)
      cases entry with
      | none => exact absurd found (filled listing List.mem_cons_self addr)
      | some sa => exact ⟨sa, found, listed.slots addr sa found⟩
    obtain ⟨middle, built, executed, overlaid', lookup⟩ := overlaid.setAccounts listing.order listed.order.nodup entries
    have same : built = overlay base listing.alloc := by
      apply Map.ext
      intro addr
      rw [lookup]
      split
      · rfl
      · rename_i absent
        rw [listed.order.mem_iff] at absent
        simp [lookup_overlay, (Map.not_mem_keys _ _).mp absent]
    subst same
    obtain ⟨s', executed', overlaid''⟩ := ih overlaid' (fun l member => enumerated l (List.mem_cons_of_mem _ member))
      fun l member => filled l (List.mem_cons_of_mem _ member)
    exact ⟨s', bind_ok.mpr ⟨middle, executed, executed'⟩, overlaid''⟩

theorem makeOffTheChainStateDBWithTxs_spec (keccak : Bytes → Hash) {listings : List Listing}
    (enumerated : ∀ listing ∈ listings, listing.Enumerates)
    (filled : ∀ listing ∈ listings, ∀ addr, listing.alloc.lookup addr ≠ some none) :
    ∃ t, makeOffTheChainStateDBWithTxs keccak listings = .ok t ∧ ∀ addr,
      match (listings.foldl (fun base listing => overlay base listing.alloc) .empty).lookup addr with
      | none => t.liveObject addr = none
      | some entry => ∃ obj sa, t.liveObject addr = some obj ∧ entry = some sa ∧ obj.nonce = sa.nonce ∧
          obj.balance = sa.balance ∧ obj.code = sa.code ∧ ∀ key, obj.current key = sa.storage.getD key 0 := by
  obtain ⟨s, executed, overlaid⟩ := Overlaid.start.setAllocs enumerated filled
  obtain ⟨t, committed, -, -, stored, absent⟩ := overlaid.commit keccak
  refine ⟨t, bind_ok.mpr ⟨s, executed, committed⟩, ?_⟩
  intro addr
  split
  · rename_i missing
    have none := absent addr ((Map.not_mem_keys _ _).mpr missing)
    simp [StateDB.liveObject, none]
  · rename_i entry found
    obtain ⟨obj, sa, loaded, same, object⟩ := stored addr ((Map.mem_keys_iff _ _).mpr ⟨entry, found⟩)
    rw [found] at same
    refine ⟨obj, sa, ?_, Option.some.inj same, object.nonce, object.balance, object.code, ?_⟩
    · simp [StateDB.liveObject, StateDB.peek, loaded, object.settled.kept]
    · intro key
      rw [object.settled.current]
      exact object.committed key

/-- A transaction, with the states before it, before its `Finalise` and after it. -/
structure Tx where
  deleteEmptyObjects : Bool
  thash : Hash
  ti : Int
  ops : List Op
  before : StateDB
  last : StateDB
  after : StateDB

namespace Tx

open StateDB

def out (tx : Tx) : SubstateAlloc := tx.after.researchPostAlloc

/-- The transaction was run, with operations as the EVM issues them. -/
structure Ran (keccak : Bytes → Hash) (tx : Tx) : Prop where
  boundary : tx.before.AtBoundary fun obj => deletes keccak tx.deleteEmptyObjects obj = true
  issued : Machine.Along (exec keccak tx.before.nextRevisionId) Creatable (tx.before.prepare tx.thash tx.ti) tx.ops
  reads : readBefore [] tx.ops = true
  operated : ∃ values, (tx.before.prepare tx.thash tx.ti).operate keccak tx.ops = .ok (values, tx.last)
  finalised : tx.last.finalise keccak tx.deleteEmptyObjects = .ok tx.after

/-- No touched slot and no account of the transaction is missing in its record. -/
structure Lossless (keccak : Bytes → Hash) (tx : Tx) : Prop where
  kept : Machine.Along (Machine.remember (exec keccak tx.before.nextRevisionId)) (fun memory op =>
    memory.2.Clear op ∧ memory.2.Keeps tx.before.nextRevisionId (slotsOf memory.1) op)
    ([], tx.before.prepare tx.thash tx.ti) tx.ops
  redirtied : tx.last.Redirtied

end Tx

/-- What a transaction does to the accounts, as far as its record tells. -/
structure Recounted (a b : Address → Option Account) (ops : List Op) (out : SubstateAlloc) : Prop where
  out : ∀ addr, out.lookup addr =
    if addr ∈ lookedUp ops then ((b addr).map (Account.recordOf (slotsOf ops addr))).map some else none
  unlooked : ∀ addr, addr ∉ lookedUp ops → (b addr).map Account.untouched = (a addr).map Account.untouched
  unseen : ∀ addr key, key ∉ slotsOf ops addr → b addr ≠ none →
    Account.valueAt (b addr) key = Account.valueAt (a addr) key

theorem StateDB.prepare_account (s : StateDB) (thash : Hash) (ti : Int) (first : Nat) (addr : Address) :
    ((s.prepare thash ti).ledger first).accounts addr = (s.account addr).map Account.untouched := by
  simp only [StateDB.ledger, StateDB.account, StateDB.peek, StateDB.prepare, Map.lookup_mapValues]
  cases s.stateObjects.lookup addr with
  | none =>
    cases s.trie.lookup addr with
    | none => rfl
    | some data => rfl
  | some obj =>
    simp only [Option.map_some, Option.bind_some, StateObject.live]
    split <;> rfl

theorem Account.valueAt_untouched (x : Option Account) (key : Hash) :
    Account.valueAt (x.map Account.untouched) key = Account.valueAt x key := by
  cases x <;> rfl

variable {keccak : Bytes → Hash} {tx : Tx} {ops : List Op}

theorem Ledger.valueAt_closed {deleteEmptyObjects dirty : Bool} {l : Ledger}
    (there : l.closed keccak deleteEmptyObjects addr dirty ≠ none) :
    Account.valueAt (l.closed keccak deleteEmptyObjects addr dirty) key = Account.valueAt (l.accounts addr) key := by
  unfold Ledger.closed at there ⊢
  split at there
  · rename_i marked
    rw [if_pos marked]
    cases found : l.accounts addr with
    | none => rfl
    | some x =>
      rw [found, Option.bind_some] at there
      rw [Option.bind_some]
      split at there
      · exact absurd rfl there
      · rename_i keeps
        rw [if_neg keeps]
        rfl
  · rename_i unmarked
    rw [if_neg unmarked]

theorem Tx.Ran.recounted (ran : tx.Ran keccak) (lossless : tx.Lossless keccak) :
    Recounted tx.before.account tx.after.account tx.ops tx.out := by
  obtain ⟨values, operated⟩ := ran.operated
  have fresh := ran.boundary.fresh tx.thash tx.ti
  obtain ⟨final, models, watched, tracks, covers⟩ :=
    ran.boundary.watched (fun _ _ marked => marked) ran.issued ran.reads lossless.kept operated
  obtain ⟨s', finalised, -, post⟩ :=
    models.finalise_noted _ _ (StateDB.operate_post operated) tracks.noted fun _ marked => marked
  rw [ran.finalised] at finalised
  cases finalised
  have closed (addr : Address) : tx.after.account addr = _ :=
    models.finalise_accounts tracks.noted (fun _ marked => marked) ran.finalised addr
  refine ⟨?_, ?_, ?_⟩
  · intro addr
    rw [Tx.out, post, models.post_eq watched tracks fresh.clean covers lossless.redirtied, closed]
    split <;> rfl
  · intro addr unlooked
    have missing : final.record.lookup addr = none := by
      by_contra recorded
      exact unlooked (watched.recorded addr recorded)
    obtain ⟨sticky, away⟩ := tracks.unrecorded addr missing
    have clean := models.not_dirty sticky away
    have same : final.bare addr = _ := tracks.coherent.unchanged away
    rw [closed, Ledger.closed, if_neg (by simpa using clean), ← StateDB.prepare_account tx.before tx.thash tx.ti
      tx.before.nextRevisionId]
    exact same
  · intro addr key unseen there
    have value : Account.valueAt (final.bare addr) key = Account.valueAt
        (((tx.before.prepare tx.thash tx.ti).ledger tx.before.nextRevisionId).accounts addr) key := by
      apply tracks.coherent.value_of_unwritten
      · exact fun prev member => unseen (watched.written addr key prev member)
      · intro prev member
        cases start : ((tx.before.prepare tx.thash tx.ti).ledger tx.before.nextRevisionId).accounts addr with
        | none => rfl
        | some x =>
          have zero := tracks.kept addr prev x member start key
          rw [← fresh.clean addr x start] at zero
          exact zero
    rw [StateDB.prepare_account, Account.valueAt_untouched, Ledger.bare, Account.valueAt_untouched] at value
    rw [← value, closed]
    rw [closed] at there
    exact Ledger.valueAt_closed there

def StateDB.Reopens (s t : StateDB) : Prop :=
  ∀ addr, (t.account addr).map Account.untouched = (s.account addr).map Account.untouched

/-- Consecutive transactions, on the same `StateDB` or on one that was opened anew with the accounts left by the one
    before. -/
inductive Chain (keccak : Bytes → Hash) (first : StateDB) : List Tx → StateDB → Prop
  | start : Chain keccak first [] first
  | next {txs : List Tx} {s : StateDB} {tx : Tx} (chain : Chain keccak first txs s) (reopens : s.Reopens tx.before)
      (ran : tx.Ran keccak) : Chain keccak first (txs ++ [tx]) tx.after

/-- No transaction removes an account that the output alloc of an earlier one holds. -/
def Retained (txs : List Tx) : Prop :=
  txs.Pairwise fun old tx => ∀ addr ∈ old.out.keys, addr ∈ lookedUp tx.ops → addr ∈ tx.out.keys

/-- The allocs of the transactions, each over those before it, against the accounts that the last
    one has left. -/
structure Composes (first : StateDB) (txs : List Tx) (last : StateDB) (base : SubstateAlloc) : Prop where
  recorded : ∀ addr ∈ base.keys, ∃ tx ∈ txs, addr ∈ tx.out.keys
  entry : ∀ addr entry, base.lookup addr = some entry → ∃ sa x, entry = some sa ∧ last.account addr = some x ∧
    sa.nonce = x.nonce ∧ sa.balance = x.balance ∧ sa.code = x.code ∧
    ∀ key ∈ slotsOf (txs.flatMap Tx.ops) addr, sa.storage.getD key 0 = x.current key
  absent : ∀ addr ∈ lookedUp (txs.flatMap Tx.ops), base.lookup addr = none → last.account addr = none
  unlooked : ∀ addr, addr ∉ lookedUp (txs.flatMap Tx.ops) → base.lookup addr = none ∧
    (last.account addr).map Account.untouched = (first.account addr).map Account.untouched

theorem mem_slotsOf_append {ops more : List Op} :
    key ∈ slotsOf (ops ++ more) addr ↔ key ∈ slotsOf ops addr ∨ key ∈ slotsOf more addr := by
  simp only [mem_slotsOf, List.mem_append, or_and_right, exists_or]

theorem lookedUp_append (ops more : List Op) : lookedUp (ops ++ more) = lookedUp ops ++ lookedUp more :=
  List.filterMap_append

theorem lookedUp_of_slot (member : key ∈ slotsOf ops addr) : addr ∈ lookedUp ops := by
  obtain ⟨op, inside, slot⟩ := mem_slotsOf.mp member
  refine List.mem_filterMap.mpr ⟨op, inside, ?_⟩
  cases op <;> cases slot <;> rfl

theorem lookup_recordOf (slots : Finset Hash) (x : Account) (key : Hash) :
    (Account.recordOf slots x).storage.lookup key = if key ∈ slots then some (x.current key) else none := by
  simp only [Account.recordOf, StateDB.slotValues, Map.lookup_overwrite, Map.lookup_empty]

theorem Composes.next {txs : List Tx} {base : SubstateAlloc} (composes : Composes first txs s base)
    (reopens : s.Reopens tx.before) (recounted : Recounted tx.before.account tx.after.account tx.ops tx.out)
    (retained : ∀ addr ∈ base.keys, addr ∈ lookedUp tx.ops → addr ∈ tx.out.keys) :
    Composes first (txs ++ [tx]) tx.after (overlay base tx.out) := by
  have ops : (txs ++ [tx]).flatMap Tx.ops = txs.flatMap Tx.ops ++ tx.ops := by simp
  have fields {x y : Option Account} (same : x.map Account.untouched = y.map Account.untouched) (key : Hash) :
      Account.valueAt x key = Account.valueAt y key := by
    rw [← Account.valueAt_untouched, same, Account.valueAt_untouched]
  -- the entries of the last alloc are those of the accounts that the transaction has looked up and left
  have written {addr : Address} {entry : Option SubstateAccount} (found : tx.out.lookup addr = some entry) :
      ∃ x, tx.after.account addr = some x ∧ entry = some (x.recordOf (slotsOf tx.ops addr)) := by
    rw [recounted.out] at found
    split at found
    · obtain ⟨record, there, rfl⟩ := Option.map_eq_some_iff.mp found
      obtain ⟨x, account, rfl⟩ := Option.map_eq_some_iff.mp there
      exact ⟨x, account, rfl⟩
    · cases found
  refine ⟨?_, ?_, ?_, ?_⟩
  · intro addr member
    obtain ⟨entry, found⟩ := (Map.mem_keys_iff _ _).mp member
    rw [lookup_overlay] at found
    cases last : tx.out.lookup addr with
    | some record =>
      exact ⟨tx, by simp, (Map.mem_keys_iff _ _).mpr ⟨record, last⟩⟩
    | none =>
      rw [last] at found
      obtain ⟨old, inside, listed⟩ := composes.recorded addr ((Map.mem_keys_iff _ _).mpr ⟨entry, found⟩)
      exact ⟨old, List.mem_append_left _ inside, listed⟩
  · intro addr entry found
    rw [lookup_overlay] at found
    rw [ops]
    cases last : tx.out.lookup addr with
    | some record =>
      obtain ⟨x, account, rfl⟩ := written last
      rw [last] at found
      cases found
      refine ⟨_, x, rfl, account, rfl, rfl, rfl, ?_⟩
      intro key seen
      rw [getD_onto, lookup_recordOf]
      split_ifs with unseen
      · rfl
      · have earlier := (mem_slotsOf_append.mp seen).resolve_right unseen
        have value := recounted.unseen addr key unseen (by simp [account])
        rw [fields (reopens addr), account] at value
        cases old : base.lookup addr with
        | none =>
          rw [composes.absent addr (lookedUp_of_slot earlier) old] at value
          exact value.symm
        | some entry =>
          obtain ⟨sa, y, rfl, there, -, -, -, slots⟩ := composes.entry addr entry old
          rw [there] at value
          exact (slots key earlier).trans value.symm
    | none =>
      rw [last] at found
      have unlooked : addr ∉ lookedUp tx.ops := by
        intro looked
        have member := retained addr ((Map.mem_keys_iff _ _).mpr ⟨entry, found⟩) looked
        exact (Map.not_mem_keys _ _).mpr last member
      obtain ⟨sa, y, rfl, there, nonce, balance, code, slots⟩ := composes.entry addr entry found
      have same := (recounted.unlooked addr unlooked).trans (reopens addr)
      rw [there] at same
      obtain ⟨x, account, untouched⟩ := Option.map_eq_some_iff.mp same
      refine ⟨sa, x, rfl, account, nonce.trans (congrArg Account.nonce untouched).symm,
        balance.trans (congrArg Account.balance untouched).symm, code.trans (congrArg Account.code untouched).symm, ?_⟩
      intro key seen
      rcases mem_slotsOf_append.mp seen with earlier | now
      · exact (slots key earlier).trans (congrFun (congrArg Account.current untouched) key).symm
      · exact absurd (lookedUp_of_slot now) unlooked
  · intro addr looked missing
    rw [lookup_overlay] at missing
    obtain ⟨unset, older⟩ := Option.or_eq_none_iff.mp missing
    have last : tx.out.lookup addr = none := Option.map_eq_none_iff.mp unset
    rw [recounted.out] at last
    split at last
    · simpa using last
    · rename_i unlooked
      rw [ops, lookedUp_append, List.mem_append] at looked
      have absent := composes.absent addr (looked.resolve_right unlooked) older
      have same := (recounted.unlooked addr unlooked).trans (reopens addr)
      rw [absent] at same
      exact Option.map_eq_none_iff.mp same
  · intro addr unlooked
    rw [ops, lookedUp_append, List.mem_append, not_or] at unlooked
    obtain ⟨older, same⟩ := composes.unlooked addr unlooked.1
    refine ⟨?_, ?_⟩
    · rw [lookup_overlay, recounted.out, if_neg unlooked.2, older]
      rfl
    · rw [recounted.unlooked addr unlooked.2, reopens addr, same]

theorem Chain.composes {last : StateDB} {txs : List Tx} (chain : Chain keccak first txs last)
    (lossless : ∀ tx ∈ txs, tx.Lossless keccak) (retained : Retained txs) :
    Composes first txs last (txs.foldl (fun base tx => overlay base tx.out) .empty) := by
  induction chain with
  | start =>
    refine ⟨by simp, ?_, ?_, ?_⟩
    · intro addr entry found
      cases found
    · intro addr looked
      cases looked
    · exact fun addr _ => ⟨rfl, rfl⟩
  | next chain reopens ran ih =>
    rename_i txs s tx
    obtain ⟨older, -, across⟩ := List.pairwise_append.mp retained
    have composes := ih (fun tx member => lossless tx (List.mem_append_left _ member)) older
    rw [List.foldl_append]
    refine composes.next reopens (ran.recounted (lossless tx (by simp))) ?_
    intro addr member looked
    obtain ⟨old, inside, listed⟩ := composes.recorded addr member
    exact across old inside tx List.mem_cons_self addr listed looked

theorem Chain.ran {last : StateDB} {txs : List Tx} (chain : Chain keccak first txs last) (member : tx ∈ txs) :
    tx.Ran keccak := by
  induction chain with
  | start => cases member
  | next chain reopens ran ih =>
    rcases List.mem_append.mp member with earlier | now
    · exact ih earlier
    · cases List.mem_singleton.mp now
      exact ran

theorem Recounted.filled {a b : Address → Option Account} {out : SubstateAlloc} (recounted : Recounted a b ops out)
    (addr : Address) : out.lookup addr ≠ some none := by
  rw [recounted.out]
  split
  · cases b addr <;> simp
  · simp

/-- The output allocs of consecutive transactions give the state after the last one, if every account is looked up
    and none is removed that an earlier alloc holds. -/
theorem composition_agrees (keccak : Bytes → Hash) (first last : StateDB) (txs : List Tx) (listings : List Listing)
    (chain : Chain keccak first txs last) (outs : listings.map Listing.alloc = txs.map Tx.out)
    (enumerated : ∀ listing ∈ listings, listing.Enumerates) (lossless : ∀ tx ∈ txs, tx.Lossless keccak)
    (retained : Retained txs)
    (covered : ∀ addr, first.liveObject addr ≠ none → addr ∈ lookedUp (txs.flatMap Tx.ops)) :
    ∃ t, makeOffTheChainStateDBWithTxs keccak listings = .ok t ∧ ∀ addr,
      (t.liveObject addr).map (StateObject.recordOf (slotsOf (txs.flatMap Tx.ops) addr)) =
        (last.liveObject addr).map (StateObject.recordOf (slotsOf (txs.flatMap Tx.ops) addr)) := by
  have filled : ∀ listing ∈ listings, ∀ addr, listing.alloc.lookup addr ≠ some none := by
    intro listing member
    have inside : listing.alloc ∈ txs.map Tx.out := outs ▸ List.mem_map_of_mem member
    obtain ⟨tx, sent, same⟩ := List.mem_map.mp inside
    rw [← same]
    exact ((chain.ran sent).recounted (lossless tx sent)).filled
  have composes := chain.composes lossless retained
  obtain ⟨t, made, accounts⟩ := makeOffTheChainStateDBWithTxs_spec keccak enumerated filled
  rw [← List.foldl_map, outs, List.foldl_map] at accounts
  refine ⟨t, made, ?_⟩
  intro addr
  have found := accounts addr
  rw [StateDB.liveObject_recordOf last]
  split at found
  · rename_i missing
    have gone : last.account addr = none := by
      by_cases looked : addr ∈ lookedUp (txs.flatMap Tx.ops)
      · exact composes.absent addr looked missing
      · have same := (composes.unlooked addr looked).2
        have never : first.account addr = none := by
          by_contra there
          apply looked (covered addr _)
          intro missing
          rw [StateDB.account, StateDB.peek_live, missing] at there
          exact there rfl
        rw [never] at same
        exact Option.map_eq_none_iff.mp same
    rw [found]
    simp only [StateDB.account] at gone
    rw [gone]
    rfl
  · rename_i entry present
    obtain ⟨obj, sa, there, same, nonce, balance, code, current⟩ := found
    obtain ⟨sa', x, same', account, nonce', balance', code', slots⟩ := composes.entry addr entry present
    rw [same] at same'
    cases same'
    simp only [StateDB.account] at account
    have values : StateDB.slotValues (slotsOf (txs.flatMap Tx.ops) addr) obj.current =
        StateDB.slotValues (slotsOf (txs.flatMap Tx.ops) addr) x.current := by
      apply Map.ext
      intro key
      simp only [StateDB.slotValues, Map.lookup_overwrite]
      split
      · rename_i seen
        rw [current key, slots key seen]
      · rfl
    rw [there, account]
    simp only [Option.map_some, StateObject.recordOf, Account.recordOf, Account.info, values, nonce, balance, code,
      nonce', balance', code']

theorem Tx.Ran.boundary_after (ran : tx.Ran keccak) (lossless : tx.Lossless keccak)
    (journalled : tx.last.journal.entries ≠ []) :
    tx.after.AtBoundary fun obj => StateDB.deletes keccak tx.deleteEmptyObjects obj = true := by
  obtain ⟨values, operated⟩ := ran.operated
  obtain ⟨final, models, -, tracks, -⟩ :=
    ran.boundary.watched (fun _ _ marked => marked) ran.issued ran.reads lossless.kept operated
  exact models.finalise_boundary (ran.boundary.fresh tx.thash tx.ti) tracks (fun none => absurd none journalled)
    ran.finalised

/-- One more transaction of a block, after the deletion of empty accounts was introduced. -/
def Tx.send (keccak : Bytes → Hash) (s : StateDB) (ops : List Op) : Option Tx := do
  let result ← ((s.prepare 0 0).operate keccak ops).toOption
  let after ← (result.2.finalise keccak true).toOption
  some ⟨true, 0, 0, ops, s, result.2, after⟩

theorem Tx.send_ops (sent : Tx.send keccak s ops = some tx) : tx.ops = ops := by
  obtain ⟨result, -, rest⟩ := Option.bind_eq_some_iff.mp sent
  obtain ⟨after, -, same⟩ := Option.bind_eq_some_iff.mp rest
  cases same
  rfl

theorem Tx.send_ran (sent : Tx.send keccak s ops = some tx)
    (boundary : s.AtBoundary fun obj => StateDB.deletes keccak true obj = true)
    (issued : Along (StateDB.exec keccak s.nextRevisionId) StateDB.Creatable (s.prepare 0 0) ops)
    (reads : readBefore [] ops = true) :
    tx.Ran keccak ∧ tx.before = s ∧ tx.deleteEmptyObjects = true := by
  obtain ⟨⟨values, last⟩, operated, rest⟩ := Option.bind_eq_some_iff.mp sent
  obtain ⟨after, finalised, same⟩ := Option.bind_eq_some_iff.mp rest
  cases same
  exact ⟨⟨boundary, issued, reads, ⟨values, toOption_eq_some operated⟩,
    toOption_eq_some finalised⟩, rfl, rfl⟩

/-- An alloc whose accounts and slots are yielded in the order of their keys. -/
def Listing.sorted (alloc : SubstateAlloc) : Listing where
  alloc := alloc
  order := alloc.sortedKeys
  slots := fun addr => ((alloc.lookup addr).join.map fun sa => sa.storage.sortedKeys).getD []

theorem Listing.sorted_enumerates (alloc : SubstateAlloc) : (Listing.sorted alloc).Enumerates := by
  refine ⟨Map.sortedKeys_enumerates alloc, ?_⟩
  intro addr sa found
  have slots : (Listing.sorted alloc).slots addr = sa.storage.sortedKeys := by
    have entry : alloc.lookup addr = some (some sa) := found
    simp [Listing.sorted, entry]
  rw [slots]
  exact Map.sortedKeys_enumerates sa.storage

theorem Tx.lossless_of_first {op : Op} {rest : List Op} (ops : tx.ops = op :: rest)
    (first : ∀ id s, StateDB.Clear s op ∧ StateDB.Keeps id (slotsOf []) s op)
    (reads : ∀ later ∈ rest, ∃ addr key, later = .getState addr key)
    (unreset : StateDB.unreset tx.last.journal.entries = true) : tx.Lossless keccak := by
  refine ⟨?_, StateDB.redirtied_of_unreset unreset⟩
  rw [ops]
  refine ⟨first _ _, ?_⟩
  intro _ _ _
  apply Along.of_forall
  intro later member memory
  obtain ⟨addr, key, rfl⟩ := reads later member
  exact ⟨trivial, trivial⟩

theorem covered_fundedStorage (looked : (1 : Address) ∈ lookedUp ops) (addr : Address)
    (there : StateDB.fundedStorage.liveObject addr ≠ none) : addr ∈ lookedUp ops := by
  by_cases same : addr = 1
  · exact same ▸ looked
  · have missing : StateDB.fundedStorage.peek addr = none := by
      have trie : StateDB.fundedStorage.trie.lookup addr = none := Map.lookup_set_of_ne _ _ same
      simp only [StateDB.peek, trie]
      rfl
    rw [StateDB.liveObject, missing] at there
    exact absurd rfl there

theorem Chain.pair {ops more : List Op} {one two : Tx} (sent : Tx.send keccak s ops = some one)
    (sent' : Tx.send keccak one.after more = some two)
    (boundary : s.AtBoundary fun obj => StateDB.deletes keccak true obj = true)
    (uncreated : ∀ addr, .createAccount addr ∉ ops ++ more) (reads : readBefore [] ops = true)
    (reads' : readBefore [] more = true) (lossless : one.Lossless keccak) (journalled : one.last.journal.entries ≠ []) :
    Chain keccak s [one, two] two.after := by
  have issued (t : StateDB) (list : List Op) (none : ∀ addr, .createAccount addr ∉ list) :
      Along (StateDB.exec keccak t.nextRevisionId) StateDB.Creatable (t.prepare 0 0) list :=
    (StateDB.along_of_no_creation none).imp fun _ _ granted => granted.1
  obtain ⟨ran, before, flag⟩ := Tx.send_ran sent boundary
    (issued s ops fun addr member => uncreated addr (List.mem_append_left _ member)) reads
  have boundary' := ran.boundary_after lossless journalled
  rw [flag] at boundary'
  obtain ⟨ran', before', -⟩ := Tx.send_ran sent' boundary'
    (issued one.after more fun addr member => uncreated addr (List.mem_append_right _ member)) reads'
  have first : Chain keccak s ([] ++ [one]) one.after := .next .start (before ▸ fun _ => rfl) ran
  exact .next first (before' ▸ fun _ => rfl) ran'

theorem addBalance_lossless (addr : Address) (amount : Int) (id : Nat) (s : StateDB) :
    StateDB.Clear s (.addBalance addr amount) ∧ StateDB.Keeps id (slotsOf []) s (.addBalance addr amount) :=
  ⟨trivial, fun _ => rfl⟩

/-- Two transactions of a block; the second one makes an account. -/
theorem composition_agrees_block : ∃ one two t,
    Tx.send (fun _ => emptyCodeHash) StateDB.fundedStorage [.addBalance 1 3, .getState 1 0] = some one ∧
    Tx.send (fun _ => emptyCodeHash) one.after [.addBalance 2 1, .getState 1 0] = some two ∧
    makeOffTheChainStateDBWithTxs (fun _ => emptyCodeHash) [.sorted one.out, .sorted two.out] = .ok t ∧
    ∀ addr, (t.liveObject addr).map (StateObject.recordOf (slotsOf ([one, two].flatMap Tx.ops) addr)) =
      (two.after.liveObject addr).map (StateObject.recordOf (slotsOf ([one, two].flatMap Tx.ops) addr)) := by
  have returns : ((Tx.send (fun _ => emptyCodeHash) StateDB.fundedStorage [.addBalance 1 3, .getState 1 0]).any
      fun one => (Tx.send (fun _ => emptyCodeHash) one.after [.addBalance 2 1, .getState 1 0]).any fun two =>
        StateDB.unreset one.last.journal.entries && StateDB.unreset two.last.journal.entries &&
          decide (one.last.journal.entries ≠ [] ∧ one.out.keys ⊆ two.out.keys)) = true := by
    decide +kernel
  obtain ⟨one, sent, returns⟩ := (Option.any_eq_true _ _).mp returns
  obtain ⟨two, sent', returns⟩ := (Option.any_eq_true _ _).mp returns
  simp only [Bool.and_eq_true, decide_eq_true_eq] at returns
  obtain ⟨⟨unreset, unreset'⟩, journalled, kept⟩ := returns
  have same := Tx.send_ops sent
  have same' := Tx.send_ops sent'
  have reads (later : Op) (member : later ∈ [Op.getState 1 0]) : ∃ addr key, later = .getState addr key :=
    ⟨1, 0, List.mem_singleton.mp member⟩
  have lossless : one.Lossless fun _ => emptyCodeHash :=
    Tx.lossless_of_first same (addBalance_lossless 1 3) reads unreset
  have lossless' : two.Lossless fun _ => emptyCodeHash :=
    Tx.lossless_of_first same' (addBalance_lossless 2 1) reads unreset'
  have chain := Chain.pair sent sent' (StateDB.new_atBoundary _) (by simp) (by decide) (by decide) lossless journalled
  obtain ⟨t, made, accounts⟩ := composition_agrees (fun _ => emptyCodeHash) StateDB.fundedStorage two.after [one, two]
    [.sorted one.out, .sorted two.out] chain rfl
    (by simp [Listing.sorted_enumerates]) (by simp [lossless, lossless'])
    (by simpa [Retained] using fun addr member _ => kept member)
    (covered_fundedStorage (by simp [same, same', lookedUp, Op.addr]))
  exact ⟨one, two, t, sent, sent', made, accounts⟩

/-- An account that an earlier alloc holds and that is removed later is still set. -/
theorem removed_account_stays : ∃ one two t,
    Tx.send (fun _ => emptyCodeHash) StateDB.fundedStorage [.addBalance 1 3] = some one ∧
    Tx.send (fun _ => emptyCodeHash) one.after [.suicide 1] = some two ∧
    Chain (fun _ => emptyCodeHash) StateDB.fundedStorage [one, two] two.after ∧
    (∀ tx ∈ [one, two], tx.Lossless fun _ => emptyCodeHash) ∧
    makeOffTheChainStateDBWithTxs (fun _ => emptyCodeHash) [.sorted one.out, .sorted two.out] = .ok t ∧
    two.after.liveObject 1 = none ∧ t.liveObject 1 ≠ none := by
  have returns : ((Tx.send (fun _ => emptyCodeHash) StateDB.fundedStorage [.addBalance 1 3]).any
      fun one => (Tx.send (fun _ => emptyCodeHash) one.after [.suicide 1]).any fun two =>
        (makeOffTheChainStateDBWithTxs (fun _ => emptyCodeHash)
          [.sorted one.out, .sorted two.out]).toOption.any fun t =>
        StateDB.unreset one.last.journal.entries && StateDB.unreset two.last.journal.entries &&
          decide (one.last.journal.entries ≠ []) && (two.after.liveObject 1).isNone &&
            (t.liveObject 1).isSome) = true := by
    decide +kernel
  obtain ⟨one, sent, returns⟩ := (Option.any_eq_true _ _).mp returns
  obtain ⟨two, sent', returns⟩ := (Option.any_eq_true _ _).mp returns
  obtain ⟨t, made, returns⟩ := (Option.any_eq_true _ _).mp returns
  simp only [Bool.and_eq_true, decide_eq_true_eq] at returns
  obtain ⟨⟨⟨⟨unreset, unreset'⟩, journalled⟩, gone⟩, stays⟩ := returns
  have lossless : one.Lossless fun _ => emptyCodeHash :=
    Tx.lossless_of_first (Tx.send_ops sent) (addBalance_lossless 1 3) (by simp) unreset
  have lossless' : two.Lossless fun _ => emptyCodeHash :=
    Tx.lossless_of_first (Tx.send_ops sent') (fun _ _ => ⟨trivial, trivial⟩) (by simp) unreset'
  have chain := Chain.pair sent sent' (StateDB.new_atBoundary _) (by simp) (by decide) (by decide) lossless journalled
  exact ⟨one, two, t, sent, sent', chain, by simp [lossless, lossless'], toOption_eq_some made,
    Option.isNone_iff_eq_none.mp gone, Option.isSome_iff_ne_none.mp stays⟩

end IDWDetector.State
