import IDWDetector.Research.CodeReferences

open Rlp Go

namespace IDWDetector

variable {keccak : Bytes → Hash}

namespace SubstateDB

variable {db : SubstateDB}

theorem Resolves.put {codeHash : Hash} (resolves : db.Resolves keccak codeHash) (key value : Bytes) :
    (db.write (.put key value)).Resolves keccak codeHash := by
  rcases resolves with empty | ⟨code, found⟩
  · exact .inl empty
  · right
    simp only [write, Map.lookup_set]
    split
    · exact ⟨value, rfl⟩
    · exact ⟨code, found⟩

theorem Resolves.deleteSubstate {codeHash : Hash} (resolves : db.Resolves keccak codeHash) (block tx : Uint64) :
    (db.write (.delete (stage1SubstateKey block tx))).Resolves keccak codeHash := by
  rcases resolves with empty | ⟨code, found⟩
  · exact .inl empty
  · exact .inr ⟨code, (Map.lookup_delete_of_ne _ (stage1CodeKey_ne codeHash block tx)).trans found⟩

variable (legible : db.Legible keccak)
include legible

theorem Legible.put {key value : Bytes}
    (fits : (∃ codeHash, key = stage1CodeKey codeHash) ∨ ∃ block tx stored, key = stage1SubstateKey block tx ∧
      StoredRLP.encodeToBytes stored = .ok value ∧ stored.current.Readable (db.Resolves keccak)) :
    (db.write (.put key value)).Legible keccak := by
  intro key' value' found
  refine ((Map.of_lookup_set found).elim ?_ (legible key' value')).imp_right ?_
  · rintro ⟨rfl, rfl⟩
    exact fits
  · rintro ⟨block, tx, stored, isSubstate, encoded, readable⟩
    exact ⟨block, tx, stored, isSubstate, encoded, readable.mono fun _ resolves => resolves.put key value⟩

theorem Legible.deleteSubstate (block tx : Uint64) :
    (db.write (.delete (stage1SubstateKey block tx))).Legible keccak := by
  intro key value found
  refine (legible key value (Map.of_lookup_delete found)).imp_right ?_
  rintro ⟨block', tx', stored, isSubstate, encoded, readable⟩
  exact ⟨block', tx', stored, isSubstate, encoded, readable.mono fun _ resolves => resolves.deleteSubstate block tx⟩

theorem Legible.writeCodes {codes : List Write} (only : ∀ w ∈ codes, ∃ code, w ∈ putCode keccak code) :
    (db.writeAll codes).Legible keccak ∧
      ∀ codeHash, db.Resolves keccak codeHash ∨ (∃ code, .put (stage1CodeKey codeHash) code ∈ codes) →
        (db.writeAll codes).Resolves keccak codeHash := by
  induction codes generalizing db with
  | nil => exact ⟨legible, fun _ held => held.resolve_right (by simp)⟩
  | cons w rest ih =>
    obtain ⟨code, written⟩ := only w List.mem_cons_self
    obtain ⟨-, rfl⟩ := mem_putCode.mp written
    obtain ⟨kept, holds⟩ := ih (legible.put (.inl ⟨keccak code, rfl⟩)) fun w member =>
      only w (List.mem_cons_of_mem _ member)
    refine ⟨kept, fun codeHash held => holds codeHash ?_⟩
    rcases held with resolves | ⟨other, listed⟩
    · exact .inl (resolves.put _ _)
    · rcases List.mem_cons.mp listed with here | later
      · left
        injection here with key same
        right
        rw [key]
        exact ⟨code, Map.lookup_set_self _ _ _⟩
      · exact .inr ⟨other, later⟩

theorem Legible.putSubstate {orders : RangeOrders} {substate : Substate} (enumerate : orders.Enumerate substate)
    (memoized : substate.message.Memoized keccak) (block tx : Uint64) :
    (db.writeAll (putSubstate keccak orders block tx substate).writes).Legible keccak := by
  rw [← List.take_length (l := (SubstateDB.putSubstate keccak orders block tx substate).writes)]
  obtain ⟨codes, only, same | ⟨s, value, built, encoded, all, same⟩⟩ := putSubstate_cases enumerate block tx _
  · rw [same]
    exact (legible.writeCodes only).1
  · obtain ⟨kept, holds⟩ := legible.writeCodes only
    rw [same, writeAll_append]
    refine kept.put (.inr ⟨block, tx, .latest s, rfl, encoded, ?_⟩)
    refine (newSubstateRLP_resolved built memoized fun code has => holds _ ?_).readable
    by_cases empty : code = []
    · exact .inl (.inl (congrArg keccak empty))
    · exact .inr ⟨code, all code has _ (mem_putCode.mpr ⟨empty, rfl⟩)⟩

end SubstateDB

inductive StoreOp
  | regular (op : DbOp)
  | raw (block tx : Uint64) (value : Bytes)
deriving DecidableEq

namespace StoreOp

def writes (keccak : Bytes → Hash) : StoreOp → List Write
  | regular op => op.writes keccak
  | raw block tx value => [.put (stage1SubstateKey block tx) value]

/-- A raw write stores a value in one of the layouts, and the code that it refers to is present. -/
def Fits (keccak : Bytes → Hash) (db : SubstateDB) : StoreOp → Prop
  | regular op => op.Valid keccak
  | raw _ _ value => ∃ stored, StoredRLP.encodeToBytes stored = .ok value ∧
      stored.current.Readable (db.Resolves keccak)

def apply (keccak : Bytes → Hash) (db : SubstateDB) (op : StoreOp) : SubstateDB := db.writeAll (op.writes keccak)

def run (keccak : Bytes → Hash) (ops : List StoreOp) : SubstateDB := ops.foldl (apply keccak) ⟨.empty⟩

def Fitting (keccak : Bytes → Hash) : SubstateDB → List StoreOp → Prop
  | _, [] => True
  | db, op :: rest => op.Fits keccak db ∧ Fitting keccak (apply keccak db op) rest

theorem legible {db : SubstateDB} {op : StoreOp} (holds : db.Legible keccak) (fits : op.Fits keccak db) :
    (apply keccak db op).Legible keccak := by
  cases op with
  | regular op =>
    cases op with
    | putSubstate orders block tx substate => exact holds.putSubstate fits.1 fits.2 block tx
    | putCode code => exact (holds.writeCodes fun w member => ⟨code, member⟩).1
    | deleteSubstate block tx => exact holds.deleteSubstate block tx
  | raw block tx value =>
    obtain ⟨stored, encoded, readable⟩ := fits
    exact holds.put (.inr ⟨block, tx, stored, rfl, encoded, readable⟩)

theorem run_legible {db : SubstateDB} {ops : List StoreOp} (holds : db.Legible keccak)
    (fitting : Fitting keccak db ops) : (ops.foldl (apply keccak) db).Legible keccak := by
  induction ops generalizing db with
  | nil => exact holds
  | cons op rest ih => exact ih (legible holds fitting.1) fitting.2

end StoreOp

/-- After any run, `GetBlockSubstates` returns what `HasSubstate` and `GetSubstate` say of its transactions. -/
theorem block_reads_agree {keccak : Bytes → Hash} {ops : List StoreOp} (fitting : StoreOp.Fitting keccak ⟨.empty⟩ ops)
    {block : Uint64} {order : List Bytes} (iterates : (StoreOp.run keccak ops).Iterates block order) :
    ∃ txSubstate, (StoreOp.run keccak ops).getBlockSubstates keccak order block = .ok txSubstate ∧
      (∀ tx, tx ∈ txSubstate.keys ↔ (StoreOp.run keccak ops).hasSubstate block tx = true) ∧
      ∀ tx substate, txSubstate.lookup tx = some substate ↔
        (StoreOp.run keccak ops).getSubstate keccak block tx = .ok substate := by
  have start : SubstateDB.Legible keccak ⟨.empty⟩ := by
    rintro key value ⟨⟩
  have legible := StoreOp.run_legible start fitting
  exact SubstateDB.getBlockSubstates_agrees iterates (legible.readable iterates)

theorem SubstateDB.exists_iterates (db : SubstateDB) (block : Uint64) : ∃ order, db.Iterates block order := by
  refine ⟨(db.backend.keys.filter (stage1SubstateBlockPrefix block <+: ·)).toList, Finset.nodup_toList _, fun key => ?_⟩
  rw [Finset.mem_toList, Finset.mem_filter]

/-- A recorded creation and, in the same block, a call that an upgrade copied in the Berlin layout. -/
theorem block_reads_agree_mixed :
    ∃ value order txSubstate substate, (StoredRLP.berlin berlinCall).encodeToBytes = .ok value ∧
      SubstateDB.getBlockSubstates stopKeccak (StoreOp.run stopKeccak
        [.regular (.putSubstate ⟨[1], [1], [4]⟩ 5 0 stopCreation), .raw 5 1 value]) order 5 = .ok txSubstate ∧
      txSubstate.lookup 1 = some substate ∧ (StoreOp.run stopKeccak
        [.regular (.putSubstate ⟨[1], [1], [4]⟩ 5 0 stopCreation), .raw 5 1 value]).getSubstate stopKeccak 5 1 =
          .ok substate := by
  obtain ⟨value, encoded⟩ := berlinCall_encodes
  obtain ⟨order, iterates⟩ := SubstateDB.exists_iterates (StoreOp.run stopKeccak
    [.regular (.putSubstate ⟨[1], [1], [4]⟩ 5 0 stopCreation), .raw 5 1 value]) 5
  have fitting : StoreOp.Fitting stopKeccak ⟨.empty⟩
      [.regular (.putSubstate ⟨[1], [1], [4]⟩ 5 0 stopCreation), .raw 5 1 value] := by
    refine ⟨⟨stopCreation_enumerate, by rintro hash ⟨⟩⟩,
      ⟨.berlin berlinCall, encoded, ⟨?_, ?_⟩, ⟨?_, ?_⟩, nofun⟩, trivial⟩
    · decide
    · intro account member
      cases List.mem_singleton.mp member
      exact .inl rfl
    · decide
    · intro account member
      cases List.mem_singleton.mp member
      exact .inl rfl
  obtain ⟨txSubstate, collected, keys, entries⟩ := block_reads_agree fitting iterates
  have present : 1 ∈ txSubstate.keys := by
    rw [keys]
    exact Option.isSome_iff_exists.mpr ⟨value, Map.lookup_set_self _ _ _⟩
  obtain ⟨substate, found⟩ := (Map.mem_keys_iff _ _).mp present
  exact ⟨value, order, txSubstate, substate, encoded, collected, found, (entries 1 substate).mp found⟩

end IDWDetector
