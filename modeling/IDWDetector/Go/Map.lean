import Mathlib.Data.Finset.Card
import Mathlib.Data.Finset.Image
import Mathlib.Data.Finset.Lattice.Basic
import Mathlib.Data.List.Sort

namespace Go

/-- A Go map: a partial function with finitely many keys. The key set is a
    field, so that `len` and `range` are computed and not only specified. -/
structure Map (κ ν : Type) where
  lookup : κ → Option ν
  keys : Finset κ
  mem_keys : ∀ k, k ∈ keys ↔ (lookup k).isSome = true

namespace Map

variable {κ ν μ : Type}

@[ext] theorem ext {left right : Map κ ν} (same : ∀ k, left.lookup k = right.lookup k) :
    left = right := by
  obtain ⟨leftLookup, leftKeys, leftMem⟩ := left
  obtain ⟨rightLookup, rightKeys, rightMem⟩ := right
  have lookups : leftLookup = rightLookup := funext same
  subst lookups
  have keys : leftKeys = rightKeys := by
    apply Finset.ext
    intro k
    rw [leftMem, rightMem]
  subst keys
  rfl

def empty : Map κ ν where
  lookup := fun _ => none
  keys := ∅
  mem_keys := by simp

def set [DecidableEq κ] (m : Map κ ν) (key : κ) (value : ν) : Map κ ν where
  lookup := fun k => if k = key then some value else m.lookup k
  keys := insert key m.keys
  mem_keys := by
    intro k
    by_cases same : k = key
    · simp [same]
    · simp [same, m.mem_keys]

def delete [DecidableEq κ] (m : Map κ ν) (key : κ) : Map κ ν where
  lookup := fun k => if k = key then none else m.lookup k
  keys := m.keys.erase key
  mem_keys := by
    intro k
    by_cases same : k = key
    · simp [same]
    · simp [same, m.mem_keys]

def upsert [DecidableEq κ] (m : Map κ ν) (key : κ) (body : Option ν → ν) : Map κ ν :=
  m.set key (body (m.lookup key))

/-- The entries of a `range` loop whose body reads and writes only the entry of
    its own key: every entry is replaced by `body`, or dropped. -/
def filterMap (m : Map κ ν) (body : κ → ν → Option μ) : Map κ μ where
  lookup := fun k => (m.lookup k).bind (body k)
  keys := m.keys.filter (fun k => ((m.lookup k).bind (body k)).isSome = true)
  mem_keys := by
    intro k
    rw [Finset.mem_filter, m.mem_keys]
    cases m.lookup k <;> simp

def mapValues (m : Map κ ν) (body : κ → ν → μ) : Map κ μ :=
  m.filterMap (fun k v => some (body k v))

/-- The entries at the keys in `keys` are overwritten by those `body` gives. -/
def overwrite [DecidableEq κ] (m : Map κ ν) (keys : Finset κ) (body : κ → Option ν) : Map κ ν where
  lookup := fun k => if k ∈ keys then body k else m.lookup k
  keys := m.keys.filter (· ∉ keys) ∪ keys.filter (fun k => (body k).isSome = true)
  mem_keys := by
    intro k
    by_cases inside : k ∈ keys
    · simp [inside]
    · simp [inside, m.mem_keys]

def len (m : Map κ ν) : Nat := m.keys.card

def anyKey (keys : Finset κ) (property : κ → Prop) [DecidablePred property] : Bool :=
  decide (keys.filter property).Nonempty

/-- Indexing a Go map yields the zero value of the element type on a missing key. -/
def getD (m : Map κ ν) (key : κ) (zero : ν) : ν := (m.lookup key).getD zero

@[simp] theorem lookup_empty (k : κ) : (empty : Map κ ν).lookup k = none := rfl

@[simp] theorem keys_empty : (empty : Map κ ν).keys = ∅ := rfl

section

variable (m : Map κ ν)
include m

theorem lookup_set [DecidableEq κ] (key k : κ) (value : ν) :
    (m.set key value).lookup k = if k = key then some value else m.lookup k := rfl

@[simp] theorem lookup_set_self [DecidableEq κ] (key : κ) (value : ν) :
    (m.set key value).lookup key = some value := by simp [lookup_set]

theorem lookup_set_of_ne [DecidableEq κ] {key k : κ} (value : ν) (ne : k ≠ key) :
    (m.set key value).lookup k = m.lookup k := by simp [lookup_set, ne]

theorem lookup_delete [DecidableEq κ] (key k : κ) :
    (m.delete key).lookup k = if k = key then none else m.lookup k := rfl

@[simp] theorem lookup_delete_self [DecidableEq κ] (key : κ) :
    (m.delete key).lookup key = none := by simp [lookup_delete]

theorem lookup_delete_of_ne [DecidableEq κ] {key k : κ} (ne : k ≠ key) :
    (m.delete key).lookup k = m.lookup k := by simp [lookup_delete, ne]

@[simp] theorem keys_set [DecidableEq κ] (key : κ) (value : ν) :
    (m.set key value).keys = insert key m.keys := rfl

end

variable {m : Map κ ν} {order : List κ} {pairs : List (κ × ν)} {k key : κ} {v value : ν}

theorem of_lookup_set [DecidableEq κ] (found : (m.set key value).lookup k = some v) :
    k = key ∧ value = v ∨ m.lookup k = some v := by
  rw [lookup_set] at found
  split at found
  · rename_i same
    exact .inl ⟨same, Option.some.inj found⟩
  · exact .inr found

theorem of_lookup_delete [DecidableEq κ] (found : (m.delete key).lookup k = some v) :
    m.lookup k = some v := by
  by_cases same : k = key
  · rw [same, lookup_delete_self] at found
    cases found
  · rwa [lookup_delete_of_ne _ same] at found

theorem of_lookup_single [DecidableEq κ] (found : ((empty : Map κ ν).set key value).lookup k = some v) :
    k = key ∧ value = v :=
  (of_lookup_set found).resolve_right nofun

theorem getD_of_lookup (found : m.lookup k = some value) (zero : ν) :
    m.getD k zero = value := by rw [getD, found, Option.getD_some]

theorem getD_of_none (missing : m.lookup k = none) (zero : ν) : m.getD k zero = zero := by
  rw [getD, missing, Option.getD_none]

theorem getD_set [DecidableEq κ] (m : Map κ ν) (key k : κ) (value zero : ν) :
    (m.set key value).getD k zero = if k = key then value else m.getD k zero := by
  rw [getD, lookup_set]
  split <;> rfl

theorem getD_delete [DecidableEq κ] (m : Map κ ν) (key k : κ) (zero : ν) :
    (m.delete key).getD k zero = if k = key then zero else m.getD k zero := by
  rw [getD, lookup_delete]
  split <;> rfl

section Upsert

variable [DecidableEq κ] (m : Map κ ν)

theorem lookup_upsert (key k : κ) (body : Option ν → ν) :
    (m.upsert key body).lookup k = if k = key then some (body (m.lookup key)) else m.lookup k := rfl

theorem getD_upsert (key k : κ) (body : Option ν → ν) (zero : ν) :
    (m.upsert key body).getD k zero = if k = key then body (m.lookup key) else m.getD k zero := by
  rw [getD, lookup_upsert]
  split <;> rfl

theorem upsert_comm {first second : κ} {body body' : Option ν → ν}
    (commute : first = second → ∀ old, body' (some (body old)) = body (some (body' old))) :
    (m.upsert first body).upsert second body' = (m.upsert second body').upsert first body := by
  apply ext
  intro k
  by_cases same : first = second
  · subst same
    by_cases here : k = first
    · simp only [lookup_upsert, if_pos here, if_true, commute rfl]
    · simp only [lookup_upsert, if_neg here]
  · by_cases here : k = first
    · subst here
      simp only [lookup_upsert, if_neg same, if_true]
    · by_cases there : k = second
      · subst there
        simp only [lookup_upsert, if_neg (Ne.symm same), if_true]
      · simp only [lookup_upsert, if_neg here, if_neg there]

end Upsert

@[simp] theorem lookup_filterMap (m : Map κ ν) (body : κ → ν → Option μ) (k : κ) :
    (m.filterMap body).lookup k = (m.lookup k).bind (body k) := rfl

@[simp] theorem lookup_mapValues (m : Map κ ν) (body : κ → ν → μ) (k : κ) :
    (m.mapValues body).lookup k = (m.lookup k).map (body k) := by
  simp only [mapValues, lookup_filterMap]
  cases m.lookup k <;> rfl

theorem keys_mapValues (m : Map κ ν) (body : κ → ν → μ) : (m.mapValues body).keys = m.keys := by
  ext k
  rw [mem_keys, mem_keys, lookup_mapValues, Option.isSome_map]

theorem mapValues_upsert [DecidableEq κ] (m : Map κ ν) (key : κ) {body : Option ν → ν} {convert : κ → ν → μ}
    {body' : Option μ → μ} (converts : ∀ old, convert key (body old) = body' (old.map (convert key))) :
    (m.upsert key body).mapValues convert = (m.mapValues convert).upsert key body' := by
  apply ext
  intro k
  rw [lookup_mapValues, lookup_upsert, lookup_upsert, lookup_mapValues, lookup_mapValues]
  split_ifs with same
  · subst same
    rw [Option.map_some, converts]
  · rfl

theorem lookup_overwrite [DecidableEq κ] (m : Map κ ν) (keys : Finset κ) (body : κ → Option ν) (k : κ) :
    (m.overwrite keys body).lookup k = if k ∈ keys then body k else m.lookup k := rfl

theorem anyKey_iff (keys : Finset κ) (property : κ → Prop) [DecidablePred property] :
    anyKey keys property = true ↔ ∃ k ∈ keys, property k := by
  simp [anyKey, Finset.Nonempty]

theorem anyKey_eq_false (keys : Finset κ) (property : κ → Prop) [DecidablePred property] :
    anyKey keys property = false ↔ ∀ k ∈ keys, ¬ property k := by
  rw [← Bool.not_eq_true, anyKey_iff]
  simp

theorem mem_keys_iff (m : Map κ ν) (k : κ) : k ∈ m.keys ↔ ∃ v, m.lookup k = some v := by
  rw [m.mem_keys, Option.isSome_iff_exists]

theorem not_mem_keys (m : Map κ ν) (k : κ) : k ∉ m.keys ↔ m.lookup k = none := by
  rw [m.mem_keys]
  simp

theorem eq_of_scan {m n : Map κ ν} (sizes : m.len = n.len) (scanned : ∀ k ∈ m.keys, n.lookup k = m.lookup k) :
    m = n := by
  have inside : m.keys ⊆ n.keys := by
    intro k member
    obtain ⟨v, found⟩ := (m.mem_keys_iff k).mp member
    exact (n.mem_keys_iff k).mpr ⟨v, (scanned k member).trans found⟩
  have keys : m.keys = n.keys := Finset.eq_of_subset_of_card_le inside (Nat.le_of_eq sizes.symm)
  ext1 k
  by_cases member : k ∈ m.keys
  · exact (scanned k member).symm
  · rw [(m.not_mem_keys k).mp member, (n.not_mem_keys k).mp (keys ▸ member)]

instance [DecidableEq κ] [DecidableEq ν] : DecidableEq (Map κ ν) := fun left right =>
  decidable_of_iff (left.keys = right.keys ∧ ∀ k ∈ left.keys, left.lookup k = right.lookup k) <| by
    constructor
    · rintro ⟨keys, values⟩
      apply ext
      intro k
      by_cases member : k ∈ left.keys
      · exact values k member
      · have absent := (left.not_mem_keys k).mp member
        rw [keys] at member
        rw [absent, (right.not_mem_keys k).mp member]
    · rintro rfl
      exact ⟨rfl, fun _ _ => rfl⟩

section Values

def values (m : Map κ ν) : Multiset ν := m.keys.val.filterMap m.lookup

theorem card_values (m : Map κ ν) : Multiset.card m.values = m.len := by
  have all : ∀ order : List κ, (∀ k ∈ order, (m.lookup k).isSome = true) →
      (order.filterMap m.lookup).length = order.length := by
    intro order present
    induction order with
    | nil => rfl
    | cons k rest ih =>
      obtain ⟨v, found⟩ := Option.isSome_iff_exists.mp (present k List.mem_cons_self)
      rw [List.filterMap_cons_some found, List.length_cons, List.length_cons,
        ih fun k member => present k (List.mem_cons_of_mem _ member)]
  have every : ∀ keys : Multiset κ, (∀ k ∈ keys, (m.lookup k).isSome = true) →
      Multiset.card (keys.filterMap m.lookup) = Multiset.card keys := by
    intro keys present
    induction keys using Quotient.inductionOn with
    | h order => exact all order present
  exact every m.keys.val fun k member => (m.mem_keys k).mp member

theorem values_empty : (empty : Map κ ν).values = 0 := rfl

theorem filterMap_congr {keys : Multiset κ} {first second : κ → Option ν} (same : ∀ k ∈ keys, first k = second k) :
    keys.filterMap first = keys.filterMap second := by
  induction keys using Quotient.inductionOn with
  | h order => exact congrArg Multiset.ofList (List.filterMap_congr same)

theorem values_set [DecidableEq κ] (m : Map κ ν) {key : κ} (value : ν) (fresh : key ∉ m.keys) :
    (m.set key value).values = value ::ₘ m.values := by
  have same : m.keys.val.filterMap (m.set key value).lookup = m.keys.val.filterMap m.lookup := by
    apply filterMap_congr
    intro k member
    apply lookup_set_of_ne
    rintro rfl
    exact fresh member
  rw [values, keys_set, Finset.insert_val_of_notMem fresh,
    Multiset.filterMap_cons_some _ _ _ (lookup_set_self m key value), same, values]

end Values

/-- An order in which `range` may visit the keys of a map. -/
structure Enumerates (order : List κ) (m : Map κ ν) : Prop where
  nodup : order.Nodup
  mem_iff : ∀ k, k ∈ order ↔ k ∈ m.keys

theorem Enumerates.of_keys [DecidableEq κ] (nodup : order.Nodup) (keys : m.keys = order.toFinset) :
    Enumerates order m :=
  ⟨nodup, fun k => by rw [keys, List.mem_toFinset]⟩

theorem Enumerates.coe_eq (enumerates : Enumerates order m) : (order : Multiset κ) = m.keys.val := by
  rw [Multiset.Nodup.ext (Multiset.coe_nodup.mpr enumerates.nodup) m.keys.nodup]
  exact enumerates.mem_iff

theorem Enumerates.filterMap_lookup (enumerates : Enumerates order m) :
    (order.filterMap m.lookup : Multiset ν) = m.values := by
  rw [values, ← enumerates.coe_eq]
  rfl

theorem Enumerates.perm {first second : List κ} (left : Enumerates first m) (right : Enumerates second m) :
    first.Perm second :=
  (List.perm_ext_iff_of_nodup left.nodup right.nodup).mpr fun k => by
    rw [left.mem_iff, right.mem_iff]

theorem Enumerates.length (enumerates : Enumerates order m) : order.length = m.len := by
  rw [← Multiset.coe_card, enumerates.coe_eq]
  rfl

theorem Enumerates.of_perm {first second : List κ} (enumerates : Enumerates first m) (perm : first.Perm second) :
    Enumerates second m :=
  ⟨perm.nodup_iff.mp enumerates.nodup, fun k => perm.mem_iff.symm.trans (enumerates.mem_iff k)⟩

theorem enumerates_toList (m : Map κ ν) : Enumerates m.keys.toList m :=
  ⟨Finset.nodup_toList _, fun _ => Finset.mem_toList⟩

theorem enumerates_single [DecidableEq κ] (key : κ) (value : ν) : Enumerates [key] (empty.set key value) where
  nodup := List.nodup_singleton key
  mem_iff := by simp

def ofPairs [DecidableEq κ] (pairs : List (κ × ν)) : Map κ ν :=
  pairs.foldl (fun m pair => m.set pair.1 pair.2) empty

theorem lookup_foldl_set [DecidableEq κ] (m : Map κ ν) (nodup : (pairs.map Prod.fst).Nodup) (k : κ) (v : ν) :
    (pairs.foldl (fun m pair => m.set pair.1 pair.2) m).lookup k = some v ↔
      (k, v) ∈ pairs ∨ (k ∉ pairs.map Prod.fst ∧ m.lookup k = some v) := by
  induction pairs generalizing m with
  | nil => simp
  | cons pair rest ih =>
    obtain ⟨key, value⟩ := pair
    obtain ⟨fresh, nodup⟩ := List.nodup_cons.mp nodup
    rw [List.foldl_cons, ih (m.set key value) nodup, lookup_set]
    by_cases same : k = key
    · subst same
      have outside : (k, v) ∉ rest := fun member => fresh (List.mem_map.mpr ⟨(k, v), member, rfl⟩)
      simp only [List.mem_cons, List.map_cons, Prod.mk.injEq, true_and, if_pos, Option.some.injEq, outside,
        or_false, false_or, true_or, not_true_eq_false, false_and]
      constructor
      · rintro ⟨-, rfl⟩
        rfl
      · rintro rfl
        exact ⟨fresh, rfl⟩
    · simp [same]

theorem keys_ofPairs [DecidableEq κ] (pairs : List (κ × ν)) : (ofPairs pairs).keys = (pairs.map Prod.fst).toFinset := by
  induction pairs using List.reverseRecOn with
  | nil => rfl
  | append_singleton pairs pair ih =>
    rw [ofPairs, List.foldl_append, List.foldl_cons, List.foldl_nil, keys_set, ← ofPairs, ih, List.map_append,
      List.toFinset_append, Finset.union_comm]
    rfl

theorem mem_of_lookup_ofPairs [DecidableEq κ] {k : κ} {v : ν} (found : (ofPairs pairs).lookup k = some v) :
    (k, v) ∈ pairs := by
  induction pairs using List.reverseRecOn with
  | nil => cases found
  | append_singleton pairs pair ih =>
    rw [ofPairs, List.foldl_append, List.foldl_cons, List.foldl_nil, ← ofPairs] at found
    rcases of_lookup_set found with ⟨rfl, rfl⟩ | found
    · exact List.mem_append_right _ (List.mem_singleton_self _)
    · exact List.mem_append_left _ (ih found)

theorem ofPairs_eq [DecidableEq κ] (nodup : (pairs.map Prod.fst).Nodup)
    (entries : ∀ k v, (k, v) ∈ pairs ↔ m.lookup k = some v) : ofPairs pairs = m := by
  apply ext
  intro k
  apply Option.ext
  intro v
  rw [← entries, ofPairs, lookup_foldl_set empty nodup]
  simp

/-- The entries of a map in the order of a `range` loop. -/
def entriesIn (m : Map κ ν) (order : List κ) (zero : ν) : List (κ × ν) := order.map fun k => (k, m.getD k zero)

theorem ofPairs_entriesIn [DecidableEq κ] (zero : ν) (enumerates : Enumerates order m) :
    ofPairs (m.entriesIn order zero) = m := by
  apply ofPairs_eq
  · simpa [entriesIn, Function.comp_def] using enumerates.nodup
  · intro k v
    simp only [entriesIn, List.mem_map, Prod.mk.injEq, enumerates.mem_iff, mem_keys_iff]
    constructor
    · rintro ⟨_, ⟨w, found⟩, rfl, rfl⟩
      rw [getD, found]
      rfl
    · intro found
      refine ⟨k, ⟨v, found⟩, rfl, ?_⟩
      rw [getD, found]
      rfl

section Sorted

variable {width : ℕ}

instance : Std.Total (fun a b : BitVec width => a ≤ b) where
  total a b := by
    simp only [BitVec.le_def]
    omega

instance : IsTrans (BitVec width) (fun a b => a ≤ b) where
  trans a b c := by
    simp only [BitVec.le_def]
    omega

theorem insertionSort_eq_of_perm {first second : List (BitVec width)} (perm : first.Perm second) :
    first.insertionSort (fun a b => a ≤ b) = second.insertionSort (fun a b => a ≤ b) := by
  have sorted := List.pairwise_insertionSort (fun a b : BitVec width => a ≤ b)
  have perms := List.perm_insertionSort (fun a b : BitVec width => a ≤ b)
  apply List.Perm.eq_of_pairwise _ (sorted first) (sorted second)
  · exact ((perms first).trans perm).trans (perms second).symm
  · intro a b _ _ le ge
    rw [BitVec.le_def] at le ge
    exact BitVec.eq_of_toNat_eq (Nat.le_antisymm le ge)

/-- The keys collected by a `range` loop and sorted as numbers: the order of the
    loop does not matter. -/
def sortedKeys (m : Map (BitVec width) ν) : List (BitVec width) :=
  Quotient.liftOn m.keys.val (fun order => order.insertionSort fun a b => a ≤ b)
    fun _ _ perm => insertionSort_eq_of_perm perm

theorem sortedKeys_enumerates (m : Map (BitVec width) ν) : Enumerates m.sortedKeys m := by
  have perm : (m.sortedKeys : Multiset (BitVec width)) = m.keys.val := by
    unfold sortedKeys
    induction m.keys.val using Quotient.inductionOn with
    | h order => exact Multiset.coe_eq_coe.mpr (List.perm_insertionSort _ order)
  constructor
  · have nodup := m.keys.nodup
    rw [← perm] at nodup
    exact Multiset.coe_nodup.mp nodup
  · intro k
    rw [← Multiset.mem_coe, perm]
    rfl

end Sorted

end Map

end Go
