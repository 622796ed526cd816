import IDWDetector.Go.ReadDir
import IDWDetector.Hunter.Extractor
import Mathlib.Data.List.Lex
import Mathlib.Data.Prod.Lex

namespace IDWDetector.Hunter

open Vm Go

def dot : Byte := 0x2e
def lowLine : Byte := 0x5f

/-- The block in the name of a file: the text up to the first dot, and of that up to the first low line. -/
def fileBlock (name : Bytes) : Nat :=
  parseUintValue ((List.splitOn lowLine ((List.splitOn dot name).headD [])).headD [])

/-- The allocs of the files of earlier blocks, up to the first file of another block. -/
def loadAllocs (loadAlloc : Bytes → SubstateAlloc) (block : Uint64) : List Bytes → List SubstateAlloc
  | [] => []
  | name :: rest => if fileBlock name < block.toNat then loadAlloc name :: loadAllocs loadAlloc block rest else []

section Loading

variable (loadTx : Bytes → ExternalTx) (block : Uint64)

/-- The transactions that `InitTokenUserTxMap` extracts; files of later blocks are skipped. -/
def proxyHistory : List Bytes → List ExternalTx
  | [] => []
  | name :: rest => if fileBlock name ≤ block.toNat then loadTx name :: proxyHistory rest else proxyHistory rest

/-- The transactions that `InitUserRelatedMapWithStake` extracts; a file of a later block ends the loop. -/
def stakeHistory : List Bytes → List ExternalTx
  | [] => []
  | name :: rest => if fileBlock name ≤ block.toNat then loadTx name :: stakeHistory rest else []

def initTokenUserTxMap (classify : Address → Bytes → Action) (x : TxExtractor) (files : List Bytes) :
    Except Panic TxExtractor :=
  (proxyHistory loadTx block files).foldlM (TxExtractor.extractTokenTx classify) x

def initUserRelatedMapWithStake (x : TxExtractor) (files : List Bytes) : Except Panic TxExtractor :=
  (stakeHistory loadTx block files).foldlM TxExtractor.extractStakeTokenTx x

end Loading

def recordName (record : Nat ×ₗ Nat) : Bytes :=
  decimal (ofLex record).1 ++ lowLine :: decimal (ofLex record).2 ++ [dot, 0x6a, 0x73, 0x6f, 0x6e]

section Names

theorem loadAllocs_eq (loadAlloc : Bytes → SubstateAlloc) (block : Uint64) (files : List Bytes) :
    loadAllocs loadAlloc block files =
      (files.takeWhile fun name => decide (fileBlock name < block.toNat)).map loadAlloc := by
  induction files with
  | nil => rfl
  | cons name rest ih =>
    rw [loadAllocs, ih, List.takeWhile_cons]
    by_cases earlier : fileBlock name < block.toNat
    · simp [earlier]
    · simp [earlier]

theorem stakeHistory_eq (loadTx : Bytes → ExternalTx) (block : Uint64) (files : List Bytes) :
    stakeHistory loadTx block files =
      (files.takeWhile fun name => decide (fileBlock name ≤ block.toNat)).map loadTx := by
  induction files with
  | nil => rfl
  | cons name rest ih =>
    rw [stakeHistory, ih, List.takeWhile_cons]
    by_cases earlier : fileBlock name ≤ block.toNat
    · simp [earlier]
    · simp [earlier]

theorem proxyHistory_eq (loadTx : Bytes → ExternalTx) (block : Uint64) (files : List Bytes) :
    proxyHistory loadTx block files =
      (files.filter fun name => decide (fileBlock name ≤ block.toNat)).map loadTx := by
  induction files with
  | nil => rfl
  | cons name rest ih =>
    rw [proxyHistory, ih, List.filter_cons]
    by_cases earlier : fileBlock name ≤ block.toNat
    · simp [earlier]
    · simp [earlier]

theorem splitOn_head {part : Bytes} {separator : Byte} (absent : separator ∉ part) (rest : Bytes) :
    (List.splitOn separator (part ++ separator :: rest)).headD [] = part := by
  rw [List.splitOn, List.splitOnP_append_cons_of_forall_mem]
  · rfl
  · intro byte member
    exact beq_false_of_ne fun same => absent (same ▸ member)
  · exact beq_self_eq_true separator

theorem fileBlock_recordName (record : Nat ×ₗ Nat) :
    fileBlock (recordName record) = min (ofLex record).1 (2 ^ 64 - 1) := by
  have dotless : dot ∉ decimal (ofLex record).1 ++ lowLine :: decimal (ofLex record).2 := by
    intro member
    rcases List.mem_append.mp member with block | tx
    · exact notMem_decimal (by decide) block
    · rcases List.mem_cons.mp tx with same | tx
      · cases same
      · exact notMem_decimal (by decide) tx
  rw [fileBlock, recordName, splitOn_head dotless, splitOn_head (notMem_decimal (by decide)),
    parseUintValue_decimal]

theorem recordName_injective : Function.Injective recordName := by
  have parts (record : Nat ×ₗ Nat) : (List.splitOn lowLine (recordName record)).headD [] =
      decimal (ofLex record).1 := by
    rw [recordName, List.append_assoc]
    exact splitOn_head (notMem_decimal (by decide)) _
  intro record record' same
  have blocks : decimal (ofLex record).1 = decimal (ofLex record').1 := by
    rw [← parts, ← parts, same]
  have txs : decimal (ofLex record).2 = decimal (ofLex record').2 := by
    rw [recordName, recordName, blocks] at same
    simpa using same
  exact ofLex_inj.mp (Prod.ext (decimal_injective blocks) (decimal_injective txs))

theorem fileBlock_lt_iff (record : Nat ×ₗ Nat) (block : Uint64) :
    fileBlock (recordName record) < block.toNat ↔ (ofLex record).1 < block.toNat := by
  rw [fileBlock_recordName]
  omega

theorem fileBlock_le_iff (record : Nat ×ₗ Nat) (block : Uint64) :
    fileBlock (recordName record) ≤ block.toNat ↔ (ofLex record).1 ≤ block.toNat ∨ block.toNat = 2 ^ 64 - 1 := by
  rw [fileBlock_recordName]
  omega

end Names

section Order

variable {records : Finset (Nat ×ₗ Nat)} {files : List Bytes} {block : Uint64}

theorem mem_files_iff (listed : ReadDir (records.image recordName) files) (name : Bytes) :
    name ∈ files ↔ ∃ record ∈ records, recordName record = name := by
  rw [listed.mem_iff, Finset.mem_image]

def chainOrder (records : Finset (Nat ×ₗ Nat)) (block : Uint64) : List (Nat ×ₗ Nat) :=
  (records.filter fun record => (ofLex record).1 < block.toNat).sort

theorem mem_chainOrder (record : Nat ×ₗ Nat) :
    record ∈ chainOrder records block ↔ record ∈ records ∧ (ofLex record).1 < block.toNat := by
  rw [chainOrder, Finset.mem_sort, Finset.mem_filter]

theorem chainOrder_sorted : (chainOrder records block).Pairwise (· < ·) := by
  have distinct := Finset.sort_nodup (records.filter fun record => (ofLex record).1 < block.toNat) (· ≤ ·)
  have ordered := Finset.pairwise_sort (records.filter fun record => (ofLex record).1 < block.toNat) (· ≤ ·)
  exact (ordered.and distinct).imp fun both => lt_of_le_of_ne both.1 both.2

/-- The names agree with the chain, as far as it matters for the records of earlier blocks. -/
def NamesInOrder (records : Finset (Nat ×ₗ Nat)) (block : Uint64) : Prop :=
  ∀ record ∈ records, ∀ later ∈ records, (ofLex record).1 < block.toNat → record < later →
    recordName record < recordName later

theorem NamesInOrder.takeWhile_eq (inOrder : NamesInOrder records block)
    (listed : ReadDir (records.image recordName) files) :
    files.takeWhile (fun name => decide (fileBlock name < block.toNat)) =
      (chainOrder records block).map recordName := by
  have whole : files.takeWhile (fun name => decide (fileBlock name < block.toNat)) =
      files.filter fun name => decide (fileBlock name < block.toNat) := by
    rw [takeWhile_eq_filter_iff listed.sorted]
    intro first member second member' earlier stops
    obtain ⟨record, held, rfl⟩ := (mem_files_iff listed first).mp member
    obtain ⟨record', held', rfl⟩ := (mem_files_iff listed second).mp member'
    rw [decide_eq_true_eq, fileBlock_lt_iff] at earlier
    rw [decide_eq_false_iff_not, fileBlock_lt_iff] at stops
    refine inOrder record held record' held' earlier (Prod.Lex.lt_iff.mpr (.inl ?_))
    omega
  have named : ((chainOrder records block).map recordName).Pairwise (· < ·) := by
    apply List.pairwise_map.mpr
    refine chainOrder_sorted.imp_of_mem fun member member' less => ?_
    obtain ⟨held, earlier⟩ := (mem_chainOrder _).mp member
    exact inOrder _ held _ ((mem_chainOrder _).mp member').1 earlier less
  rw [whole]
  refine (listed.sorted.filter _).eq_of_mem_iff named fun name => ?_
  rw [List.mem_filter, mem_files_iff listed, decide_eq_true_eq, List.mem_map]
  constructor
  · rintro ⟨⟨record, held, rfl⟩, earlier⟩
    exact ⟨record, (mem_chainOrder record).mpr ⟨held, (fileBlock_lt_iff record block).mp earlier⟩, rfl⟩
  · rintro ⟨record, member, rfl⟩
    obtain ⟨held, earlier⟩ := (mem_chainOrder record).mp member
    exact ⟨⟨record, held, rfl⟩, (fileBlock_lt_iff record block).mpr earlier⟩

theorem namesInOrder_of_takeWhile (listed : ReadDir (records.image recordName) files)
    (same : files.takeWhile (fun name => decide (fileBlock name < block.toNat)) =
      (chainOrder records block).map recordName) : NamesInOrder records block := by
  intro record held later held' earlier less
  have listedRecord : record ∈ chainOrder records block := (mem_chainOrder record).mpr ⟨held, earlier⟩
  have taken : recordName record ∈ files.takeWhile fun name => decide (fileBlock name < block.toNat) := by
    rw [same]
    exact List.mem_map_of_mem listedRecord
  by_cases both : (ofLex later).1 < block.toNat
  · have named : ((chainOrder records block).map recordName).Pairwise (· < ·) := by
      rw [← same]
      exact listed.sorted.sublist (List.takeWhile_sublist _)
    obtain ⟨before, after, split⟩ := List.append_of_mem listedRecord
    have listedLater : later ∈ chainOrder records block := (mem_chainOrder later).mpr ⟨held', both⟩
    have sorted := @chainOrder_sorted records block
    rw [split] at sorted listedLater named
    rcases List.mem_append.mp listedLater with ahead | behind
    · have reversed := (List.pairwise_append.mp sorted).2.2 later ahead record List.mem_cons_self
      exact absurd reversed (lt_asymm less)
    · rcases List.mem_cons.mp behind with rfl | behind
      · exact absurd less (lt_irrefl _)
      · rw [List.map_append, List.map_cons] at named
        have tail := (List.pairwise_append.mp named).2.1
        exact List.rel_of_pairwise_cons tail (List.mem_map_of_mem behind)
  · apply rel_of_mem_takeWhile listed.sorted taken
    · exact (mem_files_iff listed _).mpr ⟨later, held', rfl⟩
    · rw [decide_eq_false_iff_not, fileBlock_lt_iff]
      exact both

instance : Nontrivial SubstateAlloc :=
  ⟨.empty, Map.empty.set 0 none, fun same => by
    have found := congrArg (fun alloc => alloc.lookup (0 : Address)) same
    simp at found⟩

/-- The allocs of exactly the earlier blocks are loaded in chain order exactly if the names of their files come in
    that order before those of all later ones. -/
theorem loadAllocs_chain_iff (listed : ReadDir (records.image recordName) files) (block : Uint64) :
    (∀ loadAlloc : Bytes → SubstateAlloc, loadAllocs loadAlloc block files =
      (chainOrder records block).map fun record => loadAlloc (recordName record)) ↔ NamesInOrder records block := by
  constructor
  · intro loads
    apply namesInOrder_of_takeWhile listed
    refine eq_of_map_eq fun loadAlloc : Bytes → SubstateAlloc => ?_
    rw [← loadAllocs_eq, loads loadAlloc, List.map_map]
    rfl
  · intro inOrder loadAlloc
    rw [loadAllocs_eq, inOrder.takeWhile_eq listed, List.map_map]
    rfl

theorem recordName_lt {record later : Nat ×ₗ Nat}
    (blocks : (decimal (ofLex record).1).length = (decimal (ofLex later).1).length)
    (txs : (decimal (ofLex record).2).length = (decimal (ofLex later).2).length) (less : record < later) :
    recordName record < recordName later := by
  rw [recordName, recordName]
  rcases Prod.Lex.lt_iff.mp less with block | ⟨same, tx⟩
  · rw [List.append_assoc, List.append_assoc]
    exact append_lt blocks (decimal_lt blocks block) _ _
  · apply append_lt
    · simp only [List.length_append, List.length_cons, blocks, txs]
    · rw [same]
      apply List.Lex.append_left
      exact List.cons_lt_cons_iff.mpr (.inr ⟨rfl, decimal_lt txs tx⟩)

theorem namesInOrder_of_lengths
    (lengths : ∀ record ∈ records, ∀ later ∈ records,
      (decimal (ofLex record).1).length = (decimal (ofLex later).1).length ∧
      (decimal (ofLex record).2).length = (decimal (ofLex later).2).length) : NamesInOrder records block := by
  intro record held later held' _ less
  obtain ⟨blocks, txs⟩ := lengths record held later held'
  exact recordName_lt blocks txs less

end Order

def shuffledRecords : Finset (Nat ×ₗ Nat) := {toLex (9, 0), toLex (100, 0)}

def shuffledFiles : List Bytes := [recordName (toLex (100, 0)), recordName (toLex (9, 0))]

theorem shuffledFiles_listed : ReadDir (shuffledRecords.image recordName) shuffledFiles :=
  .of_names (by decide +kernel) (by decide +kernel)

/-- Block 9 is before block 10, and its alloc is not loaded. -/
theorem shuffledFiles_lost : ReadDir (shuffledRecords.image recordName) shuffledFiles ∧
    toLex (9, 0) ∈ shuffledRecords ∧ ∀ loadAlloc, loadAllocs loadAlloc 10 shuffledFiles = [] := by
  refine ⟨shuffledFiles_listed, by decide, fun loadAlloc => ?_⟩
  have beyond : ¬fileBlock (recordName (toLex (100, 0))) < (10 : Uint64).toNat := by
    rw [fileBlock_lt_iff]
    decide
  rw [shuffledFiles, loadAllocs, if_neg beyond]

def alignedRecords : Finset (Nat ×ₗ Nat) := {toLex (10, 1), toLex (12, 3), toLex (12, 4)}

def alignedFiles : List Bytes := [recordName (toLex (10, 1)), recordName (toLex (12, 3)), recordName (toLex (12, 4))]

theorem alignedFiles_listed : ReadDir (alignedRecords.image recordName) alignedFiles :=
  .of_names (by decide +kernel) (by decide +kernel)

theorem loadAllocs_chain_aligned : NamesInOrder alignedRecords 14 ∧ ∀ loadAlloc,
    loadAllocs loadAlloc 14 alignedFiles = (chainOrder alignedRecords 14).map fun record =>
      loadAlloc (recordName record) := by
  have inOrder : NamesInOrder alignedRecords 14 := namesInOrder_of_lengths (by decide +kernel)
  exact ⟨inOrder, (loadAllocs_chain_iff alignedFiles_listed 14).mpr inOrder⟩

section Stakes

variable {records : Finset (Nat ×ₗ Nat)} {files : List Bytes} {block : Uint64} {loadTx : Bytes → ExternalTx}

/-- The transactions are those recorded up to a block, each once. -/
def FeedsUpTo (records : Finset (Nat ×ₗ Nat)) (block : Uint64) (loadTx : Bytes → ExternalTx)
    (fed : List ExternalTx) : Prop :=
  (fed : Multiset ExternalTx) =
    (records.filter fun record => (ofLex record).1 ≤ block.toNat).val.map fun record => loadTx (recordName record)

/-- No record has a block beyond 64 bits, unless the bound is less than the greatest block. -/
def WithinBlocks (records : Finset (Nat ×ₗ Nat)) (block : Uint64) : Prop :=
  block.toNat = 2 ^ 64 - 1 → ∀ record ∈ records, (ofLex record).1 ≤ block.toNat

/-- The name of every record up to a block comes before those of the later ones. -/
def LaterNamesLast (records : Finset (Nat ×ₗ Nat)) (block : Uint64) : Prop :=
  ∀ record ∈ records, ∀ later ∈ records, (ofLex record).1 ≤ block.toNat → block.toNat < (ofLex later).1 →
    recordName record < recordName later

section

variable (listed : ReadDir (records.image recordName) files)
include listed

theorem coe_filter_files (keep : Bytes → Bool) :
    (files.filter keep : Multiset Bytes) =
      (records.filter fun record => keep (recordName record) = true).val.map recordName := by
  have whole : (files : Multiset Bytes) = records.val.map recordName := by
    have images : (records.image recordName).val = records.val.map recordName :=
      Finset.image_val_of_injOn recordName_injective.injOn
    rw [← images, Multiset.Nodup.ext (Multiset.coe_nodup.mpr listed.nodup) (records.image recordName).nodup]
    exact listed.mem_iff
  have filtered : (files.filter keep : Multiset Bytes) = Multiset.filter (fun name => keep name = true) files := by
    simp
  rw [filtered, whole, Multiset.filter_map]
  rfl

theorem proxyHistory_feeds_iff :
    FeedsUpTo records block loadTx (proxyHistory loadTx block files) ↔ WithinBlocks records block := by
  rw [FeedsUpTo, proxyHistory_eq, ← Multiset.map_coe, coe_filter_files listed, Multiset.map_map]
  simp only [decide_eq_true_eq, fileBlock_le_iff]
  constructor
  · intro same top record held
    have cards := congrArg Multiset.card same
    rw [Multiset.card_map, Multiset.card_map] at cards
    have more : (records.filter fun record => (ofLex record).1 ≤ block.toNat) ⊆
        records.filter fun record => (ofLex record).1 ≤ block.toNat ∨ block.toNat = 2 ^ 64 - 1 :=
      Finset.monotone_filter_right records fun _ _ within => .inl within
    have equal := Finset.eq_of_subset_of_card_le more (le_of_eq cards)
    have member : record ∈ records.filter fun record => (ofLex record).1 ≤ block.toNat := by
      rw [equal]
      exact Finset.mem_filter.mpr ⟨held, .inr top⟩
    exact (Finset.mem_filter.mp member).2
  · intro within
    have same : (records.filter fun record => (ofLex record).1 ≤ block.toNat ∨ block.toNat = 2 ^ 64 - 1) =
        records.filter fun record => (ofLex record).1 ≤ block.toNat := by
      apply Finset.filter_congr
      intro record held
      exact ⟨fun either => either.elim id fun top => within top record held, .inl⟩
    rw [same]
    rfl

theorem takeWhile_of_feeds (feeds : FeedsUpTo records block loadTx (stakeHistory loadTx block files)) :
    files.takeWhile (fun name => decide (fileBlock name ≤ block.toNat)) =
      files.filter fun name => decide (fileBlock name ≤ block.toNat) := by
  apply (takeWhile_sublist_filter files).eq_of_length
  have taken : (files.takeWhile fun name => decide (fileBlock name ≤ block.toNat)).length =
      (records.filter fun record => (ofLex record).1 ≤ block.toNat).card := by
    have cards := congrArg Multiset.card feeds
    rw [stakeHistory_eq, Multiset.coe_card, List.length_map, Multiset.card_map] at cards
    exact cards
  have kept := congrArg Multiset.card (coe_filter_files listed fun name => decide (fileBlock name ≤ block.toNat))
  rw [Multiset.coe_card, Multiset.card_map] at kept
  by_cases top : block.toNat = 2 ^ 64 - 1
  · have all : ∀ name ∈ files, decide (fileBlock name ≤ block.toNat) = true := by
      intro name member
      obtain ⟨record, -, rfl⟩ := (mem_files_iff listed name).mp member
      exact decide_eq_true ((fileBlock_le_iff record block).mpr (.inr top))
    rw [List.takeWhile_eq_self_iff.mpr all, List.filter_eq_self.mpr all]
  · rw [taken, kept]
    simp only [decide_eq_true_eq, fileBlock_le_iff, top, or_false]
    rfl

theorem stakeHistory_feeds_iff :
    FeedsUpTo records block loadTx (stakeHistory loadTx block files) ↔
      WithinBlocks records block ∧ LaterNamesLast records block := by
  have loops (same : files.takeWhile (fun name => decide (fileBlock name ≤ block.toNat)) =
      files.filter fun name => decide (fileBlock name ≤ block.toNat)) :
      stakeHistory loadTx block files = proxyHistory loadTx block files := by
    rw [stakeHistory_eq, proxyHistory_eq, same]
  constructor
  · intro feeds
    have same := takeWhile_of_feeds listed feeds
    rw [loops same] at feeds
    have within := (proxyHistory_feeds_iff listed).mp feeds
    refine ⟨within, fun record held later held' earlier beyond => ?_⟩
    apply (takeWhile_eq_filter_iff listed.sorted).mp same
    · exact (mem_files_iff listed _).mpr ⟨record, held, rfl⟩
    · exact (mem_files_iff listed _).mpr ⟨later, held', rfl⟩
    · exact decide_eq_true ((fileBlock_le_iff record block).mpr (.inl earlier))
    · rw [decide_eq_false_iff_not, fileBlock_le_iff]
      rintro (small | top)
      · omega
      · have := within top later held'
        omega
  · rintro ⟨within, last⟩
    rw [loops]
    · exact (proxyHistory_feeds_iff listed).mpr within
    · rw [takeWhile_eq_filter_iff listed.sorted]
      intro first member second member' accepted stops
      obtain ⟨record, held, rfl⟩ := (mem_files_iff listed first).mp member
      obtain ⟨later, held', rfl⟩ := (mem_files_iff listed second).mp member'
      rw [decide_eq_false_iff_not, fileBlock_le_iff] at stops
      rw [decide_eq_true_eq, fileBlock_le_iff] at accepted
      apply last record held later held'
      · exact accepted.resolve_right fun top => stops (.inr top)
      · exact Nat.lt_of_not_le fun small => stops (.inl small)

end

/-- The stake transactions up to a block are extracted exactly if the names of the later ones come last; the proxy
    ones always are, but for blocks beyond 64 bits. -/
theorem history_feeds_iff (listed : ReadDir (records.image recordName) files) (loadTx : Bytes → ExternalTx)
    (block : Uint64) :
    (FeedsUpTo records block loadTx (stakeHistory loadTx block files) ↔
      WithinBlocks records block ∧ LaterNamesLast records block) ∧
    (FeedsUpTo records block loadTx (proxyHistory loadTx block files) ↔ WithinBlocks records block) :=
  ⟨stakeHistory_feeds_iff listed, proxyHistory_feeds_iff listed⟩

end Stakes

def emptyTx (_ : Bytes) : ExternalTx := ⟨9, 0, []⟩

/-- The proxy transaction of block 9 is extracted for block 9, the stake transaction is not. -/
theorem shuffledFiles_stake_lost :
    FeedsUpTo shuffledRecords 9 emptyTx (proxyHistory emptyTx 9 shuffledFiles) ∧
    stakeHistory emptyTx 9 shuffledFiles = [] ∧
    ¬FeedsUpTo shuffledRecords 9 emptyTx (stakeHistory emptyTx 9 shuffledFiles) := by
  have beyond : ¬fileBlock (recordName (toLex (100, 0))) ≤ (9 : Uint64).toNat := by
    rw [fileBlock_le_iff]
    decide
  refine ⟨(proxyHistory_feeds_iff shuffledFiles_listed).mpr fun top => absurd top (by decide), ?_, ?_⟩
  · rw [shuffledFiles, stakeHistory, if_neg beyond]
  · intro feeds
    have last := ((stakeHistory_feeds_iff shuffledFiles_listed).mp feeds).2
    revert last
    unfold LaterNamesLast
    decide +kernel

theorem history_feeds_aligned :
    FeedsUpTo alignedRecords 11 emptyTx (stakeHistory emptyTx 11 alignedFiles) ∧
    FeedsUpTo alignedRecords 11 emptyTx (proxyHistory emptyTx 11 alignedFiles) := by
  have within : WithinBlocks alignedRecords 11 := fun top => absurd top (by decide)
  obtain ⟨stakes, proxies⟩ := history_feeds_iff alignedFiles_listed emptyTx 11
  refine ⟨stakes.mpr ⟨within, ?_⟩, proxies.mpr within⟩
  unfold LaterNamesLast
  decide +kernel

end IDWDetector.Hunter
