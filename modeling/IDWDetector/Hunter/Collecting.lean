import IDWDetector.Hunter.Extractor
import IDWDetector.Machine.Run

namespace IDWDetector.Hunter

open Vm Machine

namespace TxExtractor

/-- The actions are numbered in the order in which they were found. -/
def Indexed (x : TxExtractor) : Prop := x.actionInfoList.keys = Finset.range x.actionInfoList.len

section

variable (x : TxExtractor)
include x

@[simp] theorem countTokenTx_proxyABI (tokenTx : TokenTx) : (x.countTokenTx tokenTx).proxyABI = x.proxyABI := by
  unfold countTokenTx
  split <;> rfl

@[simp] theorem countTokenTx_actionInfoList (tokenTx : TokenTx) :
    (x.countTokenTx tokenTx).actionInfoList = x.actionInfoList := by
  unfold countTokenTx
  split <;> rfl

theorem foldl_countTokenTx (tokenTxList : List TokenTx) :
    (tokenTxList.foldl countTokenTx x).proxyABI = x.proxyABI ∧
      (tokenTxList.foldl countTokenTx x).actionInfoList = x.actionInfoList := by
  induction tokenTxList generalizing x with
  | nil => exact ⟨rfl, rfl⟩
  | cons tokenTx rest ih =>
    obtain ⟨proxies, infos⟩ := ih (x.countTokenTx tokenTx)
    rw [List.foldl_cons, proxies, infos]
    simp

@[simp] theorem addAction_proxyABI (info : ActionInfo) :
    (x.addAction info).proxyABI = x.proxyABI := (foldl_countTokenTx x info.tokenTxList).1

theorem addAction_actionInfoList (info : ActionInfo) :
    (x.addAction info).actionInfoList = x.actionInfoList.set x.actionInfoList.len info := by
  have same := (foldl_countTokenTx x info.tokenTxList).2
  simp only [addAction, same]

end

variable {x : TxExtractor}

theorem Indexed.fresh (indexed : x.Indexed) : x.actionInfoList.len ∉ x.actionInfoList.keys := by
  rw [indexed]
  exact Finset.notMem_range_self

theorem Indexed.len_addAction (indexed : x.Indexed) (info : ActionInfo) :
    (x.addAction info).actionInfoList.len = x.actionInfoList.len + 1 := by
  rw [addAction_actionInfoList, Go.Map.len, Go.Map.keys_set, Finset.card_insert_of_notMem indexed.fresh]
  rfl

theorem Indexed.addAction (indexed : x.Indexed) (info : ActionInfo) :
    (x.addAction info).Indexed ∧ (x.addAction info).actionInfoList.values = info ::ₘ x.actionInfoList.values := by
  constructor
  · rw [Indexed, indexed.len_addAction, addAction_actionInfoList, Go.Map.keys_set, indexed, Finset.range_add_one]
  · rw [addAction_actionInfoList, Go.Map.values_set _ _ indexed.fresh]

theorem foldl_addAction_proxyABI (x : TxExtractor) (infos : List ActionInfo) :
    (infos.foldl addAction x).proxyABI = x.proxyABI := by
  induction infos generalizing x with
  | nil => rfl
  | cons info rest ih => rw [List.foldl_cons, ih, addAction_proxyABI]

theorem Indexed.foldl_addAction (indexed : x.Indexed) (infos : List ActionInfo) :
    (infos.foldl TxExtractor.addAction x).Indexed ∧
      (infos.foldl TxExtractor.addAction x).actionInfoList.values = x.actionInfoList.values + infos := by
  induction infos generalizing x with
  | nil => exact ⟨indexed, (Multiset.add_zero _).symm⟩
  | cons info rest ih =>
    obtain ⟨indexed', values⟩ := indexed.addAction info
    obtain ⟨last, values'⟩ := ih indexed'
    refine ⟨last, ?_⟩
    rw [List.foldl_cons, values', values, ← Multiset.cons_coe, Multiset.cons_add, Multiset.add_cons]

end TxExtractor

section Collecting

variable (classify : Address → Bytes → Action) (proxies : Finset Address) (blockNumber txIndex : Int)

mutual

def collect : InternalTx → Except Panic (List TokenTx × List ActionInfo)
  | ⟨fromAddr, toAddr, _, value, _, input, events, inTxs⟩ => do
    let (below, infos) ← collectAll inTxs
    let own ← extractEvents events
    let tokenTxList := etherTx fromAddr toAddr value ++ below ++ own
    if TxExtractor.actionOf classify proxies toAddr input = .none then .ok (tokenTxList, infos)
    else .ok ([], infos ++ [⟨TxExtractor.actionOf classify proxies toAddr input, blockNumber, txIndex, tokenTxList⟩])

def collectAll : List InternalTx → Except Panic (List TokenTx × List ActionInfo)
  | [] => .ok ([], [])
  | tx :: rest => do
    let (first, infos) ← collect tx
    let (later, more) ← collectAll rest
    .ok (first ++ later, infos ++ more)

end

def collected (x : TxExtractor) (c : List TokenTx × List ActionInfo) : List TokenTx × TxExtractor :=
  (c.1, c.2.foldl TxExtractor.addAction x)

mutual

theorem extractInTxInfo_eq (tx : InternalTx) (x : TxExtractor) (same : x.proxyABI = proxies) :
    TxExtractor.extractInTxInfo classify blockNumber txIndex tx x =
      (collect classify proxies blockNumber txIndex tx).map (collected x) := by
  obtain ⟨_, _, _, _, _, _, events, inTxs⟩ := tx
  rw [TxExtractor.extractInTxInfo, collect, extractInTxs_eq inTxs x same, same]
  cases below : collectAll classify proxies blockNumber txIndex inTxs with
  | error panic => rfl
  | ok c =>
    cases own : extractEvents events with
    | error panic => rfl
    | ok own =>
      simp only [Except.map, Bind.bind, Except.bind, collected]
      split
      · rfl
      · simp only [List.foldl_append]
        rfl

theorem extractInTxs_eq (txs : List InternalTx) (x : TxExtractor) (same : x.proxyABI = proxies) :
    TxExtractor.extractInTxs classify blockNumber txIndex txs x =
      (collectAll classify proxies blockNumber txIndex txs).map (collected x) := by
  cases txs with
  | nil => rfl
  | cons tx rest =>
    rw [TxExtractor.extractInTxs, collectAll, extractInTxInfo_eq tx x same]
    cases first : collect classify proxies blockNumber txIndex tx with
    | error panic => rfl
    | ok c =>
      have same' : (c.2.foldl TxExtractor.addAction x).proxyABI = proxies := by
        rw [TxExtractor.foldl_addAction_proxyABI, same]
      simp only [Except.map, Bind.bind, Except.bind, collected]
      rw [extractInTxs_eq rest _ same']
      cases later : collectAll classify proxies blockNumber txIndex rest with
      | error panic => rfl
      | ok c' => simp only [Except.map, collected, List.foldl_append]

end

def Found (info : ActionInfo) : Prop :=
  info.blockNumber = blockNumber ∧ info.txIndex = txIndex ∧ info.action ≠ .none ∧
    ∃ toAddr input, info.action = TxExtractor.actionOf classify proxies toAddr input

mutual

theorem collect_found (tx : InternalTx) (c : List TokenTx × List ActionInfo)
    (result : collect classify proxies blockNumber txIndex tx = .ok c) :
    ∀ info ∈ c.2, Found classify proxies blockNumber txIndex info := by
  obtain ⟨_, toAddr, _, _, _, input, _, inTxs⟩ := tx
  rw [collect] at result
  obtain ⟨below, there, result⟩ := bind_ok.mp result
  obtain ⟨own, -, result⟩ := bind_ok.mp result
  have deeper := collectAll_found inTxs below there
  split at result
  · cases result
    exact deeper
  · rename_i acts
    cases result
    intro info member
    rcases List.mem_append.mp member with member | member
    · exact deeper info member
    · cases List.mem_singleton.mp member
      exact ⟨rfl, rfl, acts, toAddr, input, rfl⟩

theorem collectAll_found (txs : List InternalTx) (c : List TokenTx × List ActionInfo)
    (result : collectAll classify proxies blockNumber txIndex txs = .ok c) :
    ∀ info ∈ c.2, Found classify proxies blockNumber txIndex info := by
  cases txs with
  | nil =>
    cases result
    exact nofun
  | cons tx rest =>
    rw [collectAll] at result
    obtain ⟨first, here, result⟩ := bind_ok.mp result
    obtain ⟨later, there, result⟩ := bind_ok.mp result
    cases result
    intro info member
    rcases List.mem_append.mp member with member | member
    · exact collect_found tx first here info member
    · exact collectAll_found rest later there info member

end

end Collecting

def transferEvent (token sender toAddr : Address) (index : Nat) : Event :=
  ⟨token, [transferTopic, sender.setWidth 256, toAddr.setWidth 256], List.replicate 31 0 ++ [1], index⟩

end IDWDetector.Hunter
