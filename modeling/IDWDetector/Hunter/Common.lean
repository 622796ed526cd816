import IDWDetector.Hunter.Check
import IDWDetector.Hunter.Confluence

namespace IDWDetector.Hunter

open Go Machine

/-- More than 350, or more than four fifths of a number. -/
def mostOf (total count : Nat) : Bool := 350 < count || 4 * total < 5 * count

theorem mostOf_mono {total count count' : Nat} (more : count ≤ count') (most : mostOf total count = true) :
    mostOf total count' = true := by
  simp only [mostOf, Bool.or_eq_true, decide_eq_true_eq] at most ⊢
  omega

namespace ActionInfo

def involves (addr : Address) (info : ActionInfo) : Bool :=
  info.tokenTxList.any fun tokenTx => tokenTx.sender = addr || tokenTx.toAddr = addr

def endpoints (stableTokenMap : Map Address StableToken) (addr : Address) (info : ActionInfo) : Nat :=
  (countedAddresses stableTokenMap info.tokenTxList).count addr

theorem involves_of_endpoints {stableTokenMap : Map Address StableToken} {addr : Address} {info : ActionInfo}
    (counted : 0 < info.endpoints stableTokenMap addr) : info.involves addr = true := by
  obtain ⟨tokenTx, kept, ends⟩ := List.mem_flatMap.mp (List.count_pos_iff.mp counted)
  apply List.any_eq_true.mpr
  refine ⟨tokenTx, (List.mem_filter.mp kept).1, ?_⟩
  simp only [List.mem_cons, List.not_mem_nil, or_false] at ends
  rcases ends with rfl | rfl
  · simp
  · simp

end ActionInfo

namespace TxExtractor

variable (x : TxExtractor)

def participations (addr : Address) : Nat := x.actionInfoList.values.countP fun info => info.involves addr = true

/-- The number of all ends of transfers that count for an address. -/
def allEndpoints (addr : Address) : Nat :=
  (x.actionInfoList.values.map (ActionInfo.endpoints x.stableTokenMap addr)).sum

theorem allEndpoints_le {addr : Address}
    (one : ∀ info ∈ x.actionInfoList.values, info.endpoints x.stableTokenMap addr ≤ 1) :
    x.allEndpoints addr ≤ x.participations addr := by
  unfold allEndpoints participations
  generalize x.actionInfoList.values = infos at one ⊢
  induction infos using Multiset.induction with
  | empty => exact le_rfl
  | cons info rest ih =>
    have later := ih fun other member => one other (Multiset.mem_cons_of_mem member)
    have here := one info (Multiset.mem_cons_self info rest)
    rw [Multiset.map_cons, Multiset.sum_cons, Multiset.countP_cons]
    by_cases counted : 0 < info.endpoints x.stableTokenMap addr
    · rw [if_pos (ActionInfo.involves_of_endpoints counted)]
      omega
    · omega

end TxExtractor

theorem getD_foldl_bump (counts : Map Address Int) (addrs : List Address) (addr : Address) :
    (addrs.foldl bump counts).getD addr 0 = counts.getD addr 0 + addrs.count addr := by
  induction addrs generalizing counts with
  | nil => simp
  | cons first rest ih =>
    rw [List.foldl_cons, ih, bump, Map.getD_upsert, List.count_cons]
    by_cases same : addr = first
    · subst same
      rw [if_pos rfl, if_pos (beq_self_eq_true _), Map.getD]
      push_cast
      ring
    · rw [if_neg same, if_neg (by simpa using Ne.symm same)]
      push_cast
      ring

theorem count_countedAddresses (stableTokenMap : Map Address StableToken)
    (infos : List ActionInfo) (addr : Address) :
    (countedAddresses stableTokenMap (infos.flatMap ActionInfo.tokenTxList)).count addr =
      (infos.map (ActionInfo.endpoints stableTokenMap addr)).sum := by
  induction infos with
  | nil => rfl
  | cons info rest ih =>
    rw [List.map_cons, List.sum_cons, ← ih, List.flatMap_cons, ActionInfo.endpoints,
      countedAddresses, List.filter_append,
      List.flatMap_append, List.count_append]
    rfl

structure TxExtractor.Uncounted (x : TxExtractor) : Prop where
  actionInfoList : x.actionInfoList = .empty
  addressCountMap : x.addressCountMap = .empty

section Counting

variable {classify : Address → Bytes → Action} {x y : TxExtractor} {proxyTxs stakeTxs : List ExternalTx}

theorem TxExtractor.Uncounted.indexed (uncounted : x.Uncounted) : x.Indexed := by
  rw [TxExtractor.Indexed, uncounted.actionInfoList]
  rfl

theorem TxExtractor.Uncounted.count_eq (uncounted : x.Uncounted)
    (extracted : x.extractTxs classify proxyTxs stakeTxs = .ok y) (addr : Address) :
    y.addressCountMap.getD addr 0 = y.allEndpoints addr := by
  rw [extractTxs_eq] at extracted
  obtain ⟨infos, -, extracted⟩ := bind_ok.mp extracted
  obtain ⟨stakes, -, extracted⟩ := bind_ok.mp extracted
  have values := (uncounted.indexed.foldl_addAction infos).2
  rw [uncounted.actionInfoList, Map.values_empty, zero_add] at values
  cases extracted
  rw [TxExtractor.allEndpoints, foldl_applyStake_eq]
  simp only [values]
  rw [foldl_addAction_eq]
  simp only [uncounted.addressCountMap]
  rw [getD_foldl_bump, count_countedAddresses, Multiset.map_coe, Multiset.sum_coe, Map.getD_of_none rfl, zero_add]

theorem extractTxs_proxyABI (extracted : x.extractTxs classify proxyTxs stakeTxs = .ok y) :
    y.proxyABI = x.proxyABI := by
  rw [extractTxs_eq] at extracted
  obtain ⟨infos, -, extracted⟩ := bind_ok.mp extracted
  obtain ⟨stakes, -, extracted⟩ := bind_ok.mp extracted
  cases extracted
  rw [foldl_applyStake_eq]
  exact TxExtractor.foldl_addAction_proxyABI x infos

theorem mem_commonAddressMap_iff (uncounted : x.Uncounted)
    (extracted : x.extractTxs classify proxyTxs stakeTxs = .ok y) {order : List Address}
    (enumerates : Map.Enumerates order y.addressCountMap) (addr : Address) :
    addr ∈ (y.updateCommonAddressMap order).commonAddressMap ↔
      addr ∈ x.proxyABI ∨ mostOf y.actionInfoList.len (y.allEndpoints addr) = true := by
  have common : y.isCommon addr = mostOf y.actionInfoList.len (y.allEndpoints addr) := by
    rw [TxExtractor.isCommon, uncounted.count_eq extracted, mostOf]
    norm_cast
  have listed (most : mostOf y.actionInfoList.len (y.allEndpoints addr) = true) : addr ∈ order := by
    rw [enumerates.mem_iff]
    by_contra missing
    have count := uncounted.count_eq extracted addr
    rw [Map.getD_of_none ((Map.not_mem_keys _ _).mp missing)] at count
    simp [mostOf, show y.allEndpoints addr = 0 by omega] at most
  rw [TxExtractor.updateCommonAddressMap, mem_foldl_insert, extractTxs_proxyABI extracted, common]
  constructor
  · rintro (proxy | ⟨-, most⟩)
    · exact .inl proxy
    · exact .inr most
  · rintro (proxy | most)
    · exact .inl proxy
    · exact .inr ⟨listed most, most⟩

/-- Every common address that is no proxy takes part in most actions, exactly if every address with ends enough
    does. -/
theorem common_participates_iff (uncounted : x.Uncounted)
    (extracted : x.extractTxs classify proxyTxs stakeTxs = .ok y) {order : List Address}
    (enumerates : Map.Enumerates order y.addressCountMap) :
    (∀ addr ∈ (y.updateCommonAddressMap order).commonAddressMap, addr ∉ x.proxyABI →
      mostOf y.actionInfoList.len (y.participations addr) = true) ↔
    ∀ addr ∉ x.proxyABI, mostOf y.actionInfoList.len (y.allEndpoints addr) = true →
      mostOf y.actionInfoList.len (y.participations addr) = true := by
  constructor
  · intro only addr other most
    exact only addr ((mem_commonAddressMap_iff uncounted extracted enumerates addr).mpr (.inr most)) other
  · intro only addr common other
    rcases (mem_commonAddressMap_iff uncounted extracted enumerates addr).mp common with proxy | most
    · exact absurd proxy other
    · exact only addr other most

end Counting

def partsTx (user : Address) (blockNumber : Int) : ExternalTx :=
  ⟨blockNumber, 0, [⟨user, 0x10, true, none, .call, [1, 2, 3, 4],
    [transferEvent 0xa0 user 0x10 0, transferEvent 0xa0 user 0x10 1], []⟩]⟩

/-- The first user takes part in one of two actions, and is exempt from every check. -/
theorem partsTx_exempts : ∃ y order,
    depositExtractor.extractTxs (fun _ _ => .deposit) [partsTx 0x20 5, depositTx 0x30 6] [] =
    .ok y ∧ Map.Enumerates order y.addressCountMap ∧ 0x20 ∉ depositExtractor.proxyABI ∧
    mostOf y.actionInfoList.len (y.participations 0x20) = false ∧
    0x20 ∈ (y.updateCommonAddressMap order).commonAddressMap ∧
    ∀ tokens arrangements userTokenFlowMap,
      (y.updateCommonAddressMap order).checkAttack tokens arrangements userTokenFlowMap 0x20 = (.empty, false) := by
  have ran : (depositExtractor.extractTxs (fun _ _ => .deposit) [partsTx 0x20 5, depositTx 0x30 6] []).toOption.any
      (fun y => decide (y.addressCountMap.keys = [0x20, 0x10, 0x30].toFinset ∧
        mostOf y.actionInfoList.len (y.participations 0x20) = false ∧
        mostOf y.actionInfoList.len (y.allEndpoints 0x20) = true)) = true := by
    decide +kernel
  obtain ⟨y, extracted, holds⟩ := toOption_any ran
  obtain ⟨keys, few, most⟩ := of_decide_eq_true holds
  have enumerates : Map.Enumerates [0x20, 0x10, 0x30] y.addressCountMap := .of_keys (by decide) keys
  have common : 0x20 ∈ (y.updateCommonAddressMap [0x20, 0x10, 0x30]).commonAddressMap :=
    (mem_commonAddressMap_iff ⟨rfl, rfl⟩ extracted enumerates 0x20).mpr (.inr most)
  refine ⟨y, _, extracted, enumerates, by decide, few, common, fun tokens arrangements userTokenFlowMap => ?_⟩
  exact if_pos common

theorem common_participates_deposits : ∃ y order,
    depositExtractor.extractTxs (fun _ _ => .deposit) [depositTx 0x20 7, depositTx 0x30 6] [] = .ok y ∧
    Map.Enumerates order y.addressCountMap ∧
    ∀ addr ∈ (y.updateCommonAddressMap order).commonAddressMap, addr ∉ depositExtractor.proxyABI →
      mostOf y.actionInfoList.len (y.participations addr) = true := by
  have ran : (depositExtractor.extractTxs (fun _ _ => .deposit) [depositTx 0x20 7, depositTx 0x30 6] []).toOption.any
      (fun y => decide (y.addressCountMap.keys = [0x20, 0x10, 0x30].toFinset ∧ ∀ info ∈ y.actionInfoList.values,
        (countedAddresses y.stableTokenMap info.tokenTxList).Nodup)) = true := by
    decide +kernel
  obtain ⟨y, extracted, holds⟩ := toOption_any ran
  obtain ⟨keys, once⟩ := of_decide_eq_true holds
  have enumerates : Map.Enumerates [0x20, 0x10, 0x30] y.addressCountMap := .of_keys (by decide) keys
  refine ⟨y, _, extracted, enumerates, ?_⟩
  refine (common_participates_iff ⟨rfl, rfl⟩ extracted enumerates).mpr fun addr _ most => mostOf_mono ?_ most
  exact y.allEndpoints_le fun info member => List.nodup_iff_count_le_one.mp (once info member) addr

end IDWDetector.Hunter
