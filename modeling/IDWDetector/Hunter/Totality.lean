import IDWDetector.Hunter.Phases
import IDWDetector.Hunter.Collectors

namespace IDWDetector.Hunter

open Vm

mutual

theorem transfers_ok_iff (tx : InternalTx) :
    (∃ found, transfers tx = .ok found) ↔ ∀ node ∈ tx.nodes, ∀ entry ∈ node.2, malformed entry = false := by
  obtain ⟨_, _, _, _, _, _, events, inTxs⟩ := tx
  rw [InternalTx.nodes, List.forall_mem_cons, and_comm, transfers]
  exact Machine.exists_bind_ok (transfersAll_ok_iff inTxs) fun _ =>
    Machine.exists_bind_pure (extractEvents_ok_iff events)

theorem transfersAll_ok_iff (txs : List InternalTx) :
    (∃ found, transfersAll txs = .ok found) ↔ ∀ node ∈ nodesOf txs, ∀ entry ∈ node.2, malformed entry = false := by
  cases txs with
  | nil => simp [transfersAll, nodesOf]
  | cons tx rest =>
    rw [nodesOf, List.forall_mem_append, transfersAll]
    exact Machine.exists_bind_ok (transfers_ok_iff tx) fun _ => Machine.exists_bind_pure (transfersAll_ok_iff rest)

end

/-- The three walks over a call tree return, and every event that is taken for a transfer has its amount in the
    first word of its data. -/
structure ExtractionTotal (classify : Address → Bytes → Action) (maps : DappMaps) (root : InternalTx) : Prop where
  info : ∀ blockNumber txIndex x, ∃ result, TxExtractor.extractInTxInfo classify blockNumber txIndex root x = .ok result
  stake : ∀ blockNumber x, ∃ result, TxExtractor.extractInTxForStake blockNumber root x = .ok result
  collector : ∀ dicts, ∃ result, TxCollector.parseTxTreeUtil maps root dicts = .ok result
  amount : ∀ event tokenTx, extractEvent event = .ok (some tokenTx) →
    32 ≤ event.data.length ∧ tokenTx.amount = Rlp.bytesNat (event.data.take 32)

theorem extractEvent_amount {event : Event} {tokenTx : TokenTx} (extracted : extractEvent event = .ok (some tokenTx)) :
    32 ≤ event.data.length ∧ tokenTx.amount = Rlp.bytesNat (event.data.take 32) := by
  obtain ⟨address, topics, data, index⟩ := event
  rw [extractEvent_eq] at extracted
  split at extracted
  · cases extracted
  · rename_i wellFormed
    obtain ⟨flow, announces, rfl⟩ := Option.map_eq_some_iff.mp (Except.ok.inj extracted)
    rw [Event.entry] at wellFormed announces
    unfold announced at announces
    split at announces
    · rename_i token topic sender recipient bytes same
      cases same
      split at announces
      · rename_i transfer
        cases announces
        simp only [malformed, transfer, decide_true, Bool.true_and, decide_eq_true_eq] at wellFormed
        exact ⟨Nat.le_of_not_lt wellFormed, rfl⟩
      · cases announces
    · cases announces

/-- The extraction of a call tree is total exactly if every transfer with three topics in it has a word of data. -/
theorem extractionTotal_iff (classify : Address → Bytes → Action) (maps : DappMaps) (root : InternalTx) :
    ExtractionTotal classify maps root ↔ ∀ node ∈ root.nodes, ∀ entry ∈ node.2, malformed entry = false := by
  constructor
  · intro total
    exact (TxCollector.parseTxTreeUtil_ok_iff maps root {}).mp (total.collector {})
  · intro wellFormed
    refine ⟨?_, ?_, ?_, fun event tokenTx extracted => extractEvent_amount extracted⟩
    · intro blockNumber txIndex x
      obtain ⟨c, collected⟩ := (collect_ok_iff classify x.proxyABI blockNumber txIndex root).mpr wellFormed
      rw [extractInTxInfo_eq classify x.proxyABI blockNumber txIndex root x rfl, collected]
      exact ⟨_, rfl⟩
    · intro blockNumber x
      obtain ⟨found, transferred⟩ := (transfers_ok_iff root).mpr wellFormed
      rw [extractInTxForStake_eq, transferred]
      exact ⟨_, rfl⟩
    · intro dicts
      exact (TxCollector.parseTxTreeUtil_ok_iff maps root dicts).mpr wellFormed

def bareTransfer : InternalTx :=
  ⟨0x50, 0x70, true, none, .call, [], [], [⟨0x70, 0x71, true, none, .call, [],
    [⟨0x71, [transferTopic, 0x50, 0x60], [], 0⟩], []⟩]⟩

/-- All three walks panic at the event. -/
theorem bareTransfer_panics :
    TxExtractor.extractInTxInfo (fun _ _ => .none) 1 0 bareTransfer { proxyABI := ∅ } = .error .indexOutOfRange ∧
    TxExtractor.extractInTxForStake 1 bareTransfer { proxyABI := ∅ } = .error .indexOutOfRange ∧
    TxCollector.parseTxTreeUtil ⟨.empty, .empty⟩ bareTransfer {} = .error .indexOutOfRange ∧
    ¬ExtractionTotal (fun _ _ => .none) ⟨.empty, .empty⟩ bareTransfer := by
  refine ⟨rfl, rfl, rfl, ?_⟩
  rw [extractionTotal_iff]
  decide +kernel

end IDWDetector.Hunter
