import IDWDetector.Hunter.Collectors

namespace IDWDetector.Hunter

open Vm

section Selecting

variable (maps : DappMaps)

def transferred (nodes : List (InternalTx × List Entry)) : List Payment :=
  nodes.flatMap fun node => node.2.filterMap fun entry => (announced entry).map Prod.snd

namespace DappMaps

/-- The tree calls a proxy of the dapp, or has a transfer that a proxy of it sends or receives. -/
def Concerns (nodes : List (InternalTx × List Entry)) (dapp : String) : Prop :=
  (∃ node ∈ nodes, maps.proxyMap.lookup node.1.toAddr = some dapp) ∨
    ∃ payment ∈ transferred nodes,
      maps.proxyMap.lookup payment.sender = some dapp ∨ maps.proxyMap.lookup payment.recipient = some dapp

/-- The tree calls a stake token of the dapp, and does not only read it. -/
def Stakes (nodes : List (InternalTx × List Entry)) (dapp : String) : Prop :=
  ∃ node ∈ nodes, node.1.callType ≠ .staticCall ∧ maps.stakeMap.lookup node.1.toAddr = some dapp

/-- What the collector sees of a dapp: of a transfer that a proxy sends it does not see the recipient. -/
def Sees (nodes : List (InternalTx × List Entry)) (dapp : String) : Prop :=
  (∃ node ∈ nodes, maps.proxyMap.lookup node.1.toAddr = some dapp) ∨
    ∃ payment ∈ transferred nodes, maps.proxyMap.lookup payment.sender = some dapp ∨
      maps.proxyMap.lookup payment.sender = none ∧ maps.proxyMap.lookup payment.recipient = some dapp

end DappMaps

/-- A transaction with one call tree is recorded as history of exactly the dapps that it concerns. -/
def CollectsExactly (printCall : Bool) (root : InternalTx) : Prop :=
  ∃ records, TxCollector.parseTxAndDump maps printCall true [root] = .ok records ∧
    ∀ dapp, ((.proxy, dapp) ∈ records ↔ maps.Concerns root.nodes dapp) ∧
      ((.stake, dapp) ∈ records ↔ maps.Stakes root.nodes dapp)

variable {maps}

theorem DappMaps.proxyOf_eq (entry : Entry) :
    maps.proxyOf entry = (announced entry).map fun flow =>
      if (maps.proxyMap.lookup flow.2.sender).isSome then flow.2.sender else flow.2.recipient := by
  obtain ⟨address, topics, data⟩ := entry
  rcases topics with _ | ⟨topic, _ | ⟨sender, _ | ⟨recipient, _ | ⟨more, rest⟩⟩⟩⟩
  · rfl
  · rfl
  · rfl
  · simp only [DappMaps.proxyOf, announced]
    split
    · split
      · rename_i known
        simp only [Option.map_some, if_pos known]
      · rename_i unknown
        simp only [Option.map_some, if_neg unknown]
    · rfl
  · rfl

section

variable (nodes : List (InternalTx × List Entry))
include nodes

theorem DappMaps.notified_eq :
    maps.notified nodes = (transferred nodes).map fun payment =>
      if (maps.proxyMap.lookup payment.sender).isSome then payment.sender else payment.recipient := by
  rw [DappMaps.notified, transferred, List.map_flatMap]
  congr 1
  funext node
  rw [List.map_filterMap]
  congr 1
  funext entry
  rw [DappMaps.proxyOf_eq, Option.map_map]
  rfl

theorem DappMaps.sees_iff (dapp : String) :
    (∃ addr, (addr ∈ called nodes ∨ addr ∈ maps.notified nodes) ∧ maps.proxyMap.lookup addr = some dapp) ↔
      maps.Sees nodes dapp := by
  have chosen (payment : Payment) : maps.proxyMap.lookup
      (if (maps.proxyMap.lookup payment.sender).isSome then payment.sender else payment.recipient) = some dapp ↔
        maps.proxyMap.lookup payment.sender = some dapp ∨
          maps.proxyMap.lookup payment.sender = none ∧ maps.proxyMap.lookup payment.recipient = some dapp := by
    cases known : maps.proxyMap.lookup payment.sender with
    | none => simp
    | some other => simp [known]
  simp only [or_and_right, exists_or, called, DappMaps.notified_eq, List.mem_map, DappMaps.Sees, ← chosen]
  constructor
  · rintro (⟨addr, ⟨node, member, rfl⟩, found⟩ | ⟨addr, ⟨payment, member, rfl⟩, found⟩)
    · exact .inl ⟨node, member, found⟩
    · exact .inr ⟨payment, member, found⟩
  · rintro (⟨node, member, found⟩ | ⟨payment, member, found⟩)
    · exact .inl ⟨_, ⟨node, member, rfl⟩, found⟩
    · exact .inr ⟨_, ⟨payment, member, rfl⟩, found⟩

theorem DappMaps.stakes_iff (dapp : String) :
    (∃ addr ∈ staked nodes, maps.stakeMap.lookup addr = some dapp) ↔ maps.Stakes nodes dapp := by
  simp only [staked, List.mem_map, List.mem_filter, decide_eq_true_eq, DappMaps.Stakes]
  constructor
  · rintro ⟨addr, ⟨node, ⟨member, moves⟩, rfl⟩, found⟩
    exact ⟨node, member, moves, found⟩
  · rintro ⟨node, member, moves, found⟩
    exact ⟨_, ⟨node, ⟨member, moves⟩, rfl⟩, found⟩

end

theorem mem_records {printCall : Bool} {root : InternalTx} {records : Finset (HistoryKind × String)}
    (parsed : TxCollector.parseTxAndDump maps printCall true [root] = .ok records) (dapp : String) :
    ((.proxy, dapp) ∈ records ↔ maps.Sees root.nodes dapp) ∧
      ((.stake, dapp) ∈ records ↔ maps.Stakes root.nodes dapp) := by
  rw [← DappMaps.sees_iff, ← DappMaps.stakes_iff]
  exact parseTxAndDump_members parsed dapp

/-- A transaction with one call tree is recorded as history of exactly the dapps that it concerns, just if every
    transfer in it has an amount and no dapp is named only as the recipient of what a proxy sends. -/
theorem collectsExactly_iff (maps : DappMaps) (printCall : Bool) (root : InternalTx) :
    CollectsExactly maps printCall root ↔
      (∀ node ∈ root.nodes, ∀ entry ∈ node.2, malformed entry = false) ∧
      ∀ payment ∈ transferred root.nodes, (maps.proxyMap.lookup payment.sender).isSome →
        ∀ dapp, maps.proxyMap.lookup payment.recipient = some dapp → maps.Sees root.nodes dapp := by
  constructor
  · rintro ⟨records, parsed, exactly⟩
    obtain ⟨dicts, walked, -⟩ := Machine.bind_ok.mp parsed
    refine ⟨(TxCollector.parseTxTreeUtil_ok_iff maps root {}).mp ⟨dicts, walked⟩, ?_⟩
    intro payment member _ dapp found
    rw [← (mem_records parsed dapp).1, (exactly dapp).1]
    exact .inr ⟨payment, member, .inr found⟩
  · rintro ⟨wellFormed, otherwise⟩
    obtain ⟨dicts, walked⟩ := (TxCollector.parseTxTreeUtil_ok_iff maps root {}).mpr wellFormed
    have parsed : TxCollector.parseTxAndDump maps printCall true [root] = .ok _ :=
      Machine.bind_ok.mpr ⟨dicts, walked, rfl⟩
    refine ⟨_, parsed, fun dapp => ⟨?_, (mem_records parsed dapp).2⟩⟩
    rw [(mem_records parsed dapp).1]
    constructor
    · rintro (⟨node, member, found⟩ | ⟨payment, member, found | ⟨-, found⟩⟩)
      · exact .inl ⟨node, member, found⟩
      · exact .inr ⟨payment, member, .inl found⟩
      · exact .inr ⟨payment, member, .inr found⟩
    · rintro (⟨node, member, found⟩ | ⟨payment, member, found | found⟩)
      · exact .inl ⟨node, member, found⟩
      · exact .inr ⟨payment, member, .inl found⟩
      · cases sender : maps.proxyMap.lookup payment.sender with
        | none => exact .inr ⟨payment, member, .inr ⟨sender, found⟩⟩
        | some other => exact otherwise payment member (by rw [sender]; rfl) dapp found

def proxyPayment : InternalTx := ⟨0x50, 0x70, true, none, .call, [], [transferEvent 0xa0 0x10 0x11 0], []⟩

def twoDapps : DappMaps := ⟨(Go.Map.empty.set 0x10 "first").set 0x11 "second", .empty⟩

/-- The payment is recorded for the dapp that pays, and not for the one that is paid. -/
theorem proxyPayment_missed :
    (TxCollector.parseTxAndDump twoDapps false true [proxyPayment]).toOption.any
      (fun records => decide (records = {(.proxy, "first")})) = true ∧
    twoDapps.Concerns proxyPayment.nodes "second" ∧ ¬CollectsExactly twoDapps false proxyPayment := by
  have recorded : (TxCollector.parseTxAndDump twoDapps false true [proxyPayment]).toOption.any
      (fun records => decide (records = {(.proxy, "first")})) = true := by
    decide +kernel
  have concerns : twoDapps.Concerns proxyPayment.nodes "second" :=
    .inr ⟨⟨0x10, 0x11, 1⟩, by decide +kernel, .inr (by decide +kernel)⟩
  refine ⟨recorded, concerns, ?_⟩
  rintro ⟨records, parsed, exactly⟩
  rw [parsed] at recorded
  have second := (exactly "second").1.mpr concerns
  rw [of_decide_eq_true recorded] at second
  simp at second

end Selecting

end IDWDetector.Hunter
