import IDWDetector.Go.BigFloat
import IDWDetector.Hunter.Ledgers

namespace IDWDetector.Hunter

open Go

structure FloatFlow where
  blockNumber : Int
  txIndex : Int
  amount : BigFloat
  action : Action
  totalDeposit : BigFloat
  totalWithdraw : BigFloat
deriving DecidableEq

def FloatFlow.value (flow : FloatFlow) : TokenFlow where
  blockNumber := flow.blockNumber
  txIndex := flow.txIndex
  amount := flow.amount.value
  action := flow.action
  totalDeposit := flow.totalDeposit.value
  totalWithdraw := flow.totalWithdraw.value

structure FloatFlow.Enters (convert : TokenTx → Option BigFloat) (tokenTx : TokenTx) (flow : FloatFlow) : Prop where
  blockNumber : flow.blockNumber = tokenTx.blockNumber
  txIndex : flow.txIndex = tokenTx.txIndex
  action : flow.action = tokenTx.action
  amount : convert tokenTx = some flow.amount

/-- The body of the three loops over transfers as they run, with `big.Float`. -/
def appendFloat (convert : TokenTx → Option BigFloat) (state : BigFloat × BigFloat × List FloatFlow)
    (tokenTx : TokenTx) : BigFloat × BigFloat × List FloatFlow :=
  let (totalDeposit, totalWithdraw, flows) := state
  if 0 < tokenTx.amount then
    match convert tokenTx with
    | none => state
    | some amount =>
      let totalDeposit := if tokenTx.action = .deposit then totalDeposit + amount else totalDeposit
      let totalWithdraw := if tokenTx.action = .withdraw then totalWithdraw + amount else totalWithdraw
      (totalDeposit, totalWithdraw,
        flows ++ [⟨tokenTx.blockNumber, tokenTx.txIndex, amount, tokenTx.action, totalDeposit, totalWithdraw⟩])
  else state

def floatList (convert : TokenTx → Option BigFloat) (tokenTxList : List TokenTx) : List FloatFlow :=
  (tokenTxList.foldl (appendFloat convert) (0, 0, [⟨0, 0, 0, .none, 0, 0⟩])).2.2

/-- The amounts of an action one after the other, each sum rounded. -/
def floatAmounts (action : Action) (flows : List FloatFlow) : BigFloat :=
  flows.foldl (fun total flow => if flow.action = action then total + flow.amount else total) 0

def floatTotals (flows : List FloatFlow) : Totals :=
  ((floatAmounts .deposit flows).value, (floatAmounts .withdraw flows).value)

theorem floatAmounts_snoc (action : Action) (flows : List FloatFlow) (flow : FloatFlow) :
    floatAmounts action (flows ++ [flow]) =
      if flow.action = action then floatAmounts action flows + flow.amount else floatAmounts action flows := by
  rw [floatAmounts, List.foldl_append]
  rfl

section Running

variable {convert : TokenTx → Option BigFloat} {state : BigFloat × BigFloat × List FloatFlow} {flow : FloatFlow}
  {before after : List FloatFlow}

/-- The totals of the loop, and of every entry, are the sums of the amounts so far. -/
structure Running (state : BigFloat × BigFloat × List FloatFlow) : Prop where
  totals : (state.1, state.2.1) = (floatAmounts .deposit state.2.2, floatAmounts .withdraw state.2.2)
  entries : ∀ before flow after, state.2.2 = before ++ flow :: after →
    flow.value.totals = floatTotals (before ++ [flow])

/-- A transfer that counts adds its entry; any other adds nothing. -/
theorem appendFloat_cases (convert : TokenTx → Option BigFloat) (state : BigFloat × BigFloat × List FloatFlow)
    (tokenTx : TokenTx) :
    (∃ flow : FloatFlow, flow.Enters convert tokenTx ∧
      flow.totalDeposit = (if flow.action = .deposit then state.1 + flow.amount else state.1) ∧
      flow.totalWithdraw = (if flow.action = .withdraw then state.2.1 + flow.amount else state.2.1) ∧
      appendFloat convert state tokenTx = (flow.totalDeposit, flow.totalWithdraw, state.2.2 ++ [flow])) ∨
    (0 < tokenTx.amount → convert tokenTx = none) ∧ appendFloat convert state tokenTx = state := by
  by_cases positive : 0 < tokenTx.amount
  · cases converted : convert tokenTx with
    | none => exact .inr ⟨fun _ => rfl, by simp only [appendFloat, positive, if_true, converted]⟩
    | some amount =>
      refine .inl ⟨⟨tokenTx.blockNumber, tokenTx.txIndex, amount, tokenTx.action,
        if tokenTx.action = .deposit then state.1 + amount else state.1,
        if tokenTx.action = .withdraw then state.2.1 + amount else state.2.1⟩, ⟨rfl, rfl, rfl, converted⟩, rfl, rfl, ?_⟩
      simp only [appendFloat, positive, if_true, converted]
  · exact .inr ⟨fun counts => absurd counts positive, if_neg positive⟩

theorem Running.step (running : Running state) (tokenTx : TokenTx) : Running (appendFloat convert state tokenTx) := by
  rcases appendFloat_cases convert state tokenTx with ⟨flow, -, deposit, withdraw, same⟩ | ⟨-, same⟩
  · obtain ⟨deposits, withdrawals⟩ := Prod.mk.inj running.totals
    have sums : flow.totalDeposit = floatAmounts .deposit (state.2.2 ++ [flow]) ∧
        flow.totalWithdraw = floatAmounts .withdraw (state.2.2 ++ [flow]) := by
      rw [floatAmounts_snoc, floatAmounts_snoc, ← deposits, ← withdrawals]
      exact ⟨deposit, withdraw⟩
    rw [same]
    refine ⟨Prod.ext sums.1 sums.2, ?_⟩
    intro before last after split
    rcases List.eq_nil_or_concat after with rfl | ⟨init, final, rfl⟩
    · obtain ⟨rfl, same⟩ := List.append_inj' split rfl
      cases same
      rw [floatTotals, ← sums.1, ← sums.2]
      rfl
    · rw [List.concat_eq_append, ← List.cons_append, ← List.append_assoc] at split
      exact running.entries before last init (List.append_inj' split rfl).1
  · rw [same]
    exact running

theorem floatList_totals {list : List TokenTx} (split : floatList convert list = before ++ flow :: after) :
    flow.value.totals = floatTotals (before ++ [flow]) := by
  have start : Running (0, 0, [⟨0, 0, 0, .none, 0, 0⟩]) := by
    refine ⟨rfl, ?_⟩
    intro before flow after split
    rcases List.append_eq_cons_iff.mp split.symm with ⟨rfl, same⟩ | ⟨_, _, rest⟩
    · cases same
      rfl
    · simp at rest
  have running : Running (list.foldl (appendFloat convert) (0, 0, [⟨0, 0, 0, .none, 0, 0⟩])) :=
    List.foldlRecOn list _ start fun _ running tokenTx _ => running.step tokenTx
  exact running.entries before flow after split

theorem mem_foldl_appendFloat {list : List TokenTx} (member : flow ∈ state.2.2) :
    flow ∈ (list.foldl (appendFloat convert) state).2.2 := by
  induction list generalizing state with
  | nil => exact member
  | cons tokenTx rest ih =>
    apply ih
    rcases appendFloat_cases convert state tokenTx with ⟨_, -, -, -, same⟩ | ⟨-, same⟩
    · rw [same]
      exact List.mem_append_left _ member
    · rw [same]
      exact member

theorem exists_enters {list : List TokenTx} {tokenTx : TokenTx} {amount : BigFloat} (member : tokenTx ∈ list)
    (positive : 0 < tokenTx.amount) (converted : convert tokenTx = some amount) :
    ∃ flow ∈ floatList convert list, flow.Enters convert tokenTx := by
  obtain ⟨before, after, rfl⟩ := List.append_of_mem member
  rw [floatList, List.foldl_append, List.foldl_cons]
  rcases appendFloat_cases convert (before.foldl (appendFloat convert) (0, 0, [⟨0, 0, 0, .none, 0, 0⟩])) tokenTx with
    ⟨flow, enters, -, -, same⟩ | ⟨uncounted, -⟩
  · refine ⟨flow, mem_foldl_appendFloat ?_, enters⟩
    rw [same]
    exact List.mem_append_right _ (List.mem_singleton_self flow)
  · rw [uncounted positive] at converted
    cases converted

end Running

namespace TxExtractor

variable (x : TxExtractor)

def amountFloat (tokenTx : TokenTx) : Option BigFloat := some (.setInt tokenTx.amount)

def stableFloat (tokenTx : TokenTx) : Option BigFloat :=
  some (.setInt tokenTx.amount *
    .setInt64 (((x.stableTokenMap.lookup tokenTx.tokenAddress).map StableToken.rate).getD 0))

def mergedFloat (tokenTx : TokenTx) : Option BigFloat :=
  let tokenAddress := tokenTx.tokenAddress
  match x.stableTokenMap.lookup tokenAddress with
  | some stable =>
    if stable.xToken = 2 then some (.setInt tokenTx.amount * .setInt64 stable.rate)
    else
      let tokenAddress := if stable.xToken = 1 then weth else if stable.xToken = 3 then wbtc else tokenAddress
      some (.setInt tokenTx.amount * .setFloat64 (x.swapRate tokenAddress tokenTx.blockNumber))
  | none =>
    if (x.tokenSwapMap.lookup tokenAddress).isSome then
      some (.setInt tokenTx.amount * .setFloat64 (x.swapRate tokenAddress tokenTx.blockNumber))
    else none

def floatLoops : Loops FloatFlow := ⟨floatList amountFloat, floatList x.stableFloat, floatList x.mergedFloat⟩

/-- `GenerateUserFlow` as it runs, with `big.Float`. -/
def generateUserFloats (sort : List TokenTx → List TokenTx) (order : Address → List Address) :
    Map Address (Map Address (List FloatFlow)) :=
  x.userTokenTxMap.mapValues fun userAddress tokenTxMap =>
    x.loopFlows x.floatLoops sort tokenTxMap (order userAddress)

variable {x} {sort : List TokenTx → List TokenTx} {order : Address → List Address} {user key : Address}

theorem lookup_generateUserFloats {tokenTxMap : TokenTxMap} (found : x.userTokenTxMap.lookup user = some tokenTxMap) :
    (x.generateUserFloats sort order).getD user .empty = x.loopFlows x.floatLoops sort tokenTxMap (order user) := by
  rw [generateUserFloats, Map.getD, Map.lookup_mapValues, found]
  rfl

theorem generateUserFloats_totals {flows before after : List FloatFlow} {flow : FloatFlow}
    (held : ((x.generateUserFloats sort order).getD user .empty).lookup key = some flows)
    (split : flows = before ++ flow :: after) : flow.value.totals = floatTotals (before ++ [flow]) := by
  cases found : x.userTokenTxMap.lookup user with
  | none =>
    rw [generateUserFloats, Map.getD, Map.lookup_mapValues, found] at held
    cases held
  | some tokenTxMap =>
    rw [lookup_generateUserFloats found] at held
    obtain ⟨loop, listed, tokens, rfl⟩ := of_lookup_loopFlows held
    simp only [floatLoops, List.mem_cons, List.not_mem_nil, or_false] at listed
    rcases listed with rfl | rfl | rfl
    all_goals exact floatList_totals split

end TxExtractor

end IDWDetector.Hunter
