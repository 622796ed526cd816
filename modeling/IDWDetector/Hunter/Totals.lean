import IDWDetector.Go.Sort
import IDWDetector.Hunter.Check
import Mathlib.Algebra.BigOperators.Group.List.Basic

namespace IDWDetector.Hunter

theorem TokenTx.less_iff {a b : TokenTx} : a.less b = true ↔
    a.blockNumber < b.blockNumber ∨ a.blockNumber = b.blockNumber ∧
      (a.txIndex < b.txIndex ∨ a.txIndex = b.txIndex ∧ a.eventIndex < b.eventIndex) := by
  unfold less
  split
  · rename_i lower
    simp [lower]
  · rename_i notLower
    split
    · rename_i same
      split
      · rename_i lower
        simp [same, lower]
      · rename_i notLower'
        split
        · rename_i same'
          simp [same, same']
        · rename_i other
          simp [same, other, notLower']
    · rename_i other
      simp [other, notLower]

theorem TokenTx.less_weakOrder : Go.WeakOrder TokenTx.less where
  asymm := by
    intro a b
    rw [Bool.eq_false_iff, Ne, less_iff, less_iff]
    omega
  trans := by
    intro a b c
    rw [Bool.eq_false_iff, Bool.eq_false_iff, Bool.eq_false_iff, Ne, Ne, Ne, less_iff, less_iff, less_iff]
    omega

section Totals

variable (convert : TokenTx → Option ℚ)

def share (action : Action) (tokenTx : TokenTx) : ℚ :=
  if 0 < tokenTx.amount ∧ tokenTx.action = action then (convert tokenTx).getD 0 else 0

def shares (action : Action) (tokenTxList : List TokenTx) : ℚ := (tokenTxList.map (share convert action)).sum

theorem shares_append (action : Action) (first second : List TokenTx) :
    shares convert action (first ++ second) = shares convert action first + shares convert action second := by
  rw [shares, List.map_append, List.sum_append]
  rfl

def shareOf (tokenTx : TokenTx) : Totals := (share convert .deposit tokenTx, share convert .withdraw tokenTx)

variable (tokenTxList : List TokenTx)

def sharesOf : Totals :=
  (shares convert .deposit tokenTxList, shares convert .withdraw tokenTxList)

theorem sharesOf_eq :
    sharesOf convert tokenTxList = (tokenTxList.map (shareOf convert)).sum := by
  induction tokenTxList with
  | nil => rfl
  | cons tokenTx rest ih =>
    rw [List.map_cons, List.sum_cons, ← ih]
    rfl

theorem sharesOf_append (first second : List TokenTx) :
    sharesOf convert (first ++ second) = sharesOf convert first + sharesOf convert second := by
  rw [sharesOf, shares_append, shares_append]
  rfl

theorem sharesOf_snoc (before : List TokenTx) (tokenTx : TokenTx) :
    sharesOf convert (before ++ [tokenTx]) = sharesOf convert before + shareOf convert tokenTx := by
  rw [sharesOf_append, sharesOf_eq convert [tokenTx], List.map_singleton, List.sum_singleton]

def flowAfter (tokenTx : TokenTx) (amount : ℚ) : TokenFlow where
  blockNumber := tokenTx.blockNumber
  txIndex := tokenTx.txIndex
  amount := amount
  action := tokenTx.action
  totalDeposit := shares convert .deposit (tokenTxList ++ [tokenTx])
  totalWithdraw := shares convert .withdraw (tokenTxList ++ [tokenTx])

def flowOf (tokenTx : TokenTx) : Option TokenFlow :=
  if 0 < tokenTx.amount then (convert tokenTx).map (flowAfter convert tokenTxList tokenTx) else none

def flowState (flows : List TokenFlow) : ℚ × ℚ × List TokenFlow :=
  (shares convert .deposit tokenTxList, shares convert .withdraw tokenTxList, flows)

theorem appendFlow_eq (flows : List TokenFlow) (tokenTx : TokenTx) :
    appendFlow convert (flowState convert tokenTxList flows) tokenTx =
      flowState convert (tokenTxList ++ [tokenTx]) (flows ++ (flowOf convert tokenTxList tokenTx).toList) := by
  have single (action : Action) : shares convert action (tokenTxList ++ [tokenTx]) =
      shares convert action tokenTxList + share convert action tokenTx := by
    rw [shares_append]
    simp [shares]
  by_cases positive : 0 < tokenTx.amount
  · cases converted : convert tokenTx with
    | none => simp [appendFlow, flowState, flowOf, positive, converted, single, share]
    | some amount =>
      simp only [appendFlow, flowState, flowOf, flowAfter, positive, converted, single, share, true_and, if_true,
        Option.map_some, Option.toList_some, Option.getD_some, Prod.mk.injEq, List.append_cancel_left_eq]
      cases tokenTx.action with
      | none => simp
      | deposit => simp
      | withdraw => simp
  · simp [appendFlow, flowState, flowOf, positive, single, share]

def flowsFrom (before : List TokenTx) : List TokenTx → List TokenFlow
  | [] => []
  | tokenTx :: rest => (flowOf convert before tokenTx).toList ++ flowsFrom (before ++ [tokenTx]) rest

theorem foldl_appendFlow_eq (before rest : List TokenTx) (flows : List TokenFlow) :
    rest.foldl (appendFlow convert) (flowState convert before flows) =
      flowState convert (before ++ rest) (flows ++ flowsFrom convert before rest) := by
  induction rest generalizing before flows with
  | nil => simp [flowsFrom]
  | cons tokenTx rest ih =>
    rw [List.foldl_cons, appendFlow_eq, ih, flowsFrom, List.append_assoc, List.append_assoc, List.singleton_append]

theorem flowList_eq :
    flowList convert tokenTxList = .zero :: flowsFrom convert [] tokenTxList := by
  have start : ((0 : ℚ), (0 : ℚ), [TokenFlow.zero]) = flowState convert [] [.zero] := rfl
  rw [flowList, start, foldl_appendFlow_eq]
  rfl

theorem flowsFrom_append (before first second : List TokenTx) :
    flowsFrom convert before (first ++ second) =
      flowsFrom convert before first ++ flowsFrom convert (before ++ first) second := by
  induction first generalizing before with
  | nil => simp [flowsFrom]
  | cons tokenTx rest ih => simp [flowsFrom, ih]

theorem flowOf_some {before : List TokenTx} {tokenTx : TokenTx} {amount : ℚ} (positive : 0 < tokenTx.amount)
    (converted : convert tokenTx = some amount) :
    flowOf convert before tokenTx = some (flowAfter convert before tokenTx amount) := by
  rw [flowOf, if_pos positive, converted]
  rfl

theorem flowAfter_mem_flowList {before after : List TokenTx} {tokenTx : TokenTx} {amount : ℚ}
    (positive : 0 < tokenTx.amount) (converted : convert tokenTx = some amount) :
    flowAfter convert before tokenTx amount ∈ flowList convert (before ++ tokenTx :: after) := by
  rw [flowList_eq, flowsFrom_append, List.nil_append, flowsFrom, flowOf_some convert positive converted]
  simp

end Totals

end IDWDetector.Hunter
