import Mathlib.Algebra.BigOperators.Pi
import Mathlib.Algebra.Order.BigOperators.Group.Finset
import IDWDetector.Hunter.Insertion

namespace IDWDetector.Hunter

open Go

namespace TxExtractor

variable (x : TxExtractor)

def ledgerOf (tokenTxMap : TokenTxMap) (order : List Address) (key : Address) : Option Ledger :=
  if key = 4 then some ⟨x.mergedAmount, transfersIn tokenTxMap order⟩
  else if x.pegged key order = [] then
    if key ∈ order ∧ x.hasFlow key = true then some ⟨amountOf, tokenTxMap.getD key []⟩ else none
  else some ⟨x.stableAmount, transfersIn tokenTxMap (x.pegged key order)⟩

theorem lookup_userFlow_ledgerOf (sort : List TokenTx → List TokenTx) (tokenTxMap : TokenTxMap) (order : List Address)
    (key : Address) : (x.userFlow sort tokenTxMap order).lookup key =
      (x.ledgerOf tokenTxMap order key).map fun ledger => flowList ledger.convert (sort ledger.group) := by
  unfold ledgerOf
  split
  · rename_i merged
    rw [merged, lookup_userFlow_merged]
    rfl
  · rename_i other
    rw [lookup_userFlow _ _ _ _ other]
    split
    · split
      · rfl
      · rfl
    · rfl

def ledger (transfers : UserTokenTxMap) (order : Address → List Address) (key user : Address) : Option Ledger :=
  (transfers.lookup user).bind fun tokenTxMap => x.ledgerOf tokenTxMap (order user) key

theorem lookup_generateUserFlow (sort : List TokenTx → List TokenTx) (order : Address → List Address)
    (key user : Address) : ((x.generateUserFlow sort order).getD user .empty).lookup key =
      (x.ledger x.userTokenTxMap order key user).map fun ledger => flowList ledger.convert (sort ledger.group) := by
  rw [ledger, generateUserFlow, Map.getD, Map.lookup_mapValues]
  cases x.userTokenTxMap.lookup user with
  | none => rfl
  | some tokenTxMap => exact x.lookup_userFlow_ledgerOf sort tokenTxMap (order user) key

section Insertion

variable {tokenTx : TokenTx} {tokenTxMap : TokenTxMap} {first second : List TokenTx} {order : List Address}

variable {tokens : List Address}

variable {x}

theorem mem_pegged {key token : Address} : token ∈ x.pegged key tokens ↔
    token ∈ tokens ∧ ∃ stable, x.stableTokenMap.lookup token = some stable ∧ stable.xToken = key := by
  simp [pegged, Option.any_eq_true]

end Insertion

section Alarms

variable {x} {ledgers old new : Address → Option Ledger} {user : Address} {tokenTx : TokenTx}

variable (x) in
noncomputable def checkedTotals (ledgers : Address → Option Ledger) (user : Address) (flow : TokenFlow) : Totals :=
  flow.totals + ∑ relatedUser ∈ x.reached flow.blockNumber user, ledgerTotals flow (ledgers relatedUser)

variable (x) in
def Alarms (ledgers : Address → Option Ledger) (user : Address) : Prop :=
  ∃ flow ∈ ledgerFlows (ledgers user), flow.action ≠ .deposit ∧ abnormal (x.checkedTotals ledgers user flow) = true

theorem ledgerTotals_nonneg {ledger : Option Ledger} (nonneg : ∀ entry ∈ ledger, entry.Nonneg) (this : TokenFlow) :
    0 ≤ (ledgerTotals this ledger).1 := by
  cases ledger with
  | none => exact le_refl _
  | some entry => exact (Ledger.sharesOf_nonneg (nonneg entry rfl) _)

theorem checkedTotals_nonneg (nonneg : ∀ user, ∀ ledger ∈ ledgers user, ledger.Nonneg) {flow : TokenFlow}
    (member : flow ∈ ledgerFlows (ledgers user)) : 0 ≤ (x.checkedTotals ledgers user flow).1 := by
  have own : 0 ≤ flow.totals.1 := by
    cases found : ledgers user with
    | none =>
      rw [found] at member
      cases member
    | some ledger =>
      rw [found] at member
      exact (nonneg user ledger found).totals member
  rw [checkedTotals, Prod.fst_add, Prod.fst_sum]
  exact add_nonneg own (Finset.sum_nonneg fun relatedUser _ => ledgerTotals_nonneg (nonneg relatedUser) flow)

variable (x user) in
theorem checkedTotals_moved (grown : ∀ user, Grown tokenTx (old user) (new user))
    (nonneg : ∀ user, ∀ ledger ∈ new user, ledger.Nonneg) {flow flow' : TokenFlow}
    (pair : Matched tokenTx flow flow') :
    Moved tokenTx (x.checkedTotals old user flow) (x.checkedTotals new user flow') := by
  have same (user : Address) : ledgerTotals flow' (new user) = ledgerTotals flow (new user) := by
    have upTo : upTo flow' = upTo flow := by
      funext tokenTx
      rw [upTo, upTo, pair.blockNumber, pair.txIndex]
    rw [ledgerTotals, upTo]
    rfl
  rw [checkedTotals, checkedTotals, ← pair.blockNumber]
  simp only [same]
  exact pair.totals.add (.sum _ fun user => (grown user).totals (nonneg user) flow)

variable (grown : ∀ user, Grown tokenTx (old user) (new user))
include grown

theorem Alarms.withdraw (nonneg : ∀ user, ∀ ledger ∈ new user, ledger.Nonneg) (withdraw : tokenTx.action = .withdraw)
    (alarms : x.Alarms old user) : x.Alarms new user := by
  obtain ⟨flow, member, other, found⟩ := alarms
  obtain ⟨flow', listed, pair⟩ := ((grown user).extended (nonneg user)).kept flow member
  refine ⟨flow', listed, pair.action ▸ other, ?_⟩
  have safer := (checkedTotals_moved x user grown nonneg pair).withdraw withdraw
  exact safer.abnormal (checkedTotals_nonneg nonneg listed) found

end Alarms

section Verdicts

variable {x} {order : Address → List Address}

/-- The orders in which `range` yields the tokens of the users and the related users at a flow. -/
structure Choices where
  order : Address → List Address
  tokens : List Address
  related : Address → Nat → Address → Finset Address → List Address

structure Choices.Fits (choices : Choices) (x : TxExtractor) (user : Address) : Prop where
  order : ∀ {user tokenTxMap}, x.userTokenTxMap.lookup user = some tokenTxMap →
    Map.Enumerates (choices.order user) tokenTxMap
  tokens : Map.Enumerates choices.tokens
    ((x.generateUserFlow (stableSort TokenTx.less) choices.order).getD user .empty)
  related : ∀ token index user used,
    Map.Enumerates (choices.related token index user used) (x.userRelatedMap.getD user .empty)

variable {tokenTx : TokenTx}

end Verdicts

/-- One wei goes in and one of wrapped ether comes out in one transaction, in the first event of the block. -/
def tiedTransfers : TokenTxMap := (Map.empty.set 0x0 [⟨2, 0, 0, 0x10, 0x50, 1, 0x0, .deposit⟩]).set weth
  [⟨2, 0, 0, 0x50, 0x10, 1, weth, .withdraw⟩]

def tied : TxExtractor where
  proxyABI := {0x50}
  userTokenTxMap := Map.empty.set 0x10 tiedTransfers
  stableTokenMap := (Map.empty.set 0x0 ⟨18, 0x1, 1⟩).set weth ⟨18, 0x1, 1⟩

end TxExtractor

end IDWDetector.Hunter
