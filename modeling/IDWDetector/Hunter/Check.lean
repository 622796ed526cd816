import IDWDetector.Hunter.Flow
import IDWDetector.Machine.Traversal

namespace IDWDetector.Hunter

open Machine Go

/-- The deposits and the withdrawals of a user, or of several. -/
abbrev Totals := ℚ × ℚ

def TokenFlow.totals (flow : TokenFlow) : Totals := (flow.totalDeposit, flow.totalWithdraw)

/-- The flow is in a later block, or in a later transaction of the same one. -/
def TokenFlow.after (flow this : TokenFlow) : Bool :=
  decide (this.blockNumber < flow.blockNumber) ||
    (decide (flow.blockNumber = this.blockNumber) && decide (this.txIndex < flow.txIndex))

def totalsUpTo (this : TokenFlow) : List TokenFlow → Totals → Totals
  | [], totals => totals
  | flow :: rest, totals => if flow.after this then totals else totalsUpTo this rest flow.totals

def relatedUsers (userRelatedMap : UserRelatedMap) : Finset Address :=
  userRelatedMap.keys.biUnion fun user => (userRelatedMap.getD user .empty).keys

/-- What `CheckAttack` meets at one flow of a token: the lists as `sort.Sort` leaves them, and the orders in which
    `range` yields the related users. -/
structure Arrangement where
  list : List TokenFlow
  flows : Address → List TokenFlow
  order : Address → Finset Address → List Address

structure AttackInfo where
  blockNumber : Int
  totalDeposit : ℚ
  totalWithdraw : ℚ
  tokenFlowList : List TokenFlow
  relatedUserMap : RelatedMap
  relatedTokenFlowMap : Map Address (List TokenFlow)

abbrev TokenAttackMap := Map Address AttackInfo

def abnormalRate : ℚ := 3
def singleAbnormalRate : ℚ := 1

def abnormal (totals : Totals) : Bool :=
  if 0 < totals.1 then decide (abnormalRate ≤ totals.2 / totals.1)
  else decide (totals.1 = 0) && decide (0 < totals.2)

namespace TxExtractor

variable (x : TxExtractor)

def follows (blockNumber : Int) (user relatedUser : Address) : Bool :=
  decide (relatedUser ∉ x.commonAddressMap) &&
    ((x.userRelatedMap.getD user .empty).lookup relatedUser).any fun block => decide (block ≤ blockNumber)

def getRelatedTokenFlow (flows : Address → List TokenFlow) (order : Address → Finset Address → List Address)
    (this : TokenFlow) : Nat → Address → Finset Address → Option (Totals × Finset Address) :=
  Traversal.visit (x.follows this.blockNumber) order fun user => totalsUpTo this (flows user) 0

def attackTotals (flows : Address → List TokenFlow) (order : Address → Finset Address → List Address) (fuel : Nat)
    (user : Address) (flow : TokenFlow) : Option (Totals × Finset Address) :=
  Traversal.loop (x.getRelatedTokenFlow flows order flow fuel) (x.follows flow.blockNumber user) (order user ∅)
    flow.totals ∅

/-- `abnormalDetection` at one flow. The traversal enters no user twice, so that their
    number is enough fuel. -/
def detect (arrangement : Arrangement) (user : Address) (flow : TokenFlow) : Option AttackInfo := do
  let (totals, used) ← x.attackTotals arrangement.flows arrangement.order (relatedUsers x.userRelatedMap).card user flow
  if abnormal totals then
    some
      { blockNumber := flow.blockNumber
        totalDeposit := totals.1
        totalWithdraw := totals.2
        tokenFlowList := arrangement.flows user
        relatedUserMap := x.userRelatedMap.getD user .empty
        relatedTokenFlowMap := Map.empty.overwrite used fun relatedUser => some (arrangement.flows relatedUser) }
  else none

def checkToken (arrangements : Nat → Arrangement) (user : Address) (length : Nat) : Option AttackInfo :=
  (List.range length).findSome? fun index => do
    let flow ← (arrangements index).list[index]?
    if flow.action = .deposit then none else x.detect (arrangements index) user flow

def checkAttack (tokens : List Address) (arrangements : Address → Nat → Arrangement)
    (userTokenFlowMap : UserTokenFlowMap) (user : Address) : TokenAttackMap × Bool :=
  if user ∈ x.commonAddressMap then (.empty, false)
  else
    let attacks := tokens.filterMap fun tokenAddress =>
      if (x.stableTokenMap.lookup tokenAddress).isSome then none
      else
        (x.checkToken (arrangements tokenAddress) user
          ((userTokenFlowMap.getD user .empty).getD tokenAddress []).length).map fun info => (tokenAddress, info)
    (.ofPairs attacks, !attacks.isEmpty)

end TxExtractor

abbrev FlowTxMap := Map (Int × Int) Totals
abbrev UserTokenFlowTxMap := Map Address (Map Address FlowTxMap)

def mergeFlows (flows : List TokenFlow) : FlowTxMap :=
  flows.foldl (fun merged flow => merged.upsert (flow.blockNumber, flow.txIndex) fun totals =>
    match flow.action with
    | .deposit => totals.getD 0 + (flow.amount, 0)
    | .withdraw => totals.getD 0 + (0, flow.amount)
    | .none => totals.getD 0) .empty

def mergeFlowInTx (userTokenFlowMap : UserTokenFlowMap) : UserTokenFlowTxMap :=
  userTokenFlowMap.mapValues fun _ tokenFlowMap => tokenFlowMap.mapValues fun _ flows => mergeFlows flows

def totalsInTx (userTokenFlowTxMap : UserTokenFlowTxMap) (tokenAddress : Address) (tx : Int × Int) (user : Address) :
    Totals :=
  ((userTokenFlowTxMap.getD user .empty).getD tokenAddress .empty).getD tx 0

namespace TxExtractor

variable (x : TxExtractor)

def getRelatedTokenFlowInTx (userTokenFlowTxMap : UserTokenFlowTxMap) (order : Address → Finset Address → List Address)
    (tokenAddress : Address) (tx : Int × Int) : Nat → Address → Finset Address → Option (Totals × Finset Address) :=
  Traversal.visit (x.follows tx.1) order (totalsInTx userTokenFlowTxMap tokenAddress tx)

def attackTotalsInTx (userTokenFlowTxMap : UserTokenFlowTxMap) (order : Address → Finset Address → List Address)
    (fuel : Nat) (user tokenAddress : Address) (tx : Int × Int) : Option (Totals × Finset Address) :=
  Traversal.loop (x.getRelatedTokenFlowInTx userTokenFlowTxMap order tokenAddress tx fuel) (x.follows tx.1 user)
    (order user ∅) (totalsInTx userTokenFlowTxMap tokenAddress tx user) ∅

/-- The entries that `CheckAttackInTx` reports, of those that `range` yields. -/
def checkAttackInTx (userTokenFlowMap : UserTokenFlowMap) (order : Address → Finset Address → List Address)
    (entries : List (Address × Address × Int × Int)) : List (Address × Address × (Int × Int) × Totals) :=
  let userTokenFlowTxMap := mergeFlowInTx userTokenFlowMap
  entries.filterMap fun (user, tokenAddress, tx) =>
    if user ∈ x.commonAddressMap ∨ 0 < (x.relatedToken.getD .empty).getD user 0 ∨
        (totalsInTx userTokenFlowTxMap tokenAddress tx user).1 ≤ 0 then none
    else do
      let (totals, _) ← x.attackTotalsInTx userTokenFlowTxMap order (relatedUsers x.userRelatedMap).card user
        tokenAddress tx
      if singleAbnormalRate < totals.2 / totals.1 then some (user, tokenAddress, tx, totals) else none

def Relates (blockNumber : Int) (user relatedUser : Address) : Prop :=
  relatedUser ∉ x.commonAddressMap ∧
    ∃ block, (x.userRelatedMap.getD user .empty).lookup relatedUser = some block ∧ block ≤ blockNumber

def Reaches (blockNumber : Int) : Address → Address → Prop := Relation.TransGen (x.Relates blockNumber)

variable {x} {blockNumber : Int} {user relatedUser : Address}

theorem follows_iff : x.follows blockNumber user relatedUser = true ↔ x.Relates blockNumber user relatedUser := by
  simp only [follows, Relates, Bool.and_eq_true, decide_eq_true_eq, Option.any_eq_true]

theorem Relates.mem_relatedUsers (relates : x.Relates blockNumber user relatedUser) :
    relatedUser ∈ relatedUsers x.userRelatedMap := by
  obtain ⟨-, block, found, -⟩ := relates
  have listed : user ∈ x.userRelatedMap.keys := by
    by_contra absent
    rw [Map.getD, (Map.not_mem_keys _ _).mp absent] at found
    cases found
  exact Finset.mem_biUnion.mpr ⟨user, listed, (Map.mem_keys_iff _ _).mpr ⟨block, found⟩⟩

theorem Reaches.not_common (reaches : x.Reaches blockNumber user relatedUser) : relatedUser ∉ x.commonAddressMap := by
  cases reaches with
  | single relates => exact relates.1
  | tail _ relates => exact relates.1

section Traversing

variable {order : Address → Finset Address → List Address}
  (enumerated : ∀ user used, Map.Enumerates (order user used) (x.userRelatedMap.getD user .empty))

include enumerated

theorem relates_iff (blockNumber : Int) (user : Address) (used : Finset Address) (relatedUser : Address) :
    x.Relates blockNumber user relatedUser ↔
      relatedUser ∈ order user used ∧ x.follows blockNumber user relatedUser = true := by
  rw [follows_iff]
  refine ⟨fun relates => ⟨?_, relates⟩, fun both => both.2⟩
  obtain ⟨-, block, found, -⟩ := relates
  rw [(enumerated user used).mem_iff]
  exact (Map.mem_keys_iff _ _).mpr ⟨block, found⟩

theorem traversal_exact (own : Address → Totals) (blockNumber : Int) (fuel : Nat) (user : Address) (totals : Totals)
    (enough : (relatedUsers x.userRelatedMap).card ≤ fuel) :
    ∃ used, Traversal.loop (Traversal.visit (x.follows blockNumber) order own fuel) (x.follows blockNumber user)
        (order user ∅) totals ∅ = some (totals + ∑ relatedUser ∈ used, own relatedUser, used) ∧
      ∀ relatedUser, relatedUser ∈ used ↔ x.Reaches blockNumber user relatedUser :=
  Traversal.start_spec (relates_iff enumerated blockNumber) (fun _ _ relates => relates.mem_relatedUsers) fuel user
    totals enough

end Traversing

/-- The recursion uses exactly the users who are not common and can be reached, and adds what each of them adds
    once. -/
theorem related_users_exact (x : TxExtractor) (order : Address → Finset Address → List Address) (fuel : Nat)
    (user : Address) (enumerated : ∀ user used, Map.Enumerates (order user used) (x.userRelatedMap.getD user .empty))
    (enough : (relatedUsers x.userRelatedMap).card ≤ fuel) :
    (∀ flows flow, ∃ used, x.attackTotals flows order fuel user flow =
        some (flow.totals + ∑ relatedUser ∈ used, totalsUpTo flow (flows relatedUser) 0, used) ∧
      ∀ relatedUser, relatedUser ∈ used ↔
        relatedUser ∉ x.commonAddressMap ∧ x.Reaches flow.blockNumber user relatedUser) ∧
    ∀ userTokenFlowTxMap tokenAddress tx, ∃ used,
      x.attackTotalsInTx userTokenFlowTxMap order fuel user tokenAddress tx =
        some (totalsInTx userTokenFlowTxMap tokenAddress tx user +
          ∑ relatedUser ∈ used, totalsInTx userTokenFlowTxMap tokenAddress tx relatedUser, used) ∧
      ∀ relatedUser, relatedUser ∈ used ↔ relatedUser ∉ x.commonAddressMap ∧ x.Reaches tx.1 user relatedUser := by
  have uncommon (blockNumber : Int) (relatedUser : Address) : x.Reaches blockNumber user relatedUser ↔
      relatedUser ∉ x.commonAddressMap ∧ x.Reaches blockNumber user relatedUser :=
    ⟨fun reaches => ⟨reaches.not_common, reaches⟩, fun both => both.2⟩
  constructor
  · intro flows flow
    obtain ⟨used, ran, reached⟩ := traversal_exact enumerated (fun user => totalsUpTo flow (flows user) 0)
      flow.blockNumber fuel user flow.totals enough
    exact ⟨used, ran, fun relatedUser => (reached relatedUser).trans (uncommon _ _)⟩
  · intro userTokenFlowTxMap tokenAddress tx
    obtain ⟨used, ran, reached⟩ := traversal_exact enumerated (totalsInTx userTokenFlowTxMap tokenAddress tx) tx.1 fuel
      user (totalsInTx userTokenFlowTxMap tokenAddress tx user) enough
    exact ⟨used, ran, fun relatedUser => (reached relatedUser).trans (uncommon _ _)⟩

/-- Two users who are related to each other. Taken together they deposit 2 and withdraw 5. -/
def twoUsers : TxExtractor where
  proxyABI := {0x50}
  commonAddressMap := {0x50}
  userTokenTxMap := (Map.empty.set 0x10 (Map.empty.set 0x60
    [⟨1, 0, 0, 0x10, 0x50, 1, 0x60, .deposit⟩, ⟨2, 0, 0, 0x50, 0x10, 5, 0x60, .withdraw⟩])).set 0x20
    (Map.empty.set 0x60 [⟨1, 1, 0, 0x20, 0x50, 1, 0x60, .deposit⟩])
  userRelatedMap := (Map.empty.set 0x10 (Map.empty.set 0x20 1)).set 0x20 (Map.empty.set 0x10 1)
  relatedToken := some (Map.empty.set 0x60 3)

def twoUserFlows : UserTokenFlowMap := twoUsers.generateUserFlow id fun _ => [0x60]

def twoUserFlow (user : Address) : List TokenFlow := (twoUserFlows.getD user .empty).getD 0x60 []

def twoUserOrder (user : Address) (_ : Finset Address) : List Address :=
  (twoUsers.userRelatedMap.getD user .empty).sortedKeys

def twoUserWithdrawal : TokenFlow := ⟨2, 0, 5, .withdraw, 1, 5⟩

theorem related_users_exact_cycle : ∃ used,
    twoUsers.attackTotals twoUserFlow twoUserOrder 2 0x10 twoUserWithdrawal =
      some (twoUserWithdrawal.totals + ∑ relatedUser ∈ used, totalsUpTo twoUserWithdrawal (twoUserFlow relatedUser) 0,
        used) ∧
    ∀ relatedUser, relatedUser ∈ used ↔ relatedUser ∉ twoUsers.commonAddressMap ∧ twoUsers.Reaches 2 0x10 relatedUser :=
  (related_users_exact twoUsers twoUserOrder 2 0x10 (fun _ _ => Map.sortedKeys_enumerates _) (by decide +kernel)).1
    twoUserFlow twoUserWithdrawal

theorem totals_erase {own : Address → Totals} {used : Finset Address} {totals : Totals} {user : Address} :
    totals + ∑ relatedUser ∈ used, own relatedUser = totals + ∑ relatedUser ∈ used.erase user, own relatedUser ↔
      (user ∈ used → own user = 0) := by
  by_cases inside : user ∈ used
  · rw [← Finset.add_sum_erase used own inside, add_right_inj, add_eq_right]
    exact ⟨fun zero _ => zero, fun zero => zero inside⟩
  · rw [Finset.erase_eq_of_notMem inside]
    exact ⟨fun _ member => absurd member inside, fun _ => rfl⟩

/-- The totals that are checked count every user once exactly if the user cannot be reached from themselves or has
    no totals. -/
theorem attack_totals_once_iff (x : TxExtractor) (order : Address → Finset Address → List Address) (fuel : Nat)
    (user : Address) (enumerated : ∀ user used, Map.Enumerates (order user used) (x.userRelatedMap.getD user .empty))
    (enough : (relatedUsers x.userRelatedMap).card ≤ fuel) :
    (∀ flows flow, ∃ totals used others, x.attackTotals flows order fuel user flow = some (totals, used) ∧
      (∀ other, other ∈ others ↔ other ≠ user ∧ x.Reaches flow.blockNumber user other) ∧
      (totals = flow.totals + ∑ other ∈ others, totalsUpTo flow (flows other) 0 ↔
        (x.Reaches flow.blockNumber user user → totalsUpTo flow (flows user) 0 = 0))) ∧
    ∀ userTokenFlowTxMap tokenAddress tx, ∃ totals used others,
      x.attackTotalsInTx userTokenFlowTxMap order fuel user tokenAddress tx = some (totals, used) ∧
      (∀ other, other ∈ others ↔ other ≠ user ∧ x.Reaches tx.1 user other) ∧
      (totals = totalsInTx userTokenFlowTxMap tokenAddress tx user +
          ∑ other ∈ others, totalsInTx userTokenFlowTxMap tokenAddress tx other ↔
        (x.Reaches tx.1 user user → totalsInTx userTokenFlowTxMap tokenAddress tx user = 0)) := by
  constructor
  · intro flows flow
    obtain ⟨used, ran, reached⟩ := traversal_exact enumerated (fun user => totalsUpTo flow (flows user) 0)
      flow.blockNumber fuel user flow.totals enough
    refine ⟨_, used, used.erase user, ran, ?_, ?_⟩
    · intro other
      rw [Finset.mem_erase, reached]
    · rw [← reached user]
      exact totals_erase
  · intro userTokenFlowTxMap tokenAddress tx
    obtain ⟨used, ran, reached⟩ := traversal_exact enumerated (totalsInTx userTokenFlowTxMap tokenAddress tx) tx.1 fuel
      user (totalsInTx userTokenFlowTxMap tokenAddress tx user) enough
    refine ⟨_, used, used.erase user, ran, ?_, ?_⟩
    · intro other
      rw [Finset.mem_erase, reached]
    · rw [← reached user]
      exact totals_erase

theorem attack_totals_once_iff_cycle : ∃ totals used others,
    twoUsers.attackTotals twoUserFlow twoUserOrder 2 0x10 twoUserWithdrawal = some (totals, used) ∧
    (∀ other, other ∈ others ↔ other ≠ 0x10 ∧ twoUsers.Reaches 2 0x10 other) ∧
    (totals = twoUserWithdrawal.totals + ∑ other ∈ others, totalsUpTo twoUserWithdrawal (twoUserFlow other) 0 ↔
      (twoUsers.Reaches 2 0x10 0x10 → totalsUpTo twoUserWithdrawal (twoUserFlow 0x10) 0 = 0)) :=
  (attack_totals_once_iff twoUsers twoUserOrder 2 0x10 (fun _ _ => Map.sortedKeys_enumerates _)
    (by decide +kernel)).1
    twoUserFlow twoUserWithdrawal

/-- The user at 0x10 is counted twice, which makes an attack of a rate of 5 to 2. -/
theorem user_counted_twice :
    twoUserWithdrawal ∈ twoUserFlow 0x10 ∧
    twoUsers.attackTotals twoUserFlow twoUserOrder 2 0x10 twoUserWithdrawal = some ((3, 10), {0x10, 0x20}) ∧
    twoUserWithdrawal.totals + totalsUpTo twoUserWithdrawal (twoUserFlow 0x20) 0 = (2, 5) ∧
    abnormal (3, 10) = true ∧ abnormal (2, 5) = false ∧
    (twoUsers.checkAttack [0x60] (fun _ _ => ⟨twoUserFlow 0x10, twoUserFlow, twoUserOrder⟩) twoUserFlows 0x10).2 =
      true := by
  decide +kernel

end TxExtractor

end IDWDetector.Hunter
