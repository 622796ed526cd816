import IDWDetector.Hunter.Accounts

namespace IDWDetector.Hunter

open Go Machine

variable {list : List TokenTx} {flow other : TokenFlow}

/-- The orders in which the maps are iterated and in which `sort.Sort` leaves equal elements. -/
structure Run where
  infoOrder : List Nat
  sort : List TokenTx → List TokenTx
  order : Address → List Address
  tokens : Address → List Address
  arrangements : Address → Address → Nat → Arrangement

namespace Run

/-- `ExtractActionInfoList`, `GenerateUserFlow` and `CheckAttack` of a user. -/
def verdict (run : Run) (x : TxExtractor) (user : Address) : Except Panic Bool :=
  (x.extractActionInfoList run.infoOrder).map fun z =>
    (z.checkAttack (run.tokens user) (run.arrangements user) (z.generateUserFlow run.sort run.order) user).2

end Run

/-- What `CheckAttack` can meet at the flows of a user: the lists are sorted, and its own stays as it is unless it
    is sorted again as that of a related user. -/
structure Arranged (x : TxExtractor) (lists : Address → List TokenFlow) (user : Address)
    (arrangements : Nat → Arrangement) : Prop where
  list : ∀ index, Sorted TokenFlow.less (lists user) (arrangements index).list
  flows : ∀ index other, Sorted TokenFlow.less (lists other) ((arrangements index).flows other)
  order : ∀ index other used,
    Map.Enumerates ((arrangements index).order other used) (x.userRelatedMap.getD other .empty)
  kept : ∀ index flow, (arrangements index).list[index]? = some flow →
    flow.action = .deposit ∨ ¬x.Reaches flow.blockNumber user user →
      (arrangements (index + 1)).list = (arrangements index).list

/-- The orders are those of the maps that the functions meet. -/
structure Run.Fits (run : Run) (x : TxExtractor) : Prop where
  infoOrder : Map.Enumerates run.infoOrder x.actionInfoList
  sorts : ∀ list, Sorted TokenTx.less list (run.sort list)
  order : ∀ z, x.extractActionInfoList run.infoOrder = .ok z → ∀ user tokenTxMap,
    z.userTokenTxMap.lookup user = some tokenTxMap → Map.Enumerates (run.order user) tokenTxMap
  tokens : ∀ z, x.extractActionInfoList run.infoOrder = .ok z → ∀ user,
    Map.Enumerates (run.tokens user) ((z.generateUserFlow run.sort run.order).getD user .empty)
  arranged : ∀ z, x.extractActionInfoList run.infoOrder = .ok z → ∀ user tokenAddress,
    Arranged z (fun other => ((z.generateUserFlow run.sort run.order).getD other .empty).getD tokenAddress []) user
      (run.arrangements user tokenAddress)

namespace TxExtractor

variable (x : TxExtractor)

def accountAfter (key user : Address) : Option Account := x.account x.bagAfter key user

def totalsAfter (key : Address) (this : Int × Int) (user : Address) : Totals :=
  ((x.accountAfter key user).map fun account =>
    account.sum (upTo ⟨this.1, this.2, 0, .none, 0, 0⟩)).getD 0

noncomputable def relatedTotals (key user : Address) (this : Int × Int) : Totals :=
  ∑ relatedUser ∈ x.linked.reached this.1 user, x.totalsAfter key this relatedUser

def Alarm (key user : Address) (account : Account) : Prop :=
  ∃ tokenTx ∈ account.entered, tokenTx.action ≠ .deposit ∧
    abnormal (account.sum (fun other => !tokenTx.less other) + x.relatedTotals key user tokenTx.pair) = true

def Alarming (user : Address) : Prop :=
  user ∉ x.commonAddressMap ∧ ∃ key account, x.stableTokenMap.lookup key = none ∧
    x.accountAfter key user = some account ∧ x.Alarm key user account

/-- Only withdrawals have the place of a withdrawal, and the last transfer of a related user up to one is the only
    one of its block. -/
structure Settled : Prop where
  positive : ∀ key user account, x.accountAfter key user = some account → account.Positive
  untied : ∀ key user account, user ∉ x.commonAddressMap → x.stableTokenMap.lookup key = none →
    x.accountAfter key user = some account → account.Untied
  alone : ∀ key user account, user ∉ x.commonAddressMap → x.stableTokenMap.lookup key = none →
    x.accountAfter key user = some account → ∀ tokenTx ∈ account.entered, tokenTx.action ≠ .deposit →
      ∀ relatedUser related, x.linked.Reaches tokenTx.blockNumber user relatedUser →
        x.accountAfter key relatedUser = some related → Alone (related.entered.map TokenTx.pair) tokenTx.pair

end TxExtractor

section Visiting

variable {flows : List TokenFlow} {lists : Nat → List TokenFlow} {first second : List TokenFlow} {index : Nat}

theorem sorted_blocks (sorted : Sorted TokenFlow.less flows first) (sorted' : Sorted TokenFlow.less flows second) :
    first.map TokenFlow.blockNumber = second.map TokenFlow.blockNumber := by
  have inOrder {list : List TokenFlow} (sorted : Sorted TokenFlow.less flows list) :
      (list.map TokenFlow.blockNumber).Pairwise (· ≤ ·) := by
    rw [List.pairwise_map]
    exact sorted.ordered.imp fun order => TokenFlow.less_eq_false.mp order
  exact List.Perm.eq_of_pairwise (fun _ _ _ _ => le_antisymm) (inOrder sorted) (inOrder sorted')
    ((sorted.perm.trans sorted'.perm.symm).map _)

theorem block_le_of_mem_take (sorted : Sorted TokenFlow.less flows first)
    (sorted' : Sorted TokenFlow.less flows second) (found : first[index]? = some flow)
    (member : other ∈ second.take (index + 1)) :
    other.blockNumber ≤ flow.blockNumber := by
  obtain ⟨place, bound, rfl⟩ := List.mem_take_iff_getElem.mp member
  obtain ⟨inside, rfl⟩ := List.getElem?_eq_some_iff.mp found
  have lengths : first.length = second.length := (sorted.perm.trans sorted'.perm.symm).length_eq
  have same : second[place].blockNumber = first[place].blockNumber := by
    have blocks := congrArg (fun list => list[place]?) (sorted_blocks sorted' sorted)
    simpa [lengths, show place < second.length by omega] using blocks
  rw [same]
  rcases Nat.lt_or_eq_of_le (show place ≤ index by omega) with before | rfl
  · exact TokenFlow.less_eq_false.mp (List.pairwise_iff_getElem.mp sorted.ordered place index _ inside before)
  · exact le_refl _

theorem mem_take_of_block_lt {list : List TokenFlow} (ordered : list.Pairwise fun a b => b.less a = false)
    (found : list[index]? = some flow) (member : other ∈ list) (below : other.blockNumber < flow.blockNumber) :
    other ∈ list.take index := by
  obtain ⟨place, bound, rfl⟩ := List.getElem_of_mem member
  obtain ⟨inside, rfl⟩ := List.getElem?_eq_some_iff.mp found
  have before : place < index := by
    by_contra notBefore
    rcases Nat.lt_or_eq_of_le (not_lt.mp notBefore) with behind | rfl
    · have order := TokenFlow.less_eq_false.mp (List.pairwise_iff_getElem.mp ordered index place inside bound behind)
      omega
    · omega
  exact List.mem_take_iff_getElem.mpr ⟨place, by omega, rfl⟩

theorem loop_meets (sorted : ∀ index, Sorted TokenFlow.less flows (lists index))
    (step : ∀ index flow, (lists index)[index]? = some flow → lists (index + 1) = lists index ∨
      ∀ other ∈ flows, other.blockNumber = flow.blockNumber → other = flow) (property : TokenFlow → Prop) :
    (∃ index < flows.length, ∃ flow, (lists index)[index]? = some flow ∧ property flow) ↔
      ∃ flow ∈ flows, property flow := by
  constructor
  · rintro ⟨index, -, flow, found, holds⟩
    exact ⟨flow, (sorted index).perm.subset (List.mem_of_getElem? found), holds⟩
  · rintro ⟨flow, member, holds⟩
    by_contra none
    have length (index : Nat) : (lists index).length = flows.length := (sorted index).perm.length_eq
    -- What the loop has passed is, in the list as it is, never an entry with the property.
    have passed : ∀ index ≤ flows.length, ∀ other ∈ (lists index).take index, ¬property other := by
      intro index
      induction index with
      | zero =>
        intro _ other inside
        cases inside
      | succ index ih =>
        intro bound other inside
        obtain ⟨met, found⟩ : ∃ met, (lists index)[index]? = some met :=
          ⟨_, List.getElem?_eq_getElem (by rw [length]; omega)⟩
        have notMet : ¬property met := fun holds => none ⟨index, by omega, met, found, holds⟩
        have earlier : other ∈ (lists index).take index → ¬property other := ih (by omega) other
        rcases step index met found with kept | only
        · rw [kept, List.take_add_one, found] at inside
          rcases List.mem_append.mp inside with before | same
          · exact earlier before
          · rw [List.mem_singleton.mp same]
            exact notMet
        · have listed : other ∈ flows := (sorted (index + 1)).perm.subset (List.mem_of_mem_take inside)
          have most := block_le_of_mem_take (sorted index) (sorted (index + 1)) found inside
          rcases Int.lt_or_eq_of_le most with below | same
          · exact earlier (mem_take_of_block_lt (sorted index).ordered found
              ((sorted index).perm.symm.subset listed) below)
          · rw [only other listed same]
            exact notMet
    refine passed flows.length (le_refl _) flow ?_ holds
    rw [List.take_of_length_le (length _).le]
    exact (sorted _).perm.symm.subset member

end Visiting

theorem Enters.pairs {convert : TokenTx → Option ℚ} {transfers : List TokenTx} {flows : List TokenFlow}
    (all : List.Forall₂ (Enters convert) transfers flows) : flows.map TokenFlow.pair = transfers.map TokenTx.pair := by
  induction all with
  | nil => rfl
  | cons enters _ ih =>
    rw [List.map_cons, List.map_cons, ih, TokenFlow.pair, TokenTx.pair, enters.blockNumber, enters.txIndex]

theorem pairs_flowsFrom {account : Account} (same : (list : Multiset TokenTx) = account.transfers) :
    ((flowsFrom account.convert [] list).map TokenFlow.pair : Multiset (Int × Int)) =
      account.entered.map TokenTx.pair := by
  rw [Account.entered_eq same, Multiset.map_coe, Enters.pairs (flowsFrom_enters [] list)]

def Lists (sort : List TokenTx → List TokenTx) (account : Option Account) (flows : List TokenFlow) : Prop :=
  match account with
  | none => flows = []
  | some account => ∃ group : List TokenTx, (group : Multiset TokenTx) = account.transfers ∧
    flows = flowList account.convert (sort group)

structure Distributed (run : Run) (x z : TxExtractor) : Prop where
  common : z.commonAddressMap = x.commonAddressMap
  stable : z.stableTokenMap = x.stableTokenMap
  reaches : z.Reaches = x.linked.Reaches
  reached : z.reached = x.linked.reached
  found : ∀ key user, (((z.generateUserFlow run.sort run.order).getD user .empty).lookup key).isSome =
    (x.accountAfter key user).isSome
  lists : ∀ key user, Lists run.sort (x.accountAfter key user)
    (((z.generateUserFlow run.sort run.order).getD user .empty).getD key [])

theorem Run.Fits.distributed {run : Run} {x z : TxExtractor} (fits : run.Fits x)
    (extracted : x.extractActionInfoList run.infoOrder = .ok z) : Distributed run x z := by
  obtain ⟨bag, same⟩ := TxExtractor.extractActionInfoList_bag fits.infoOrder extracted
  have accounts (key user : Address) :
      (z.ledger z.userTokenTxMap run.order key user).map Ledger.account = x.accountAfter key user := by
    rw [TxExtractor.ledger_account (fits.order z extracted), bag]
    exact (congrArg (fun y => TxExtractor.account y x.bagAfter key user) same).trans rfl
  have flows (key user : Address) := z.lookup_generateUserFlow run.sort run.order key user
  refine ⟨(congrArg TxExtractor.commonAddressMap same).trans rfl, (congrArg TxExtractor.stableTokenMap same).trans rfl,
    (congrArg TxExtractor.Reaches same).trans rfl, (congrArg TxExtractor.reached same).trans rfl, ?_, ?_⟩
  · intro key user
    rw [flows, ← accounts, Option.isSome_map, Option.isSome_map]
  · intro key user
    rw [Map.getD, flows, ← accounts]
    cases z.ledger z.userTokenTxMap run.order key user with
    | none => exact rfl
    | some ledger => exact ⟨ledger.group, rfl, rfl⟩

section Accounts

variable {account : Account} {this : TokenFlow}

theorem entered_of_flowsFrom (same : (list : Multiset TokenTx) = account.transfers)
    (member : flow ∈ flowsFrom account.convert [] list) :
    ∃ tokenTx ∈ account.entered, flow.pair = tokenTx.pair ∧ flow.action = tokenTx.action := by
  obtain ⟨tokenTx, listed, enters⟩ := exists_of_forall₂ (flowsFrom_enters [] list) member
  refine ⟨tokenTx, ?_, Prod.ext enters.blockNumber enters.txIndex, enters.action⟩
  rw [Account.entered_eq same]
  exact listed

theorem Account.Positive.clear (positive : account.Positive) (same : (list : Multiset TokenTx) = account.transfers)
    (alone : Alone (account.entered.map TokenTx.pair) this.pair) :
    Clear (flowsFrom account.convert [] list) this where
  positive := by
    intro flow member
    obtain ⟨tokenTx, entered, pair, -⟩ := entered_of_flowsFrom same member
    have block : flow.blockNumber = tokenTx.blockNumber := congrArg Prod.fst pair
    rw [block]
    exact positive tokenTx entered
  alone := by
    rw [pairs_flowsFrom same]
    exact alone

theorem Account.Positive.alone_zero (positive : account.Positive) :
    Alone (account.entered.map TokenTx.pair) TokenFlow.zero.pair := by
  intro last member notAfter
  obtain ⟨tokenTx, entered, rfl⟩ := Multiset.mem_map.mp member
  have block := positive tokenTx entered
  simp only [NotAfter, TokenTx.pair, TokenFlow.pair, TokenFlow.zero] at notAfter
  omega

theorem Account.Positive.sum_zero (positive : account.Positive) : account.sum (upTo .zero) = 0 := by
  apply Multiset.sum_eq_zero
  intro totals summed
  obtain ⟨tokenTx, kept, rfl⟩ := Multiset.mem_map.mp summed
  obtain ⟨member, early⟩ := Multiset.mem_filter.mp kept
  apply shareOf_uncounted
  rw [Bool.eq_false_iff]
  intro counts
  have block := positive tokenTx (Multiset.mem_filter.mpr ⟨member, counts⟩)
  have zero : TokenFlow.zero.blockNumber = 0 := rfl
  rw [upTo_iff] at early
  omega

theorem Lists.totals {sort : List TokenTx → List TokenTx} {found : Option Account} {flows result : List TokenFlow}
    (lists : Lists sort found flows) (sorts : ∀ list, Sorted TokenTx.less list (sort list))
    (settled : ∀ account, found = some account →
      account.Positive ∧ Alone (account.entered.map TokenTx.pair) this.pair)
    (sorted : Sorted TokenFlow.less flows result) :
    totalsUpTo this result 0 = (found.map fun account => account.sum (upTo this)).getD 0 := by
  cases found with
  | none =>
    cases lists
    rw [List.perm_nil.mp sorted.perm]
    rfl
  | some account =>
    obtain ⟨group, same, rfl⟩ := lists
    obtain ⟨positive, alone⟩ := settled account rfl
    have same' : (sort group : Multiset TokenTx) = account.transfers := by
      rw [← same, Multiset.coe_eq_coe]
      exact (sorts group).perm
    rw [totalsUpTo_clear (sorts group).ordered (positive.clear same' alone) sorted, ← Account.sum_eq same']
    rfl

end Accounts

section Verdicts

variable {run : Run} {x z : TxExtractor} {key user : Address} {account : Account}

theorem TxExtractor.Settled.relatedTotals_zero (settled : x.Settled) (key user : Address) :
    x.relatedTotals key user TokenFlow.zero.pair = 0 := by
  apply Finset.sum_eq_zero
  intro relatedUser _
  rw [TxExtractor.totalsAfter]
  cases found : x.accountAfter key relatedUser with
  | none => rfl
  | some related => exact (settled.positive key relatedUser related found).sum_zero

theorem TxExtractor.Settled.related (settled : x.Settled) (uncommon : user ∉ x.commonAddressMap)
    (plain : x.stableTokenMap.lookup key = none) (found : x.accountAfter key user = some account)
    (same : (list : Multiset TokenTx) = account.transfers) (member : flow ∈ flowList account.convert list)
    (withdrawal : flow.action ≠ .deposit) {relatedUser : Address}
    (reaches : x.linked.Reaches flow.blockNumber user relatedUser) (related : Account)
    (known : x.accountAfter key relatedUser = some related) :
    related.Positive ∧ Alone (related.entered.map TokenTx.pair) flow.pair := by
  have positive := settled.positive key relatedUser related known
  refine ⟨positive, ?_⟩
  rw [flowList_eq] at member
  rcases List.mem_cons.mp member with rfl | member
  · exact positive.alone_zero
  · obtain ⟨tokenTx, entered, pair, action⟩ := entered_of_flowsFrom same member
    have block : flow.blockNumber = tokenTx.blockNumber := congrArg Prod.fst pair
    rw [block] at reaches
    rw [pair]
    exact settled.alone key user account uncommon plain found tokenTx entered (action ▸ withdrawal) relatedUser related
      reaches known

theorem Clear.only {convert : TokenTx → Option ℚ} (clear : Clear (flowsFrom convert [] list) flow)
    (member : flow ∈ flowList convert list) (member' : other ∈ flowList convert list)
    (block : other.blockNumber = flow.blockNumber) : other = flow := by
  rw [flowList_eq] at member member'
  have zero : TokenFlow.zero.blockNumber = 0 := rfl
  rcases List.mem_cons.mp member with rfl | listed
  · rcases List.mem_cons.mp member' with rfl | listed'
    · rfl
    · have positive := clear.positive other listed'
      omega
  · have positive := clear.positive flow listed
    rcases List.mem_cons.mp member' with rfl | listed'
    · omega
    · by_contra different
      have early : flow.after flow = false := TokenFlow.after_eq_false.mpr (.inr ⟨rfl, le_refl _⟩)
      have greatest : ∀ other ∈ flowsFrom convert [] list, other.after flow = false →
          other.blockNumber ≤ flow.blockNumber := by
        intro other _ notAfter
        have order := TokenFlow.after_eq_false.mp notAfter
        simp only [NotAfter, TokenFlow.pair] at order
        omega
      obtain ⟨before, after, split⟩ := List.append_of_mem listed
      rw [split] at listed'
      have apart : other ∈ before ++ after := by
        rcases List.mem_append.mp listed' with left | right
        · exact List.mem_append_left _ left
        · exact List.mem_append_right _ ((List.mem_cons.mp right).resolve_left different)
      exact clear.alone.unique listed early greatest split rfl apart block

variable (settled : x.Settled) (fits : run.Fits x) (extracted : x.extractActionInfoList run.infoOrder = .ok z)
include settled fits extracted

theorem checkToken_settled (uncommon : user ∉ x.commonAddressMap) (plain : x.stableTokenMap.lookup key = none)
    (found : x.accountAfter key user = some account) :
    (z.checkToken (run.arrangements user key) user
      (((z.generateUserFlow run.sort run.order).getD user .empty).getD key []).length).isSome = true ↔
      x.Alarm key user account := by
  have distributed := fits.distributed extracted
  have arranged := fits.arranged z extracted user key
  have lists := distributed.lists key user
  rw [found] at lists
  obtain ⟨group, sameGroup, flows⟩ := lists
  have same : (run.sort group : Multiset TokenTx) = account.transfers := by
    rw [← sameGroup, Multiset.coe_eq_coe]
    exact (fits.sorts group).perm
  have totals (index : Nat) {flow : TokenFlow} (member : flow ∈ flowList account.convert (run.sort group))
      (withdrawal : flow.action ≠ .deposit) : z.checked (run.arrangements user key index).flows user flow =
        flow.totals + x.relatedTotals key user flow.pair := by
    rw [TxExtractor.checked, distributed.reached]
    congr 1
    apply Finset.sum_congr rfl
    intro relatedUser inside
    exact (distributed.lists key relatedUser).totals fits.sorts
      (settled.related uncommon plain found same member withdrawal
      (TxExtractor.mem_reached.mp inside)) (arranged.flows index relatedUser)
  have sorted (index : Nat) : Sorted TokenFlow.less (flowList account.convert (run.sort group))
      (run.arrangements user key index).list := flows ▸ arranged.list index
  have listed {index : Nat} {flow : TokenFlow} (met : (run.arrangements user key index).list[index]? = some flow) :
      flow ∈ flowList account.convert (run.sort group) := (sorted index).perm.subset (List.mem_of_getElem? met)
  have step (index : Nat) (flow : TokenFlow) (met : (run.arrangements user key index).list[index]? = some flow) :
      (run.arrangements user key (index + 1)).list = (run.arrangements user key index).list ∨
        ∀ other ∈ flowList account.convert (run.sort group), other.blockNumber = flow.blockNumber → other = flow := by
    by_cases kept : flow.action = .deposit ∨ ¬z.Reaches flow.blockNumber user user
    · exact .inl (arranged.kept index flow met kept)
    · rw [not_or, not_not, distributed.reaches] at kept
      obtain ⟨positive, alone⟩ := settled.related uncommon plain found same (listed met) kept.1 kept.2 account found
      exact .inr fun other member block => (positive.clear same alone).only (listed met) member block
  have met := loop_meets sorted step fun flow => flow.action ≠ .deposit ∧
    abnormal (flow.totals + x.relatedTotals key user flow.pair) = true
  have zero : ¬abnormal (TokenFlow.zero.totals + x.relatedTotals key user TokenFlow.zero.pair) = true := by
    rw [settled.relatedTotals_zero]
    decide +kernel
  rw [TxExtractor.checkToken_isSome_iff arranged.order, flows, TxExtractor.Alarm,
    ← (settled.untied key user account uncommon plain found).alarm_iff same (fits.sorts group).ordered]
  constructor
  · rintro ⟨index, bound, flow, here, withdrawal, alarming⟩
    rw [totals index (listed here) withdrawal] at alarming
    obtain ⟨flow, member, withdrawal, alarming⟩ := met.mp ⟨index, bound, flow, here, withdrawal, alarming⟩
    rw [flowList_eq] at member
    rcases List.mem_cons.mp member with rfl | member
    · exact absurd alarming zero
    · exact ⟨flow, member, withdrawal, alarming⟩
  · rintro ⟨flow, member, withdrawal, alarming⟩
    have inside : flow ∈ flowList account.convert (run.sort group) := by
      rw [flowList_eq]
      exact List.mem_cons_of_mem _ member
    obtain ⟨index, bound, flow, here, withdrawal, alarming⟩ := met.mpr ⟨flow, inside, withdrawal, alarming⟩
    rw [← totals index (listed here) withdrawal] at alarming
    exact ⟨index, bound, flow, here, withdrawal, alarming⟩

theorem checkAttack_settled (user : Address) :
    (z.checkAttack (run.tokens user) (run.arrangements user) (z.generateUserFlow run.sort run.order) user).2 = true ↔
      x.Alarming user := by
  have distributed := fits.distributed extracted
  rw [TxExtractor.checkAttack_iff, TxExtractor.Alarming, distributed.common, distributed.stable]
  apply and_congr_right
  intro uncommon
  apply exists_congr
  intro key
  rw [(fits.tokens z extracted user).mem_iff, Map.mem_keys, distributed.found]
  constructor
  · rintro ⟨held, plain, reported⟩
    obtain ⟨account, found⟩ := Option.isSome_iff_exists.mp held
    exact ⟨account, plain, found, (checkToken_settled settled fits extracted uncommon plain found).mp reported⟩
  · rintro ⟨account, plain, found, alarm⟩
    refine ⟨?_, plain, (checkToken_settled settled fits extracted uncommon plain found).mpr alarm⟩
    rw [found]
    rfl

end Verdicts

/-- The verdict on a user does not depend on the order in which maps are iterated, nor on how equal elements are
    sorted. -/
theorem verdict_independent {x : TxExtractor} (settled : x.Settled) {first second : Run} (fits : first.Fits x)
    (fits' : second.Fits x) (user : Address) :
    Machine.Both (fun verdict verdict' => verdict = verdict') (first.verdict x user) (second.verdict x user) := by
  have renumbered : Renumbered x x := ⟨rfl, rfl⟩
  have both := renumbered.extractActionInfoList fits.infoOrder fits'.infoOrder
  rw [Run.verdict, Run.verdict]
  cases extracted : x.extractActionInfoList first.infoOrder with
  | error panic =>
    cases extracted' : x.extractActionInfoList second.infoOrder with
    | error panic' => trivial
    | ok z' =>
      rw [extracted, extracted'] at both
      exact both.elim
  | ok z =>
    obtain ⟨z', extracted', -⟩ := both.ok extracted
    rw [extracted']
    exact Bool.eq_iff_iff.mpr ((checkAttack_settled settled fits extracted user).trans
      (checkAttack_settled settled fits' extracted' user).symm)

/-- The run that visits the actions in this order, all other maps by key, and sorts stably. -/
def Run.stable (x : TxExtractor) (infoOrder : List Nat) : Run :=
  let z := (x.extractActionInfoList infoOrder).toOption.getD x
  let order (user : Address) := (z.userTokenTxMap.getD user .empty).sortedKeys
  let flowMap := z.generateUserFlow (stableSort TokenTx.less) order
  let list (tokenAddress user : Address) :=
    stableSort TokenFlow.less ((flowMap.getD user .empty).getD tokenAddress [])
  { infoOrder := infoOrder
    sort := stableSort TokenTx.less
    order := order
    tokens := fun user => (flowMap.getD user .empty).sortedKeys
    arrangements := fun user tokenAddress _ => ⟨list tokenAddress user, list tokenAddress, fun other _ =>
      (z.userRelatedMap.getD other .empty).sortedKeys⟩ }

theorem Run.stable_fits {x : TxExtractor} {infoOrder : List Nat}
    (visits : Map.Enumerates infoOrder x.actionInfoList) : (Run.stable x infoOrder).Fits x where
  infoOrder := visits
  sorts := TokenTx.less_weakOrder.stableSort_sorted
  order := by
    intro z extracted user tokenTxMap found
    simp only [Run.stable] at extracted ⊢
    rw [extracted, Except.toOption, Option.getD_some, Map.getD_of_lookup found]
    exact Map.sortedKeys_enumerates _
  tokens := by
    intro z extracted user
    simp only [Run.stable] at extracted ⊢
    rw [extracted, Except.toOption, Option.getD_some]
    exact Map.sortedKeys_enumerates _
  arranged := by
    intro z extracted user tokenAddress
    simp only [Run.stable] at extracted ⊢
    rw [extracted, Except.toOption, Option.getD_some]
    exact ⟨fun _ => TokenFlow.less_weakOrder.stableSort_sorted _,
      fun _ _ => TokenFlow.less_weakOrder.stableSort_sorted _,
      fun _ _ _ => Map.sortedKeys_enumerates _, fun _ _ _ _ => rfl⟩

def etherUser (depositBlock withdrawBlock amount : Int) : TxExtractor where
  proxyABI := {0x10}
  commonAddressMap := {0x10}
  relatedToken := some .empty
  actionInfoList := (Map.empty.set 0 ⟨.deposit, depositBlock, 0, etherTx 0x20 0x10 (some 1)⟩).set 1
    ⟨.withdraw, withdrawBlock, 0, etherTx 0x10 0x20 (some amount)⟩

theorem etherUser_visits (depositBlock withdrawBlock amount : Int) :
    Map.Enumerates [0, 1] (etherUser depositBlock withdrawBlock amount).actionInfoList ∧
      Map.Enumerates [1, 0] (etherUser depositBlock withdrawBlock amount).actionInfoList := by
  have keys : (etherUser depositBlock withdrawBlock amount).actionInfoList.keys = {1, 0} := rfl
  constructor
  · refine ⟨by decide, fun index => ?_⟩
    rw [keys]
    simp [or_comm]
  · refine ⟨by decide, fun index => ?_⟩
    rw [keys]
    simp

/-- The deposit and the withdrawal have no event index, so that the order in which the actions are visited decides. -/
theorem etherUser_undecided : ∃ first second : Run, first.Fits (etherUser 7 7 1) ∧ second.Fits (etherUser 7 7 1) ∧
    first.verdict (etherUser 7 7 1) 0x20 = .ok false ∧ second.verdict (etherUser 7 7 1) 0x20 = .ok true := by
  refine ⟨.stable _ [0, 1], .stable _ [1, 0], Run.stable_fits (etherUser_visits 7 7 1).1,
    Run.stable_fits (etherUser_visits 7 7 1).2, ?_, ?_⟩
  · exact toOption_eq_some (by decide +kernel)
  · exact toOption_eq_some (by decide +kernel)

section Blocks

variable {x : TxExtractor} {key user : Address} {account : Account}

def allTransfers (tokens : Map Address (Multiset TokenTx)) : Multiset TokenTx :=
  tokens.keys.val.bind fun token => tokens.getD token 0

theorem accountOf_le {tokens : Map Address (Multiset TokenTx)} (found : x.accountOf tokens key = some account) :
    account.transfers ≤ Hunter.allTransfers tokens := by
  unfold TxExtractor.accountOf at found
  split at found
  · cases found
    exact le_refl _
  · split at found
    · split at found
      · rename_i held
        cases found
        exact Multiset.le_bind _ held.1
      · cases found
    · cases found
      obtain ⟨rest, split⟩ := Multiset.le_iff_exists_add.mp (Finset.val_le_iff.mpr (Finset.filter_subset
        (fun token => (x.stableTokenMap.lookup token).any (fun stable => stable.xToken = key) = true) tokens.keys))
      rw [Hunter.allTransfers, split, Multiset.add_bind]
      exact Multiset.le_add_right _ _

theorem TxExtractor.Settled.of_blocks (blocks : ∀ user tokens, x.bagAfter.lookup user = some tokens →
      (∀ tokenTx ∈ Hunter.allTransfers tokens, 0 < tokenTx.blockNumber) ∧
        ((Hunter.allTransfers tokens).map TokenTx.blockNumber).Nodup) : x.Settled := by
  have entered {key user : Address} {account : Account} (found : x.accountAfter key user = some account) :
      account.Positive ∧ (account.entered.map TokenTx.blockNumber).Nodup := by
    obtain ⟨tokens, known, here⟩ := Option.bind_eq_some_iff.mp found
    obtain ⟨positive, nodup⟩ := blocks user tokens known
    have part : account.entered ≤ Hunter.allTransfers tokens := (Multiset.filter_le _ _).trans (accountOf_le here)
    exact ⟨fun tokenTx member => positive tokenTx (Multiset.mem_of_le part member),
      Multiset.nodup_of_le (Multiset.map_le_map part) nodup⟩
  refine ⟨fun key user account found => (entered found).1, ?_, ?_⟩
  · intro key user account _ _ found tokenTx member _ other rest notLess notLess'
    have nodup := (entered found).2
    rw [← Multiset.cons_erase member, Multiset.map_cons, Multiset.nodup_cons] at nodup
    obtain ⟨block, -⟩ := TokenTx.tied_iff.mp ⟨notLess, notLess'⟩
    exact absurd (block ▸ Multiset.mem_map_of_mem _ rest) nodup.1
  · intro key user account _ _ _ tokenTx _ _ relatedUser related _ known last member _ _
    have nodup := (entered known).2
    obtain ⟨tokenTx, inside, rfl⟩ := Multiset.mem_map.mp member
    have once := Multiset.count_eq_one_of_mem nodup (Multiset.mem_map_of_mem TokenTx.blockNumber inside)
    rw [Multiset.count_map] at once
    rw [Multiset.countP_map, ← once]
    congr 1
    exact Multiset.filter_congr fun other _ => eq_comm

end Blocks

theorem verdict_independent_blocks : ∃ first second : Run, first.infoOrder = [0, 1] ∧ second.infoOrder = [1, 0] ∧
    first.Fits (etherUser 5 6 9) ∧ second.Fits (etherUser 5 6 9) ∧ first.verdict (etherUser 5 6 9) 0x20 = .ok true ∧
    ∀ user, Machine.Both (fun verdict verdict' => verdict = verdict') (first.verdict (etherUser 5 6 9) user)
      (second.verdict (etherUser 5 6 9) user) := by
  have fits := Run.stable_fits (etherUser_visits 5 6 9).1
  have fits' := Run.stable_fits (etherUser_visits 5 6 9).2
  have gains : (etherUser 5 6 9).gains = ([(0x20, ⟨5, 0, 0, 0x20, 0x10, 1, 0, .deposit⟩),
      (0x20, ⟨6, 0, 0, 0x10, 0x20, 9, 0, .withdraw⟩)] : List (Address × TokenTx)) := by
    decide +kernel
  have settled : (etherUser 5 6 9).Settled := by
    apply TxExtractor.Settled.of_blocks
    intro user tokens found
    rw [TxExtractor.bagAfter, gains, Multiset.coe_foldl, List.foldl_cons, List.foldl_cons, List.foldl_nil, addToBag,
      addToBag, Map.lookup_upsert] at found
    split at found
    · cases found
      decide +kernel
    · rename_i other
      rw [Map.lookup_upsert, if_neg other] at found
      cases found
  exact ⟨_, _, rfl, rfl, fits, fits', toOption_eq_some (by decide +kernel),
    verdict_independent settled fits fits'⟩

end IDWDetector.Hunter
