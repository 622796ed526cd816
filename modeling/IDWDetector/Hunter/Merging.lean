import IDWDetector.Go.Strconv
import IDWDetector.Hunter.Ledgers
import Mathlib.Algebra.BigOperators.Pi
import Mathlib.Algebra.Order.BigOperators.Group.Finset

namespace IDWDetector.Hunter

open Go

def TokenFlow.pair (flow : TokenFlow) : Int × Int := (flow.blockNumber, flow.txIndex)

section Sums

def mergeFlow (merged : FlowTxMap) (flow : TokenFlow) : FlowTxMap :=
  merged.upsert flow.pair fun totals => totals.getD 0 + flow.part

theorem mergeFlows_eq (flows : List TokenFlow) : mergeFlows flows = flows.foldl mergeFlow .empty := by
  rw [mergeFlows]
  congr 1
  funext merged flow
  rw [mergeFlow, TokenFlow.pair, TokenFlow.part]
  cases flow.action with
  | none => simp only [add_zero]
  | deposit => rfl
  | withdraw => rfl

def flowsIn (pair : Int × Int) (flows : List TokenFlow) : List TokenFlow := flows.filter fun flow => flow.pair = pair

theorem lookup_mergeFlows (flows : List TokenFlow) (pair : Int × Int) :
    (mergeFlows flows).lookup pair = if flowsIn pair flows = [] then none else some (partsOf (flowsIn pair flows)) := by
  have along (flows : List TokenFlow) (merged : FlowTxMap) : (flows.foldl mergeFlow merged).lookup pair =
      if flowsIn pair flows = [] then merged.lookup pair
      else some ((merged.lookup pair).getD 0 + partsOf (flowsIn pair flows)) := by
    induction flows generalizing merged with
    | nil => rfl
    | cons flow rest ih =>
      rw [List.foldl_cons, ih, mergeFlow, Map.lookup_upsert]
      have head : flowsIn pair (flow :: rest) = if flow.pair = pair then flow :: flowsIn pair rest
          else flowsIn pair rest := by
        rw [flowsIn, List.filter_cons]
        simp only [decide_eq_true_eq]
        rfl
      by_cases same : flow.pair = pair
      · rw [if_pos same.symm, head, if_pos same, if_neg (List.cons_ne_nil _ _)]
        by_cases last : flowsIn pair rest = []
        · simp [last, partsOf, same]
        · simp [last, partsOf, same, add_assoc]
      · rw [if_neg (Ne.symm same), head, if_neg same]
  rw [mergeFlows_eq, along]
  simp

variable {flows : List TokenFlow}

theorem flowsIn_eq_nil {pair : Int × Int} : flowsIn pair flows = [] ↔ ¬∃ flow ∈ flows, flow.pair = pair := by
  simp [flowsIn]

theorem mem_keys_mergeFlows {pair : Int × Int} :
    pair ∈ (mergeFlows flows).keys ↔ ∃ flow ∈ flows, flow.pair = pair := by
  rw [Map.mem_keys_iff, lookup_mergeFlows]
  by_cases none : flowsIn pair flows = []
  · simp [none, flowsIn_eq_nil.mp none]
  · simp [none, not_not.mp (mt flowsIn_eq_nil.mpr none)]

theorem getLast_totals (listed : ∃ convert list, flows = flowList convert list) :
    ∃ last, flows.getLast? = some last ∧ last.totals = (amounts .deposit flows, amounts .withdraw flows) := by
  obtain ⟨convert, list, rfl⟩ := listed
  have full : flowList convert list ≠ [] := by
    rw [flowList_eq]
    exact List.cons_ne_nil _ _
  have split := List.dropLast_append_getLast full
  refine ⟨_, List.getLast?_eq_some_getLast full, ?_⟩
  rw [flowList_totals list split.symm, split, partsOf_eq]

def sumOf (merged : FlowTxMap) : Totals := ∑ pair ∈ merged.keys, merged.getD pair 0

theorem sumOf_mergeFlow (merged : FlowTxMap) (flow : TokenFlow) :
    sumOf (mergeFlow merged flow) = sumOf merged + flow.part := by
  have value (pair : Int × Int) : (mergeFlow merged flow).getD pair 0 =
      if pair = flow.pair then merged.getD flow.pair 0 + flow.part else merged.getD pair 0 := by
    rw [Map.getD, mergeFlow, Map.lookup_upsert]
    split
    · rfl
    · rfl
  have others (pairs : Finset (Int × Int)) (outside : flow.pair ∉ pairs) :
      ∑ pair ∈ pairs, (mergeFlow merged flow).getD pair 0 = ∑ pair ∈ pairs, merged.getD pair 0 := by
    apply Finset.sum_congr rfl
    intro pair member
    rw [value, if_neg]
    rintro rfl
    exact outside member
  have keys : (mergeFlow merged flow).keys = insert flow.pair merged.keys := Map.keys_set _ _ _
  rw [sumOf, sumOf, keys]
  by_cases inside : flow.pair ∈ merged.keys
  · rw [Finset.insert_eq_of_mem inside, ← Finset.add_sum_erase _ _ inside, others _ (Finset.notMem_erase _ _), value,
      if_pos rfl, ← Finset.add_sum_erase merged.keys _ inside]
    exact add_right_comm _ _ _
  · have absent : merged.getD flow.pair 0 = 0 := by
      rw [Map.getD, (Map.not_mem_keys _ _).mp inside]
      rfl
    rw [Finset.sum_insert inside, others _ inside, value, if_pos rfl, absent, zero_add, add_comm]

theorem sumOf_mergeFlows (flows : List TokenFlow) : sumOf (mergeFlows flows) = partsOf flows := by
  have along (flows : List TokenFlow) (merged : FlowTxMap) :
      sumOf (flows.foldl mergeFlow merged) = sumOf merged + partsOf flows := by
    induction flows generalizing merged with
    | nil => exact (add_zero _).symm
    | cons flow rest ih =>
      rw [List.foldl_cons, ih, sumOf_mergeFlow, partsOf, partsOf, List.map_cons, List.sum_cons, add_assoc]
  rw [mergeFlows_eq, along]
  exact zero_add _

theorem getD_mergeFlowInTx (userTokenFlowMap : UserTokenFlowMap) (user tokenAddress : Address) :
    ((mergeFlowInTx userTokenFlowMap).getD user .empty).getD tokenAddress .empty =
      mergeFlows ((userTokenFlowMap.getD user .empty).getD tokenAddress []) := by
  simp only [mergeFlowInTx, Map.getD]
  rw [Map.lookup_mapValues]
  cases userTokenFlowMap.lookup user with
  | none => rfl
  | some tokenFlowMap =>
    simp only [Option.map_some, Option.getD_some, Map.lookup_mapValues]
    cases tokenFlowMap.lookup tokenAddress <;> rfl

/-- What a user deposits and withdraws of a token in a transaction. -/
def sumsInTx (userTokenFlowMap : UserTokenFlowMap) (tokenAddress : Address) (tx : Int × Int) (user : Address) :
    Totals :=
  let flows := flowsIn tx ((userTokenFlowMap.getD user .empty).getD tokenAddress [])
  (amounts .deposit flows, amounts .withdraw flows)

theorem totalsInTx_mergeFlowInTx (userTokenFlowMap : UserTokenFlowMap) (tokenAddress : Address) (tx : Int × Int) :
    totalsInTx (mergeFlowInTx userTokenFlowMap) tokenAddress tx = sumsInTx userTokenFlowMap tokenAddress tx := by
  funext user
  rw [totalsInTx, getD_mergeFlowInTx, Map.getD, lookup_mergeFlows, sumsInTx, ← partsOf_eq]
  split
  · rename_i none
    rw [none]
    rfl
  · rfl

theorem sumsInTx_nonneg {userTokenFlowMap : UserTokenFlowMap}
    (nonneg : ∀ user tokenAddress, ∀ flow ∈ (userTokenFlowMap.getD user .empty).getD tokenAddress [], 0 ≤ flow.amount)
    (tokenAddress : Address) (tx : Int × Int) (user : Address) :
    0 ≤ (sumsInTx userTokenFlowMap tokenAddress tx user).1 := by
  apply amounts_nonneg
  intro flow member
  exact nonneg user tokenAddress flow (List.mem_of_mem_filter member)

end Sums

section Pointers

structure TokenFlowTx where
  blockNumber : Int
  txIndex : Int
  totalDeposit : Nat
  totalWithdraw : Nat

/-- The floats that were made so far, and a map with pointers to them. -/
structure Merge where
  floats : List ℚ
  flowTxMap : Map Bytes TokenFlowTx

/-- The key of a transaction, with an underscore in between. -/
def blockTx (pair : Int × Int) : Bytes := itoa pair.1 ++ 0x5f :: itoa pair.2

theorem blockTx_injective : Function.Injective blockTx := itoa_append_injective (by decide) (by decide)

/-- The copy of the entry of a flow, which is made first if there is none. -/
def Merge.entry (state : Merge) (flow : TokenFlow) : Merge × TokenFlowTx :=
  match state.flowTxMap.lookup (blockTx flow.pair) with
  | some tokenFlowTx => (state, tokenFlowTx)
  | none =>
    let tokenFlowTx := ⟨flow.blockNumber, flow.txIndex, state.floats.length, state.floats.length + 1⟩
    (⟨state.floats ++ [0, 0], state.flowTxMap.set (blockTx flow.pair) tokenFlowTx⟩, tokenFlowTx)

def addTo (floats : List ℚ) (pointer : Nat) (amount : ℚ) : List ℚ :=
  floats.set pointer (floats.getD pointer 0 + amount)

def addFlow (floats : List ℚ) (tokenFlowTx : TokenFlowTx) (flow : TokenFlow) : List ℚ :=
  match flow.action with
  | .deposit => addTo floats tokenFlowTx.totalDeposit flow.amount
  | .withdraw => addTo floats tokenFlowTx.totalWithdraw flow.amount
  | .none => floats

def Merge.step (state : Merge) (flow : TokenFlow) : Merge :=
  let (state, tokenFlowTx) := state.entry flow
  { state with floats := addFlow state.floats tokenFlowTx flow }

def mergeEach {ν : Type} (body : List ℚ → Address → List ℚ × ν) (keys : List Address) (floats : List ℚ) :
    List ℚ × Map Address ν :=
  keys.foldl (fun state key =>
    let (floats, value) := body state.1 key
    (floats, state.2.set key value)) (floats, .empty)

def mergeList (flows : List TokenFlow) (floats : List ℚ) : List ℚ × Map Bytes TokenFlowTx :=
  let state := flows.foldl Merge.step ⟨floats, .empty⟩
  (state.floats, state.flowTxMap)

/-- `MergeFlowInTx`; `users` and `tokens` are the orders in which `range` yields them. -/
def mergeFlowInTxFloats (userTokenFlowMap : UserTokenFlowMap) (users : List Address) (tokens : Address → List Address) :
    List ℚ × Map Address (Map Address (Map Bytes TokenFlowTx)) :=
  mergeEach (fun floats user => mergeEach (fun floats tokenAddress =>
    mergeList ((userTokenFlowMap.getD user .empty).getD tokenAddress []) floats) (tokens user) floats) users []

def TokenFlowTx.totals (floats : List ℚ) (tokenFlowTx : TokenFlowTx) : Totals :=
  (floats.getD tokenFlowTx.totalDeposit 0, floats.getD tokenFlowTx.totalWithdraw 0)

/-- Floats are only added; those that were there keep their values. -/
structure Grows (floats floats' : List ℚ) : Prop where
  length : floats.length ≤ floats'.length
  getD : ∀ pointer < floats.length, floats'.getD pointer 0 = floats.getD pointer 0

structure Stands (floats : List ℚ) (flowTxMap : Map Bytes TokenFlowTx) (merged : FlowTxMap) : Prop where
  keyed : ∀ {key tokenFlowTx}, flowTxMap.lookup key = some tokenFlowTx →
    key = blockTx (tokenFlowTx.blockNumber, tokenFlowTx.txIndex)
  within : ∀ {key tokenFlowTx}, flowTxMap.lookup key = some tokenFlowTx →
    tokenFlowTx.totalDeposit < floats.length ∧ tokenFlowTx.totalWithdraw < floats.length
  totals : ∀ pair, merged.lookup pair = (flowTxMap.lookup (blockTx pair)).map (TokenFlowTx.totals floats)

/-- No two pointers of a map are the same, and none is one that was there before. -/
structure Separate (base : List ℚ) (flowTxMap : Map Bytes TokenFlowTx) : Prop where
  fresh : ∀ {key tokenFlowTx}, flowTxMap.lookup key = some tokenFlowTx → base.length ≤ tokenFlowTx.totalDeposit
  next : ∀ {key tokenFlowTx}, flowTxMap.lookup key = some tokenFlowTx →
    tokenFlowTx.totalWithdraw = tokenFlowTx.totalDeposit + 1
  apart : ∀ {key key' tokenFlowTx tokenFlowTx'}, flowTxMap.lookup key = some tokenFlowTx →
    flowTxMap.lookup key' = some tokenFlowTx' → key ≠ key' →
      tokenFlowTx.totalWithdraw < tokenFlowTx'.totalDeposit ∨ tokenFlowTx'.totalWithdraw < tokenFlowTx.totalDeposit

theorem Grows.refl (floats : List ℚ) : Grows floats floats := ⟨le_refl _, fun _ _ => rfl⟩

theorem Grows.trans {first second third : List ℚ} (grows : Grows first second) (grows' : Grows second third) :
    Grows first third := by
  refine ⟨grows.length.trans grows'.length, ?_⟩
  intro pointer within
  rw [grows'.getD pointer (within.trans_le grows.length), grows.getD pointer within]

variable {flowTxMap : Map Bytes TokenFlowTx} {merged : FlowTxMap} {floats : List ℚ} {base : List ℚ} {state : Merge}
  {tokenFlowTx : TokenFlowTx}

theorem Stands.grow {floats floats' : List ℚ} (stands : Stands floats flowTxMap merged) (grows : Grows floats floats') :
    Stands floats' flowTxMap merged := by
  refine ⟨stands.keyed, ?_, ?_⟩
  · intro key tokenFlowTx found
    obtain ⟨deposit, withdraw⟩ := stands.within found
    exact ⟨deposit.trans_le grows.length, withdraw.trans_le grows.length⟩
  · intro pair
    rw [stands.totals]
    cases found : flowTxMap.lookup (blockTx pair) with
    | none => rfl
    | some tokenFlowTx =>
      obtain ⟨deposit, withdraw⟩ := stands.within found
      rw [Option.map_some, Option.map_some, TokenFlowTx.totals, TokenFlowTx.totals, grows.getD _ deposit,
        grows.getD _ withdraw]

theorem getD_addTo {pointer : Nat} (within : pointer < floats.length) (amount : ℚ) (other : Nat) :
    (addTo floats pointer amount).getD other 0 = floats.getD other 0 + if other = pointer then amount else 0 := by
  rw [addTo, List.getD_eq_getElem?_getD, List.getElem?_set]
  by_cases same : pointer = other
  · subst same
    simp [within]
  · simp [same, Ne.symm same]

theorem length_addFlow (floats : List ℚ) (tokenFlowTx : TokenFlowTx) (flow : TokenFlow) :
    (addFlow floats tokenFlowTx flow).length = floats.length := by
  unfold addFlow addTo
  split
  · exact List.length_set
  · exact List.length_set
  · rfl

theorem getD_addFlow (deposit : tokenFlowTx.totalDeposit < floats.length)
    (withdraw : tokenFlowTx.totalWithdraw < floats.length) (flow : TokenFlow) (pointer : Nat) :
    (addFlow floats tokenFlowTx flow).getD pointer 0 = floats.getD pointer 0 +
      (if pointer = tokenFlowTx.totalDeposit then flow.part.1 else 0) +
      if pointer = tokenFlowTx.totalWithdraw then flow.part.2 else 0 := by
  unfold addFlow TokenFlow.part
  cases flow.action with
  | none => simp
  | deposit => simp only [getD_addTo deposit, ite_self, add_zero]
  | withdraw => simp only [getD_addTo withdraw, ite_self, add_zero]

theorem grows_append (floats more : List ℚ) : Grows floats (floats ++ more) := by
  constructor
  · rw [List.length_append]
    exact Nat.le_add_right _ _
  · intro pointer within
    rw [List.getD_eq_getElem?_getD, List.getElem?_append_left within, List.getD_eq_getElem?_getD]

structure Merge.Follows (base : List ℚ) (state : Merge) (merged : FlowTxMap) : Prop where
  stands : Stands state.floats state.flowTxMap merged
  separate : Separate base state.flowTxMap
  grows : Grows base state.floats

theorem Merge.Follows.entry (follows : state.Follows base merged) (flow : TokenFlow) :
    (state.entry flow).1.Follows base (merged.upsert flow.pair fun totals => totals.getD 0) ∧
      (state.entry flow).1.flowTxMap.lookup (blockTx flow.pair) = some (state.entry flow).2 := by
  obtain ⟨stands, separate, grows⟩ := follows
  unfold Merge.entry
  cases found : state.flowTxMap.lookup (blockTx flow.pair) with
  | some tokenFlowTx =>
    have same : merged.upsert flow.pair (fun totals => totals.getD 0) = merged := by
      apply Map.ext
      intro pair
      rw [Map.lookup_upsert]
      split_ifs with here
      · rw [here, stands.totals, found]
        rfl
      · rfl
    simp only [same]
    exact ⟨⟨stands, separate, grows⟩, found⟩
  | none =>
    simp only [Map.lookup_set_self, and_true]
    have more := grows_append state.floats [0, 0]
    have stands' := stands.grow more
    refine ⟨⟨?_, ?_, ?_⟩, ⟨?_, ?_, ?_⟩, grows.trans more⟩
    · intro key tokenFlowTx held
      rcases Map.of_lookup_set held with ⟨here, rfl⟩ | held
      · exact here
      · exact stands.keyed held
    · intro key tokenFlowTx held
      rcases Map.of_lookup_set held with ⟨-, rfl⟩ | held
      · simp
      · exact stands'.within held
    · intro pair
      rw [Map.lookup_upsert, Map.lookup_set]
      by_cases here : pair = flow.pair
      · rw [if_pos here, if_pos (congrArg blockTx here), stands.totals, found]
        simp [TokenFlowTx.totals]
        rfl
      · rw [if_neg here, if_neg fun same => here (blockTx_injective same), stands'.totals]
    · intro key tokenFlowTx held
      rcases Map.of_lookup_set held with ⟨-, rfl⟩ | held
      · exact grows.length
      · exact separate.fresh held
    · intro key tokenFlowTx held
      rcases Map.of_lookup_set held with ⟨-, rfl⟩ | held
      · rfl
      · exact separate.next held
    · intro key key' tokenFlowTx tokenFlowTx' held held' other
      rcases Map.of_lookup_set held with ⟨here, rfl⟩ | held <;>
        rcases Map.of_lookup_set held' with ⟨here', rfl⟩ | held'
      · exact absurd (here.trans here'.symm) other
      · exact .inr (stands.within held').2
      · exact .inl (stands.within held).2
      · exact separate.apart held held' other

theorem Merge.Follows.addFlow (follows : state.Follows base merged) {flow : TokenFlow}
    (found : state.flowTxMap.lookup (blockTx flow.pair) = some tokenFlowTx) :
    Merge.Follows base { state with floats := addFlow state.floats tokenFlowTx flow } (mergeFlow merged flow) := by
  obtain ⟨stands, separate, grows⟩ := follows
  obtain ⟨deposit, withdraw⟩ := stands.within found
  have value := getD_addFlow deposit withdraw flow
  have length := length_addFlow state.floats tokenFlowTx flow
  have next := separate.next found
  refine ⟨⟨stands.keyed, ?_, ?_⟩, separate, ?_, ?_⟩
  · intro key other held
    rw [length]
    exact stands.within held
  · intro pair
    rw [mergeFlow, Map.lookup_upsert]
    by_cases here : pair = flow.pair
    · rw [if_pos here, here, stands.totals, found, Option.map_some, Option.map_some, Option.getD_some]
      rw [TokenFlowTx.totals, TokenFlowTx.totals, value, value, if_pos rfl, if_neg (by omega), if_neg (by omega),
        if_pos rfl, add_zero, add_zero]
      rfl
    · rw [if_neg here, stands.totals]
      cases held : state.flowTxMap.lookup (blockTx pair) with
      | none => rfl
      | some other =>
        have apart := separate.apart held found fun same => here (blockTx_injective same)
        have next' := separate.next held
        rw [Option.map_some, Option.map_some, TokenFlowTx.totals, TokenFlowTx.totals, value, value,
          if_neg (by omega), if_neg (by omega), if_neg (by omega), if_neg (by omega)]
        simp only [add_zero]
  · rw [length]
    exact grows.length
  · intro pointer within
    have fresh := separate.fresh found
    rw [value, if_neg (by omega), if_neg (by omega), add_zero, add_zero]
    exact grows.getD pointer within

theorem Merge.Follows.step (follows : state.Follows base merged) (flow : TokenFlow) :
    (state.step flow).Follows base (mergeFlow merged flow) := by
  obtain ⟨follows', found⟩ := follows.entry flow
  have twice : mergeFlow (merged.upsert flow.pair fun totals => totals.getD 0) flow = mergeFlow merged flow := by
    apply Map.ext
    intro pair
    simp only [mergeFlow, Map.lookup_upsert, if_true]
    split
    · rfl
    · rfl
  have added := follows'.addFlow found
  rw [twice] at added
  exact added

theorem mergeList_stands (flows : List TokenFlow) (floats : List ℚ) :
    Stands (mergeList flows floats).1 (mergeList flows floats).2 (mergeFlows flows) ∧
      Grows floats (mergeList flows floats).1 := by
  have along (flows : List TokenFlow) (state : Merge) (merged : FlowTxMap) (follows : state.Follows floats merged) :
      (flows.foldl Merge.step state).Follows floats (flows.foldl mergeFlow merged) := by
    induction flows generalizing state merged with
    | nil => exact follows
    | cons flow rest ih => exact ih _ _ (follows.step flow)
  have start : Merge.Follows floats ⟨floats, .empty⟩ .empty :=
    ⟨⟨nofun, nofun, fun _ => rfl⟩, ⟨nofun, nofun, nofun⟩, .refl _⟩
  obtain ⟨stands, -, grows⟩ := along flows _ _ start
  rw [mergeFlows_eq]
  exact ⟨stands, grows⟩

section Each

variable {ν : Type} {body : List ℚ → Address → List ℚ × ν} (good : Address → List ℚ → ν → Prop)

theorem mergeEach_all (made : ∀ floats key, good key (body floats key).1 (body floats key).2 ∧
    Grows floats (body floats key).1)
    (kept : ∀ {floats floats' key value}, good key floats value → Grows floats floats' → good key floats' value)
    (keys : List Address) (floats : List ℚ) :
    (∀ key ∈ keys, ∃ value, (mergeEach body keys floats).2.lookup key = some value ∧
      good key (mergeEach body keys floats).1 value) ∧ Grows floats (mergeEach body keys floats).1 := by
  induction keys using List.reverseRecOn with
  | nil => exact ⟨nofun, .refl floats⟩
  | append_singleton keys key ih =>
    obtain ⟨all, grows⟩ := ih
    have last : mergeEach body (keys ++ [key]) floats = ((body (mergeEach body keys floats).1 key).1,
        (mergeEach body keys floats).2.set key (body (mergeEach body keys floats).1 key).2) := by
      rw [mergeEach, List.foldl_append]
      rfl
    obtain ⟨holds, more⟩ := made (mergeEach body keys floats).1 key
    rw [last]
    refine ⟨?_, grows.trans more⟩
    intro other member
    rw [Map.lookup_set]
    split
    · rename_i same
      subst same
      exact ⟨_, rfl, holds⟩
    · rename_i different
      rcases List.mem_append.mp member with earlier | here
      · obtain ⟨value, found, holds'⟩ := all other earlier
        exact ⟨value, found, kept holds' more⟩
      · exact absurd (List.mem_singleton.mp here) different

end Each

def totalsAt (floats : List ℚ) (flowTxMap : Map Bytes TokenFlowTx) (key : Bytes) : Totals :=
  ((flowTxMap.lookup key).map (TokenFlowTx.totals floats)).getD 0

section Listed

variable (userTokenFlowMap : UserTokenFlowMap) (users : List Address) (tokens : Address → List Address)
  {user tokenAddress : Address} (userListed : user ∈ users) (tokenListed : tokenAddress ∈ tokens user)

include userListed tokenListed

theorem mergeFlowInTxFloats_stands :
    ∃ tokenFlowTxMap flowTxMap, (mergeFlowInTxFloats userTokenFlowMap users tokens).2.lookup user =
      some tokenFlowTxMap ∧
      tokenFlowTxMap.lookup tokenAddress = some flowTxMap ∧
      Stands (mergeFlowInTxFloats userTokenFlowMap users tokens).1 flowTxMap
        (mergeFlows ((userTokenFlowMap.getD user .empty).getD tokenAddress [])) := by
  let ofToken (user tokenAddress : Address) (floats : List ℚ) (flowTxMap : Map Bytes TokenFlowTx) : Prop :=
    Stands floats flowTxMap (mergeFlows ((userTokenFlowMap.getD user .empty).getD tokenAddress []))
  let ofUser (user : Address) (floats : List ℚ) (tokenFlowTxMap : Map Address (Map Bytes TokenFlowTx)) : Prop :=
    ∀ tokenAddress ∈ tokens user, ∃ flowTxMap, tokenFlowTxMap.lookup tokenAddress = some flowTxMap ∧
      ofToken user tokenAddress floats flowTxMap
  have keptOfUser {floats floats' : List ℚ} {user : Address}
    {tokenFlowTxMap : Map Address (Map Bytes TokenFlowTx)}
      (holds : ofUser user floats tokenFlowTxMap) (grows : Grows floats floats') :
        ofUser user floats' tokenFlowTxMap := by
    intro tokenAddress listed
    obtain ⟨flowTxMap, found, stands⟩ := holds tokenAddress listed
    exact ⟨flowTxMap, found, stands.grow grows⟩
  have madeOfUser (floats : List ℚ) (user : Address) := mergeEach_all (ofToken user)
    (fun floats tokenAddress => mergeList_stands ((userTokenFlowMap.getD user .empty).getD tokenAddress []) floats)
    (fun stands grows => stands.grow grows) (tokens user) floats
  obtain ⟨all, -⟩ := mergeEach_all ofUser madeOfUser keptOfUser users []
  obtain ⟨tokenFlowTxMap, found, holds⟩ := all user userListed
  obtain ⟨flowTxMap, found', stands⟩ := holds tokenAddress tokenListed
  exact ⟨tokenFlowTxMap, flowTxMap, found, found', stands⟩

end Listed

theorem Stands.keys (stands : Stands floats flowTxMap merged) :
    flowTxMap.keys = merged.keys.map ⟨blockTx, blockTx_injective⟩ := by
  ext key
  rw [Finset.mem_map, Map.mem_keys_iff]
  constructor
  · rintro ⟨tokenFlowTx, found⟩
    have keyed := stands.keyed found
    refine ⟨(tokenFlowTx.blockNumber, tokenFlowTx.txIndex), ?_, keyed.symm⟩
    rw [Map.mem_keys_iff, stands.totals, ← keyed, found]
    exact ⟨_, rfl⟩
  · rintro ⟨pair, member, rfl⟩
    rw [Map.mem_keys_iff, stands.totals] at member
    obtain ⟨totals, found⟩ := member
    obtain ⟨tokenFlowTx, held, -⟩ := Option.map_eq_some_iff.mp found
    exact ⟨tokenFlowTx, held⟩

theorem Stands.sum (stands : Stands floats flowTxMap merged) :
    ∑ key ∈ flowTxMap.keys, totalsAt floats flowTxMap key = sumOf merged := by
  rw [stands.keys, Finset.sum_map, sumOf]
  apply Finset.sum_congr rfl
  intro pair _
  rw [Map.getD, stands.totals]
  rfl

end Pointers

/-- `CheckAttackInTx` reports a transaction exactly if its user is neither common nor a related token and has a
    deposit in it, and the user and those that can be reached withdraw more in it than they deposit. -/
theorem TxExtractor.checkAttackInTx_exact (x : TxExtractor) (userTokenFlowMap : UserTokenFlowMap)
    (order : Address → Finset Address → List Address) (entries : List (Address × Address × Int × Int))
    (enumerated : ∀ user used, Map.Enumerates (order user used) (x.userRelatedMap.getD user .empty))
    (listed : ∀ user tokenAddress tx, (user, tokenAddress, tx) ∈ entries ↔
      ((((mergeFlowInTx userTokenFlowMap).getD user .empty).getD tokenAddress .empty).lookup tx).isSome)
    (nonneg : ∀ user tokenAddress, ∀ flow ∈ (userTokenFlowMap.getD user .empty).getD tokenAddress [], 0 ≤ flow.amount)
    (user tokenAddress : Address) (tx : Int × Int) (totals : Totals) :
    (user, tokenAddress, tx, totals) ∈ x.checkAttackInTx userTokenFlowMap order entries ↔
      user ∉ x.commonAddressMap ∧ (x.relatedToken.getD .empty).getD user 0 ≤ 0 ∧
        0 < (sumsInTx userTokenFlowMap tokenAddress tx user).1 ∧ singleAbnormalRate * totals.1 < totals.2 ∧
        ∃ used, (∀ relatedUser, relatedUser ∈ used ↔ x.Reaches tx.1 user relatedUser) ∧
          totals = sumsInTx userTokenFlowMap tokenAddress tx user +
            ∑ relatedUser ∈ used, sumsInTx userTokenFlowMap tokenAddress tx relatedUser := by
  have owns := totalsInTx_mergeFlowInTx userTokenFlowMap tokenAddress tx
  have positive := sumsInTx_nonneg nonneg tokenAddress tx
  obtain ⟨used, ran, reached⟩ := traversal_exact enumerated
    (totalsInTx (mergeFlowInTx userTokenFlowMap) tokenAddress tx) tx.1 _ user _ le_rfl
  change x.attackTotalsInTx (mergeFlowInTx userTokenFlowMap) order _ user tokenAddress tx = _ at ran
  rw [owns] at ran
  generalize sumsInTx userTokenFlowMap tokenAddress tx = own at owns positive ran ⊢
  have present (deposits : 0 < (own user).1) : (user, tokenAddress, tx) ∈ entries := by
    rw [listed]
    by_contra absent
    rw [← owns, totalsInTx, Map.getD, Option.not_isSome_iff_eq_none.mp absent] at deposits
    exact lt_irrefl _ deposits
  have kept_iff : ¬ (user ∈ x.commonAddressMap ∨ 0 < (x.relatedToken.getD .empty).getD user 0 ∨ (own user).1 ≤ 0) ↔
      user ∉ x.commonAddressMap ∧ (x.relatedToken.getD .empty).getD user 0 ≤ 0 ∧ 0 < (own user).1 := by
    simp only [not_or, not_lt, not_le]
  -- The related users only add to the deposits, so that the quotient has a positive divisor.
  have rate_iff (deposits : 0 < (own user).1) :
      singleAbnormalRate < (own user + ∑ relatedUser ∈ used, own relatedUser).2 /
          (own user + ∑ relatedUser ∈ used, own relatedUser).1 ↔
        singleAbnormalRate * (own user + ∑ relatedUser ∈ used, own relatedUser).1 <
          (own user + ∑ relatedUser ∈ used, own relatedUser).2 := by
    apply lt_div_iff₀
    rw [Prod.fst_add, Prod.fst_sum]
    exact add_pos_of_pos_of_nonneg deposits (Finset.sum_nonneg fun relatedUser _ => positive relatedUser)
  rw [checkAttackInTx, List.mem_filterMap]
  constructor
  · rintro ⟨⟨user', tokenAddress', tx'⟩, -, found⟩
    simp only at found
    split at found
    · cases found
    · rename_i kept
      obtain ⟨⟨totals', used'⟩, ran', reported⟩ := Option.bind_eq_some_iff.mp found
      split at reported
      · rename_i rate
        cases reported
        rw [owns] at kept
        rw [ran] at ran'
        cases ran'
        obtain ⟨uncommon, unrelated, deposits⟩ := kept_iff.mp kept
        exact ⟨uncommon, unrelated, deposits, (rate_iff deposits).mp rate, used, reached, rfl⟩
      · cases reported
  · rintro ⟨uncommon, unrelated, deposits, rate, used', reached', rfl⟩
    have same : used' = used := Finset.ext fun other => (reached' other).trans (reached other).symm
    subst same
    refine ⟨(user, tokenAddress, tx), present deposits, ?_⟩
    simp only
    rw [owns, if_neg (kept_iff.mpr ⟨uncommon, unrelated, deposits⟩), ran]
    exact if_pos ((rate_iff deposits).mpr rate)

/-- A deposit of 1 and a withdrawal of 5 in one transaction. -/
def oneTx : UserTokenFlowMap :=
  Map.empty.set 0x10 (Map.empty.set 0x60 [⟨1, 0, 1, .deposit, 1, 0⟩, ⟨1, 0, 5, .withdraw, 1, 5⟩])

/-- The user at 0x10 reaches themselves through 0x20. -/
theorem TxExtractor.checkAttackInTx_exact_cycle : ∃ used,
    (∀ relatedUser, relatedUser ∈ used ↔ twoUsers.Reaches 1 0x10 relatedUser) ∧
    ((2, 10) : Totals) = sumsInTx oneTx 0x60 (1, 0) 0x10 +
      ∑ relatedUser ∈ used, sumsInTx oneTx 0x60 (1, 0) relatedUser := by
  have single (user tokenAddress : Address) : (oneTx.getD user .empty).getD tokenAddress [] =
      if user = 0x10 ∧ tokenAddress = 0x60 then [⟨1, 0, 1, .deposit, 1, 0⟩, ⟨1, 0, 5, .withdraw, 1, 5⟩] else [] := by
    by_cases owner : user = 16#160 <;> by_cases token : tokenAddress = 96#160 <;>
      simp [oneTx, Map.getD, Map.lookup_set, owner, token]
  have listed (user tokenAddress : Address) (tx : Int × Int) : (user, tokenAddress, tx) ∈ [(0x10, 0x60, 1, 0)] ↔
      ((((mergeFlowInTx oneTx).getD user .empty).getD tokenAddress .empty).lookup tx).isSome := by
    rw [getD_mergeFlowInTx, Option.isSome_iff_exists, ← Map.mem_keys_iff, mem_keys_mergeFlows, single]
    by_cases here : user = 0x10 ∧ tokenAddress = 0x60
    · simp [here, TokenFlow.pair, eq_comm]
    · simp only [if_neg here, List.not_mem_nil, false_and, exists_false, iff_false, List.mem_singleton, Prod.mk.injEq]
      exact fun same => here ⟨same.1, same.2.1⟩
  have nonneg (user tokenAddress : Address) :
      ∀ flow ∈ (oneTx.getD user .empty).getD tokenAddress [], 0 ≤ flow.amount := by
    rw [single]
    split
    · decide +kernel
    · simp
  have reported : (0x10, 0x60, (1, 0), (2, 10)) ∈ twoUsers.checkAttackInTx oneTx twoUserOrder [(0x10, 0x60, 1, 0)] := by
    decide +kernel
  have found := (checkAttackInTx_exact twoUsers oneTx twoUserOrder [(0x10, 0x60, 1, 0)]
    (fun _ _ => Map.sortedKeys_enumerates _) listed nonneg 0x10 0x60 (1, 0) (2, 10)).mp reported
  exact found.2.2.2.2

/-- `MergeFlowInTx` has an entry for exactly the transactions of a list of flows, with the totals of the flows of
    each. -/
theorem mergeFlowInTx_exact (x : TxExtractor) (sort : List TokenTx → List TokenTx) (order : Address → List Address)
    (users : List Address) (tokens : Address → List Address) (user tokenAddress : Address) (tokenFlowMap : TokenFlowMap)
    (flows : List TokenFlow) (allUsers : Map.Enumerates users (x.generateUserFlow sort order))
    (allTokens : ∀ user tokenFlowMap, (x.generateUserFlow sort order).lookup user = some tokenFlowMap →
      Map.Enumerates (tokens user) tokenFlowMap)
    (found : (x.generateUserFlow sort order).lookup user = some tokenFlowMap)
    (held : tokenFlowMap.lookup tokenAddress = some flows) :
    ∃ floats merged tokenFlowTxMap flowTxMap last,
      mergeFlowInTxFloats (x.generateUserFlow sort order) users tokens = (floats, merged) ∧
      merged.lookup user = some tokenFlowTxMap ∧ tokenFlowTxMap.lookup tokenAddress = some flowTxMap ∧
      (∀ key, key ∈ flowTxMap.keys ↔ ∃ flow ∈ flows, blockTx flow.pair = key) ∧
      (∀ flow ∈ flows, ∃ tokenFlowTx, flowTxMap.lookup (blockTx flow.pair) = some tokenFlowTx ∧
        (tokenFlowTx.blockNumber, tokenFlowTx.txIndex) = flow.pair ∧ tokenFlowTx.totals floats =
          (amounts .deposit (flowsIn flow.pair flows), amounts .withdraw (flowsIn flow.pair flows))) ∧
      flows.getLast? = some last ∧ ∑ key ∈ flowTxMap.keys, totalsAt floats flowTxMap key = last.totals := by
  have userListed : user ∈ users := by
    rw [allUsers.mem_iff]
    exact (Map.mem_keys_iff _ _).mpr ⟨tokenFlowMap, found⟩
  have tokenListed : tokenAddress ∈ tokens user := by
    rw [(allTokens user tokenFlowMap found).mem_iff]
    exact (Map.mem_keys_iff _ _).mpr ⟨flows, held⟩
  obtain ⟨tokenFlowTxMap, flowTxMap, userFound, tokenFound, stands⟩ :=
    mergeFlowInTxFloats_stands (x.generateUserFlow sort order) users tokens userListed tokenListed
  have here : ((x.generateUserFlow sort order).getD user .empty).getD tokenAddress [] = flows := by
    rw [Map.getD, Map.getD, found, Option.getD_some, held]
    rfl
  rw [here] at stands
  have listed : ∃ convert list, flows = flowList convert list := by
    rw [TxExtractor.generateUserFlow, Map.lookup_mapValues] at found
    obtain ⟨tokenTxMap, -, rfl⟩ := Option.map_eq_some_iff.mp found
    obtain ⟨convert, _, same⟩ := x.lookup_userFlow_flowList sort tokenTxMap (order user) held
    exact ⟨convert, _, same⟩
  obtain ⟨last, isLast, totals⟩ := getLast_totals listed
  refine ⟨(mergeFlowInTxFloats (x.generateUserFlow sort order) users tokens).1, _, tokenFlowTxMap, flowTxMap, last, rfl,
    userFound, tokenFound, ?_, ?_, isLast, ?_⟩
  · intro key
    rw [stands.keys, Finset.mem_map]
    simp only [mem_keys_mergeFlows, Function.Embedding.coeFn_mk]
    constructor
    · rintro ⟨pair, ⟨flow, member, rfl⟩, rfl⟩
      exact ⟨flow, member, rfl⟩
    · rintro ⟨flow, member, rfl⟩
      exact ⟨flow.pair, ⟨flow, member, rfl⟩, rfl⟩
  · intro flow member
    have merged : (mergeFlows flows).lookup flow.pair = some (partsOf (flowsIn flow.pair flows)) := by
      rw [lookup_mergeFlows, if_neg fun none => flowsIn_eq_nil.mp none ⟨flow, member, rfl⟩]
    rw [stands.totals] at merged
    obtain ⟨tokenFlowTx, entry, same⟩ := Option.map_eq_some_iff.mp merged
    refine ⟨tokenFlowTx, entry, (blockTx_injective (stands.keyed entry)).symm, ?_⟩
    rw [same, partsOf_eq]
  · rw [stands.sum, sumOf_mergeFlows, partsOf_eq, totals]

/-- The user deposits and withdraws in different transactions. -/
theorem mergeFlowInTx_twoUsers : ∃ floats merged tokenFlowTxMap flowTxMap,
    mergeFlowInTxFloats TxExtractor.twoUserFlows TxExtractor.twoUserFlows.sortedKeys
      (fun user => (TxExtractor.twoUserFlows.getD user .empty).sortedKeys) = (floats, merged) ∧
    merged.lookup 0x10 = some tokenFlowTxMap ∧ tokenFlowTxMap.lookup 0x60 = some flowTxMap ∧
    ∑ key ∈ flowTxMap.keys, totalsAt floats flowTxMap key = (1, 5) := by
  have allTokens (user : Address) (tokenFlowMap : TokenFlowMap)
      (found : TxExtractor.twoUserFlows.lookup user = some tokenFlowMap) :
      Map.Enumerates (TxExtractor.twoUserFlows.getD user .empty).sortedKeys tokenFlowMap := by
    rw [Map.getD, found]
    exact Map.sortedKeys_enumerates tokenFlowMap
  have found : TxExtractor.twoUserFlows.lookup 0x10 = some (TxExtractor.twoUserFlows.getD 0x10 .empty) := rfl
  have held : (TxExtractor.twoUserFlows.getD 0x10 .empty).lookup 0x60 =
      some [.zero, ⟨1, 0, 1, .deposit, 1, 0⟩, ⟨2, 0, 5, .withdraw, 1, 5⟩] := by decide +kernel
  obtain ⟨floats, merged, tokenFlowTxMap, flowTxMap, last, made, user, token, -, -, isLast, sum⟩ :=
    mergeFlowInTx_exact TxExtractor.twoUsers id (fun _ => [0x60]) TxExtractor.twoUserFlows.sortedKeys
      (fun user => (TxExtractor.twoUserFlows.getD user .empty).sortedKeys) 0x10 0x60 _ _
      (Map.sortedKeys_enumerates _) allTokens found held
  cases isLast
  exact ⟨floats, merged, tokenFlowTxMap, flowTxMap, made, user, token, sum⟩

end IDWDetector.Hunter
