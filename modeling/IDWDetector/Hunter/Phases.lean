import IDWDetector.Hunter.Collecting
import IDWDetector.Machine.Gather
import Mathlib.Data.Multiset.Bind

namespace IDWDetector.Hunter

open Vm Go Machine

section Updates

def bump (counts : Map Address Int) (addr : Address) : Map Address Int :=
  counts.upsert addr fun count => count.getD 0 + 1

instance : RightCommutative bump where
  right_comm counts _ _ := Map.upsert_comm counts fun _ _ => rfl

/-- A user, a user it is related to, and the block in which they got related. -/
structure Relation where
  mainUser : Address
  relatedUser : Address
  blockNumber : Int

def relate (m : UserRelatedMap) (r : Relation) : UserRelatedMap :=
  updateUserRelatedMap m r.mainUser r.relatedUser r.blockNumber

theorem earlier_comm (first second : Int) (old : Option Int) :
    earlier second (some (earlier first old)) = earlier first (some (earlier second old)) := by
  have least (blockNumber : Int) (old : Int) : earlier blockNumber (some old) = min blockNumber old := by
    simp only [earlier]
    omega
  cases old with
  | none =>
    rw [least, least]
    exact min_comm second first
  | some block =>
    rw [least, least, least, least]
    exact min_left_comm second first block

instance : RightCommutative relate where
  right_comm m first second := by
    by_cases self : first.mainUser = first.relatedUser
    · simp only [relate, updateUserRelatedMap, if_pos self]
    · by_cases self' : second.mainUser = second.relatedUser
      · simp only [relate, updateUserRelatedMap, if_pos self']
      · simp only [relate, updateUserRelatedMap, if_neg self, if_neg self']
        apply Map.upsert_comm
        intro _ old
        exact Map.upsert_comm _ fun _ old => earlier_comm first.blockNumber second.blockNumber old

def UserTokenTxMap.bag (m : UserTokenTxMap) : Map Address (Map Address (Multiset TokenTx)) :=
  Map.mapValues m fun _ tokenTxMap => tokenTxMap.mapValues fun _ tokenTxList => (tokenTxList : Multiset TokenTx)

def addToBag (bag : Map Address (Map Address (Multiset TokenTx))) (flow : Address × TokenTx) :
    Map Address (Map Address (Multiset TokenTx)) :=
  bag.upsert flow.1 fun tokens => (tokens.getD .empty).upsert flow.2.tokenAddress fun old => flow.2 ::ₘ old.getD 0

instance : RightCommutative addToBag where
  right_comm bag first second := by
    apply Map.upsert_comm
    intro _ old
    simp only [Option.getD_some]
    apply Map.upsert_comm
    intro _ old
    exact Multiset.cons_swap second.2 first.2 (old.getD 0)

theorem UserTokenTxMap.bag_append (m : UserTokenTxMap) (user : Address) (tokenTx : TokenTx) :
    (m.append user tokenTx).bag = addToBag m.bag (user, tokenTx) := by
  apply Map.mapValues_upsert
  intro old
  have inner (tokenTxMap : TokenTxMap) : (tokenTxMap.upsert tokenTx.tokenAddress fun tokenTxList =>
        tokenTxList.getD [] ++ [tokenTx]).mapValues (fun _ tokenTxList => (tokenTxList : Multiset TokenTx)) =
      (tokenTxMap.mapValues fun _ tokenTxList => (tokenTxList : Multiset TokenTx)).upsert tokenTx.tokenAddress
        fun old => tokenTx ::ₘ old.getD 0 := by
    apply Map.mapValues_upsert
    intro old
    cases old with
    | none => rfl
    | some tokenTxList =>
      show ((tokenTxList ++ [tokenTx] : List TokenTx) : Multiset TokenTx) = tokenTx ::ₘ (tokenTxList : Multiset TokenTx)
      rw [← Multiset.coe_add, add_comm]
      rfl
  cases old with
  | none => exact inner .empty
  | some tokenTxMap => exact inner tokenTxMap

end Updates

section Actions

def showsLP (stableTokenMap : Map Address StableToken) (tokenTx : TokenTx) : Bool :=
  decide (stableTokenMap.lookup tokenTx.tokenAddress = none ∧ (tokenTx.sender = 0 ∨ tokenTx.toAddr = 0))

def shownLP (stableTokenMap : Map Address StableToken) (tokenTxs : List TokenTx) : Finset Address :=
  ((tokenTxs.filter (showsLP stableTokenMap)).map TokenTx.tokenAddress).toFinset

def countedAddresses (stableTokenMap : Map Address StableToken) (tokenTxs : List TokenTx) : List Address :=
  (tokenTxs.filter fun tokenTx => !showsLP stableTokenMap tokenTx).flatMap fun tokenTx =>
    [tokenTx.sender, tokenTx.toAddr]

theorem foldl_countTokenTx_eq (x : TxExtractor) (tokenTxs : List TokenTx) :
    tokenTxs.foldl TxExtractor.countTokenTx x =
      { x with
        lpTokenMap := x.lpTokenMap ∪ shownLP x.stableTokenMap tokenTxs
        addressCountMap := (countedAddresses x.stableTokenMap tokenTxs).foldl bump x.addressCountMap } := by
  induction tokenTxs generalizing x with
  | nil => simp [shownLP, countedAddresses]
  | cons tokenTx rest ih =>
    rw [List.foldl_cons, ih]
    by_cases shows : x.stableTokenMap.lookup tokenTx.tokenAddress = none ∧ (tokenTx.sender = 0 ∨ tokenTx.toAddr = 0)
    · have shown : showsLP x.stableTokenMap tokenTx = true := decide_eq_true shows
      simp only [TxExtractor.countTokenTx, if_pos shows, shownLP, countedAddresses, List.filter_cons, shown,
        Bool.not_true, if_true, Bool.false_eq_true, if_false, List.map_cons, List.toFinset_cons]
      rw [Finset.insert_union, Finset.union_insert]
    · have hidden : showsLP x.stableTokenMap tokenTx = false := decide_eq_false shows
      simp only [TxExtractor.countTokenTx, if_neg shows, shownLP, countedAddresses, List.filter_cons, hidden,
        Bool.not_false, if_true, Bool.false_eq_true, if_false, List.flatMap_cons, List.foldl_append, List.foldl_cons,
        List.foldl_nil, bump]

def numberActions (infos : Map Nat ActionInfo) (info : ActionInfo) : Map Nat ActionInfo :=
  infos.set infos.len info

theorem foldl_addAction_eq (x : TxExtractor) (infos : List ActionInfo) :
    infos.foldl TxExtractor.addAction x =
      { x with
        lpTokenMap := x.lpTokenMap ∪ shownLP x.stableTokenMap (infos.flatMap ActionInfo.tokenTxList)
        addressCountMap := (countedAddresses x.stableTokenMap (infos.flatMap ActionInfo.tokenTxList)).foldl bump
          x.addressCountMap
        actionInfoList := infos.foldl numberActions x.actionInfoList } := by
  induction infos generalizing x with
  | nil => simp [shownLP, countedAddresses]
  | cons info rest ih =>
    rw [List.foldl_cons, ih]
    simp only [TxExtractor.addAction, foldl_countTokenTx_eq, List.flatMap_cons, List.foldl_cons, numberActions]
    simp only [shownLP, countedAddresses, List.filter_append, List.map_append, List.toFinset_append,
      List.flatMap_append, List.foldl_append, Finset.union_assoc]

def actionsOf (classify : Address → Bytes → Action) (proxies : Finset Address) (exTx : ExternalTx) :
    Except Panic (List ActionInfo) :=
  match exTx.inTxs with
  | [root] => (collect classify proxies exTx.blockNumber exTx.txIndex root).map Prod.snd
  | _ => .ok []

theorem extractTokenTx_eq (classify : Address → Bytes → Action) (x : TxExtractor) (exTx : ExternalTx) :
    x.extractTokenTx classify exTx = (actionsOf classify x.proxyABI exTx).map (List.foldl TxExtractor.addAction x) := by
  obtain ⟨blockNumber, txIndex, inTxs⟩ := exTx
  rcases inTxs with _ | ⟨root, _ | ⟨second, rest⟩⟩
  · rfl
  · simp only [TxExtractor.extractTokenTx, actionsOf]
    rw [extractInTxInfo_eq classify x.proxyABI blockNumber txIndex root x rfl]
    cases collect classify x.proxyABI blockNumber txIndex root with
    | error panic => rfl
    | ok c => rfl
  · rfl

end Actions

section Stakes

mutual

def transfers : InternalTx → Except Panic (List TokenTx)
  | ⟨_, _, _, _, _, _, events, inTxs⟩ => do
    let below ← transfersAll inTxs
    let own ← extractEvents events
    .ok (below ++ own)

def transfersAll : List InternalTx → Except Panic (List TokenTx)
  | [] => .ok []
  | tx :: rest => do
    let first ← transfers tx
    let later ← transfersAll rest
    .ok (first ++ later)

end

mutual

theorem extractInTxForStake_eq (blockNumber : Int) (tx : InternalTx) (x : TxExtractor) :
    TxExtractor.extractInTxForStake blockNumber tx x =
      (transfers tx).map (List.foldl (TxExtractor.stakeTokenTx blockNumber) x) := by
  obtain ⟨_, _, _, _, _, _, events, inTxs⟩ := tx
  rw [TxExtractor.extractInTxForStake, transfers, extractInTxsForStake_eq blockNumber inTxs x]
  cases transfersAll inTxs with
  | error panic => rfl
  | ok below =>
    cases extractEvents events with
    | error panic => rfl
    | ok own => simp only [Except.map, Bind.bind, Except.bind, List.foldl_append]

theorem extractInTxsForStake_eq (blockNumber : Int) (txs : List InternalTx) (x : TxExtractor) :
    TxExtractor.extractInTxsForStake blockNumber txs x =
      (transfersAll txs).map (List.foldl (TxExtractor.stakeTokenTx blockNumber) x) := by
  cases txs with
  | nil => rfl
  | cons tx rest =>
    rw [TxExtractor.extractInTxsForStake, transfersAll, extractInTxForStake_eq blockNumber tx x]
    cases transfers tx with
    | error panic => rfl
    | ok first =>
      simp only [Except.map, Bind.bind, Except.bind]
      rw [extractInTxsForStake_eq blockNumber rest]
      cases transfersAll rest with
      | error panic => rfl
      | ok later => simp only [Except.map, List.foldl_append]

end

def stakesOf (exTx : ExternalTx) : Except Panic (List TokenTx) :=
  match exTx.inTxs with
  | [root] => (transfers root).map (List.map fun tokenTx => { tokenTx with blockNumber := exTx.blockNumber })
  | _ => .ok []

def stakeRelation (lpTokenMap : Finset Address) (tokenTx : TokenTx) : Option Relation :=
  if tokenTx.tokenAddress ∈ lpTokenMap ∧ tokenTx.sender ≠ 0 ∧ tokenTx.toAddr ≠ 0 then
    some ⟨tokenTx.toAddr, tokenTx.sender, tokenTx.blockNumber⟩
  else none

def applyStake (x : TxExtractor) (tokenTx : TokenTx) : TxExtractor := x.stakeTokenTx tokenTx.blockNumber tokenTx

theorem extractStakeTokenTx_eq (x : TxExtractor) (exTx : ExternalTx) :
    x.extractStakeTokenTx exTx = (stakesOf exTx).map (List.foldl applyStake x) := by
  obtain ⟨blockNumber, txIndex, inTxs⟩ := exTx
  rcases inTxs with _ | ⟨root, _ | ⟨second, rest⟩⟩
  · rfl
  · simp only [TxExtractor.extractStakeTokenTx, stakesOf]
    rw [extractInTxForStake_eq]
    cases transfers root with
    | error panic => rfl
    | ok found =>
      simp only [Except.map, List.foldl_map]
      rfl
  · rfl

theorem foldl_applyStake_eq (x : TxExtractor) (tokenTxs : List TokenTx) :
    tokenTxs.foldl applyStake x =
      { x with userRelatedMap := (tokenTxs.filterMap (stakeRelation x.lpTokenMap)).foldl relate x.userRelatedMap } := by
  induction tokenTxs generalizing x with
  | nil => rfl
  | cons tokenTx rest ih =>
    rw [List.foldl_cons, ih]
    by_cases staked : tokenTx.tokenAddress ∈ x.lpTokenMap ∧ tokenTx.sender ≠ 0 ∧ tokenTx.toAddr ≠ 0
    · have here : stakeRelation x.lpTokenMap tokenTx = some ⟨tokenTx.toAddr, tokenTx.sender, tokenTx.blockNumber⟩ :=
        if_pos staked
      simp only [applyStake, TxExtractor.stakeTokenTx, if_pos staked, List.filterMap_cons_some here, List.foldl_cons,
        relate]
    · have here : stakeRelation x.lpTokenMap tokenTx = none := if_neg staked
      simp only [applyStake, TxExtractor.stakeTokenTx, if_neg staked, List.filterMap_cons_none here]

end Stakes

section Flows

structure Effect where
  user : Address
  tokenTx : TokenTx
  relations : List Relation

def Effect.flow (effect : Effect) : Address × TokenTx := (effect.user, effect.tokenTx)

def flowUser (commonAddressMap : Finset Address) (tokenTx : TokenTx) : Option Address :=
  match tokenTx.action with
  | .withdraw => if tokenTx.sender ∈ commonAddressMap then some tokenTx.toAddr else none
  | .deposit => if tokenTx.toAddr ∈ commonAddressMap then some tokenTx.sender else none
  | .none => none

def flowRelations (depositTo withdrawFrom : List Address) (tokenTx : TokenTx) : List Relation :=
  match tokenTx.action with
  | .withdraw => withdrawFrom.map fun relatedUser => ⟨tokenTx.toAddr, relatedUser, tokenTx.blockNumber⟩
  | .deposit => depositTo.map fun relatedUser => ⟨relatedUser, tokenTx.sender, tokenTx.blockNumber⟩
  | .none => []

def effectOf (made : Bool) (commonAddressMap : Finset Address) (depositTo withdrawFrom : List Address)
    (tokenTx : TokenTx) : Except Panic (List Effect) :=
  match flowUser commonAddressMap tokenTx with
  | none => .ok []
  | some user =>
    if made then .ok [⟨user, tokenTx, flowRelations depositTo withdrawFrom tokenTx⟩] else .error .nilMapWrite

def effectsOf (made : Bool) (lpTokenMap commonAddressMap : Finset Address) (info : ActionInfo) :
    Except Panic (List Effect) :=
  Machine.gather (effectOf made commonAddressMap (info.depositTo lpTokenMap) (info.withdrawFrom lpTokenMap))
    (info.tokenTxListWithoutLP lpTokenMap)

def applyEffect (x : TxExtractor) (effect : Effect) : TxExtractor :=
  { x with
    userTokenTxMap := x.userTokenTxMap.append effect.user effect.tokenTx
    userRelatedMap := effect.relations.foldl relate x.userRelatedMap
    relatedToken := x.relatedToken.map fun counts => bump counts effect.tokenTx.tokenAddress }

structure Steady (made : Bool) (lpTokenMap commonAddressMap : Finset Address) (x : TxExtractor) : Prop where
  made : x.relatedToken.isSome = made
  lpTokenMap : x.lpTokenMap = lpTokenMap
  commonAddressMap : x.commonAddressMap = commonAddressMap

variable {made : Bool} {lpTokenMap commonAddressMap : Finset Address} {x : TxExtractor}

theorem Steady.applyEffect (steady : Steady made lpTokenMap commonAddressMap x) (effect : Effect) :
    Steady made lpTokenMap commonAddressMap (applyEffect x effect) :=
  ⟨by rw [← steady.made, Hunter.applyEffect, Option.isSome_map], steady.lpTokenMap, steady.commonAddressMap⟩

theorem addFlow_eq (user : Address) (tokenTx : TokenTx) (related : List (Address × Address)) :
    x.addFlow user tokenTx related = if x.relatedToken.isSome then
      .ok (applyEffect x ⟨user, tokenTx, related.map fun users => ⟨users.1, users.2, tokenTx.blockNumber⟩⟩)
      else .error .nilMapWrite := by
  unfold TxExtractor.addFlow TxExtractor.countToken
  cases counts : x.relatedToken with
  | none => rfl
  | some counts =>
    simp only [applyEffect, counts, Option.isSome_some, if_true, Option.map_some, List.foldl_map]
    rfl

section

variable (steady : Steady made lpTokenMap commonAddressMap x)
include steady

theorem extractFlow_eq (depositTo withdrawFrom : List Address) (tokenTx : TokenTx) :
    TxExtractor.extractFlow depositTo withdrawFrom x tokenTx =
      (effectOf made commonAddressMap depositTo withdrawFrom tokenTx).map (List.foldl applyEffect x) := by
  unfold TxExtractor.extractFlow effectOf flowUser flowRelations
  cases tokenTx.action with
  | none => rfl
  | withdraw =>
    simp only [steady.commonAddressMap, addFlow_eq, steady.made]
    by_cases common : tokenTx.sender ∈ commonAddressMap
    · simp only [if_pos common]
      cases made with
      | false => rfl
      | true => simp only [if_true, Except.map, List.foldl_cons, List.foldl_nil, List.map_map, Function.comp_def]
    · simp only [if_neg common]
      rfl
  | deposit =>
    simp only [steady.commonAddressMap, addFlow_eq, steady.made]
    by_cases common : tokenTx.toAddr ∈ commonAddressMap
    · simp only [if_pos common]
      cases made with
      | false => rfl
      | true => simp only [if_true, Except.map, List.foldl_cons, List.foldl_nil, List.map_map, Function.comp_def]
    · simp only [if_neg common]
      rfl

theorem extractActionInfo_eq (info : ActionInfo) :
    x.extractActionInfo info = (effectsOf made lpTokenMap commonAddressMap info).map (List.foldl applyEffect x) := by
  unfold TxExtractor.extractActionInfo effectsOf
  rw [steady.lpTokenMap]
  exact foldlM_eq_gather (Steady made lpTokenMap commonAddressMap)
    (fun y tokenTx steady => extractFlow_eq steady _ _ tokenTx) (fun y effect steady => steady.applyEffect effect)
    steady _

theorem extractActionInfoList_eq (order : List Nat) :
    x.extractActionInfoList order =
      (gather (effectsOf made lpTokenMap commonAddressMap) (order.filterMap x.actionInfoList.lookup)).map
        fun effects => { effects.foldl applyEffect x with flowMergeMode := (effects.foldl applyEffect x).mode } := by
  unfold TxExtractor.extractActionInfoList
  rw [foldlM_eq_gather (Steady made lpTokenMap commonAddressMap)
    (fun y info steady => extractActionInfo_eq steady info) (fun y effect steady => steady.applyEffect effect) steady]
  cases gather (effectsOf made lpTokenMap commonAddressMap) (order.filterMap x.actionInfoList.lookup) with
  | error panic => rfl
  | ok effects => rfl

end

theorem foldl_applyEffect_eq (x : TxExtractor) (effects : List Effect) :
    effects.foldl applyEffect x =
      { x with
        userTokenTxMap := (effects.map Effect.flow).foldl (fun m flow => m.append flow.1 flow.2) x.userTokenTxMap
        userRelatedMap := (effects.flatMap Effect.relations).foldl relate x.userRelatedMap
        relatedToken := x.relatedToken.map fun counts =>
          (effects.map fun effect => effect.tokenTx.tokenAddress).foldl bump counts } := by
  induction effects generalizing x with
  | nil => simp
  | cons effect rest ih =>
    rw [List.foldl_cons, ih]
    simp only [applyEffect, List.foldl_cons, List.flatMap_cons, List.foldl_append, List.map_cons, Option.map_map,
      Function.comp_def, Effect.flow]

theorem bag_foldl_append (m : UserTokenTxMap) (flows : List (Address × TokenTx)) :
    (flows.foldl (fun m flow => m.append flow.1 flow.2) m).bag = flows.foldl addToBag m.bag := by
  induction flows generalizing m with
  | nil => rfl
  | cons flow rest ih => rw [List.foldl_cons, ih, UserTokenTxMap.bag_append, List.foldl_cons]

theorem TxExtractor.extractActionInfoList_frame {z : TxExtractor} {infoOrder : List Nat}
    (extracted : x.extractActionInfoList infoOrder = .ok z) :
    z = { x with
      userTokenTxMap := z.userTokenTxMap, userRelatedMap := z.userRelatedMap
      relatedToken := z.relatedToken, flowMergeMode := z.flowMergeMode } ∧
    z.relatedToken.isSome = x.relatedToken.isSome := by
  rw [extractActionInfoList_eq ⟨rfl, rfl, rfl⟩] at extracted
  obtain ⟨effects, -, rfl⟩ := map_ok.mp extracted
  rw [foldl_applyEffect_eq]
  exact ⟨rfl, Option.isSome_map⟩

end Flows

end IDWDetector.Hunter
