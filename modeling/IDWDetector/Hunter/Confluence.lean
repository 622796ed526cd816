import IDWDetector.Hunter.Phases
import Mathlib.Order.Bounds.Basic

namespace IDWDetector.Hunter

open Vm Go Machine

namespace TxExtractor

def extractTxs (classify : Address → Bytes → Action) (x : TxExtractor) (proxyTxs stakeTxs : List ExternalTx) :
    Except Panic TxExtractor := do
  let x ← proxyTxs.foldlM (extractTokenTx classify) x
  stakeTxs.foldlM extractStakeTokenTx x

inductive Extracts (classify : Address → Bytes → Action) (x : TxExtractor) (proxyTxs stakeTxs : List ExternalTx) :
    Except Panic TxExtractor → Prop
  | panics (panic : Panic) : x.extractTxs classify proxyTxs stakeTxs = .error panic →
      Extracts classify x proxyTxs stakeTxs (.error panic)
  | finishes (y : TxExtractor) (countOrder : List Address) (infoOrder : List Nat) :
      x.extractTxs classify proxyTxs stakeTxs = .ok y → Map.Enumerates countOrder y.addressCountMap →
      Map.Enumerates infoOrder y.actionInfoList →
      Extracts classify x proxyTxs stakeTxs ((y.updateCommonAddressMap countOrder).extractActionInfoList infoOrder)

structure Fresh (x : TxExtractor) : Prop where
  actionInfoList : x.actionInfoList = .empty
  userRelatedMap : x.userRelatedMap = .empty

/-- Extractors that differ at most in the order of the transfers of a user and of the actions. -/
structure Same (x y : TxExtractor) : Prop where
  lpTokenMap : x.lpTokenMap = y.lpTokenMap
  addressCountMap : x.addressCountMap = y.addressCountMap
  commonAddressMap : x.commonAddressMap = y.commonAddressMap
  relatedToken : x.relatedToken = y.relatedToken
  flowMergeMode : x.flowMergeMode = y.flowMergeMode
  userRelatedMap : x.userRelatedMap = y.userRelatedMap
  bag : x.userTokenTxMap.bag = y.userTokenTxMap.bag

end TxExtractor

/-- A stake transaction moves a token of the application between two users, or a flow of one user comes with a share
    of another. -/
inductive Happens (classify : Address → Bytes → Action) (proxies lpTokenMap commonAddressMap : Finset Address)
    (proxyTxs stakeTxs : List ExternalTx) : Relation → Prop
  | staked {exTx : ExternalTx} {found : List TokenTx} {tokenTx : TokenTx} {r : Relation} : exTx ∈ stakeTxs →
      stakesOf exTx = .ok found → tokenTx ∈ found → stakeRelation lpTokenMap tokenTx = some r →
      Happens classify proxies lpTokenMap commonAddressMap proxyTxs stakeTxs r
  | shared {exTx : ExternalTx} {infos : List ActionInfo} {info : ActionInfo} {tokenTx : TokenTx} {user : Address}
      {r : Relation} : exTx ∈ proxyTxs → actionsOf classify proxies exTx = .ok infos → info ∈ infos →
      tokenTx ∈ info.tokenTxListWithoutLP lpTokenMap → flowUser commonAddressMap tokenTx = some user →
      r ∈ flowRelations (info.depositTo lpTokenMap) (info.withdrawFrom lpTokenMap) tokenTx →
      Happens classify proxies lpTokenMap commonAddressMap proxyTxs stakeTxs r

section Relating

/-- The block in which a user got related to another one. -/
def related (m : UserRelatedMap) (mainUser relatedUser : Address) : Option Int :=
  (m.lookup mainUser).bind fun blocks => blocks.lookup relatedUser

theorem related_relate (m : UserRelatedMap) (r : Relation) (mainUser relatedUser : Address) :
    related (relate m r) mainUser relatedUser =
      if mainUser ≠ relatedUser ∧ r.mainUser = mainUser ∧ r.relatedUser = relatedUser then
        some (earlier r.blockNumber (related m mainUser relatedUser))
      else related m mainUser relatedUser := by
  obtain ⟨main, other, blockNumber⟩ := r
  simp only [relate, updateUserRelatedMap]
  by_cases self : main = other
  · rw [if_pos self, if_neg]
    rintro ⟨different, rfl, rfl⟩
    exact different self
  · rw [if_neg self]
    simp only [related, Map.lookup_upsert]
    by_cases here : mainUser = main
    · subst here
      rw [if_pos rfl, Option.bind_some, Map.lookup_upsert]
      by_cases there : relatedUser = other
      · subst there
        rw [if_pos rfl, if_pos ⟨self, rfl, rfl⟩]
        cases m.lookup mainUser with
        | none => rfl
        | some blocks => rfl
      · rw [if_neg there, if_neg fun both => there both.2.2.symm]
        cases m.lookup mainUser with
        | none => rfl
        | some blocks => rfl
    · rw [if_neg here, if_neg fun both => here both.2.1.symm]

def blocksIn (rs : List Relation) (mainUser relatedUser : Address) : Set Int :=
  {block | mainUser ≠ relatedUser ∧ ⟨mainUser, relatedUser, block⟩ ∈ rs}

def LeastOf (blocks : Set Int) : Option Int → Prop
  | none => blocks = ∅
  | some block => IsLeast blocks block

theorem LeastOf.eq_some_iff {blocks : Set Int} {found : Option Int} (least : LeastOf blocks found) (block : Int) :
    found = some block ↔ IsLeast blocks block := by
  cases found with
  | none =>
    have empty : blocks = ∅ := least
    constructor
    · intro impossible
      cases impossible
    · rintro ⟨member, -⟩
      rw [empty] at member
      exact member.elim
  | some other =>
    have isLeast : IsLeast blocks other := least
    rw [Option.some.injEq]
    constructor
    · rintro rfl
      exact isLeast
    · exact isLeast.unique

theorem LeastOf.insert {blocks : Set Int} {found : Option Int} (least : LeastOf blocks found) (block : Int) :
    LeastOf (insert block blocks) (some (earlier block found)) := by
  cases found with
  | none =>
    have empty : blocks = ∅ := least
    rw [empty]
    show IsLeast (Insert.insert block ∅) block
    rw [insert_empty_eq]
    exact isLeast_singleton
  | some other =>
    have isLeast : IsLeast blocks other := least
    have least' : earlier block (some other) = min block other := by
      simp only [earlier]
      omega
    show IsLeast (Insert.insert block blocks) (earlier block (some other))
    rw [least']
    exact isLeast.insert block

theorem leastOf_related (rs : List Relation) (mainUser relatedUser : Address) :
    LeastOf (blocksIn rs mainUser relatedUser) (related (rs.foldl relate .empty) mainUser relatedUser) := by
  induction rs using List.reverseRecOn with
  | nil =>
    show blocksIn [] mainUser relatedUser = ∅
    simp [blocksIn]
  | append_singleton rs r ih =>
    rw [List.foldl_append, List.foldl_cons, List.foldl_nil, related_relate]
    by_cases here : mainUser ≠ relatedUser ∧ r.mainUser = mainUser ∧ r.relatedUser = relatedUser
    · obtain ⟨different, rfl, rfl⟩ := here
      have blocks : blocksIn (rs ++ [r]) r.mainUser r.relatedUser =
          insert r.blockNumber (blocksIn rs r.mainUser r.relatedUser) := by
        ext block
        obtain ⟨mainUser, relatedUser, blockNumber⟩ := r
        simp only [blocksIn, Set.mem_ofPred_eq, Set.mem_insert_iff, List.mem_append, List.mem_singleton,
          Relation.mk.injEq, true_and]
        tauto
      rw [if_pos ⟨different, rfl, rfl⟩, blocks]
      exact ih.insert r.blockNumber
    · have blocks : blocksIn (rs ++ [r]) mainUser relatedUser = blocksIn rs mainUser relatedUser := by
        ext block
        simp only [blocksIn, Set.mem_ofPred_eq, List.mem_append, List.mem_singleton]
        constructor
        · rintro ⟨different, member | rfl⟩
          · exact ⟨different, member⟩
          · exact (here ⟨different, rfl, rfl⟩).elim
        · rintro ⟨different, member⟩
          exact ⟨different, Or.inl member⟩
      rw [if_neg here, blocks]
      exact ih

end Relating

section Orders

theorem mem_foldl_insert (isIn : Address → Bool) (order : List Address) (initial : Finset Address) (addr : Address) :
    addr ∈ order.foldl (fun found addr => if isIn addr then insert addr found else found) initial ↔
      addr ∈ initial ∨ addr ∈ order ∧ isIn addr = true := by
  induction order generalizing initial with
  | nil => simp
  | cons first rest ih =>
    rw [List.foldl_cons, ih]
    by_cases inside : isIn first = true
    · rw [if_pos inside, Finset.mem_insert, List.mem_cons]
      constructor
      · rintro ((rfl | member) | ⟨member, holds⟩)
        · exact Or.inr ⟨Or.inl rfl, inside⟩
        · exact Or.inl member
        · exact Or.inr ⟨Or.inr member, holds⟩
      · rintro (member | ⟨rfl | member, holds⟩)
        · exact Or.inl (Or.inr member)
        · exact Or.inl (Or.inl rfl)
        · exact Or.inr ⟨member, holds⟩
    · rw [if_neg inside, List.mem_cons]
      constructor
      · rintro (member | ⟨member, holds⟩)
        · exact Or.inl member
        · exact Or.inr ⟨Or.inr member, holds⟩
      · rintro (member | ⟨rfl | member, holds⟩)
        · exact Or.inl member
        · exact (inside holds).elim
        · exact Or.inr ⟨member, holds⟩

theorem shownLP_perm (stableTokenMap : Map Address StableToken) {first second : List TokenTx}
    (perm : first.Perm second) : shownLP stableTokenMap first = shownLP stableTokenMap second :=
  List.toFinset_eq_of_perm _ _ ((perm.filter _).map _)

theorem countedAddresses_perm (stableTokenMap : Map Address StableToken) {first second : List TokenTx}
    (perm : first.Perm second) : (countedAddresses stableTokenMap first).Perm
    (countedAddresses stableTokenMap second) :=
  (perm.filter _).flatMap_right _

variable {classify : Address → Bytes → Action} {x : TxExtractor}

theorem extractTxs_eq (x : TxExtractor) (proxyTxs stakeTxs : List ExternalTx) :
    x.extractTxs classify proxyTxs stakeTxs = (do
      let infos ← gather (actionsOf classify x.proxyABI) proxyTxs
      let stakes ← gather stakesOf stakeTxs
      .ok (stakes.foldl applyStake (infos.foldl TxExtractor.addAction x))) := by
  have proxies : proxyTxs.foldlM (TxExtractor.extractTokenTx classify) x =
      (gather (actionsOf classify x.proxyABI) proxyTxs).map (List.foldl TxExtractor.addAction x) := by
    apply foldlM_eq_gather (fun y : TxExtractor => y.proxyABI = x.proxyABI)
    · intro y exTx same
      rw [extractTokenTx_eq, same]
    · intro y info same
      rw [TxExtractor.addAction_proxyABI, same]
    · rfl
  have stakes (y : TxExtractor) : stakeTxs.foldlM TxExtractor.extractStakeTokenTx y =
      (gather stakesOf stakeTxs).map (List.foldl applyStake y) :=
    foldlM_eq_gather (fun _ => True) (fun y exTx _ => extractStakeTokenTx_eq y exTx) (fun _ _ _ => trivial)
      trivial stakeTxs
  rw [TxExtractor.extractTxs, proxies]
  cases gather (actionsOf classify x.proxyABI) proxyTxs with
  | error panic => rfl
  | ok infos =>
    simp only [Except.map, Bind.bind, Except.bind, stakes]

def Renumbered (y y' : TxExtractor) : Prop :=
  y' = { y with actionInfoList := y'.actionInfoList } ∧ y.actionInfoList.values = y'.actionInfoList.values

theorem renumbered_of_perm (indexed : x.Indexed) {infos infos' : List ActionInfo} {stakes stakes' : List TokenTx}
    (perm : infos.Perm infos') (perm' : stakes.Perm stakes') :
    Renumbered (stakes.foldl applyStake (infos.foldl TxExtractor.addAction x))
      (stakes'.foldl applyStake (infos'.foldl TxExtractor.addAction x)) := by
  have tokenTxs := perm.flatMap_right ActionInfo.tokenTxList
  have values := (indexed.foldl_addAction infos).2
  have values' := (indexed.foldl_addAction infos').2
  rw [foldl_applyStake_eq, foldl_applyStake_eq]
  constructor
  · rw [foldl_addAction_eq, foldl_addAction_eq]
    simp only [shownLP_perm _ tokenTxs, (countedAddresses_perm _ tokenTxs).foldl_eq,
      (perm'.filterMap _).foldl_eq]
  · show (infos.foldl TxExtractor.addAction x).actionInfoList.values =
      (infos'.foldl TxExtractor.addAction x).actionInfoList.values
    rw [values, values', Multiset.coe_eq_coe.mpr perm]

theorem extractTxs_both (classify : Address → Bytes → Action) (indexed : x.Indexed)
    {proxyTxs proxyTxs' stakeTxs stakeTxs' : List ExternalTx}
    (perm : proxyTxs.Perm proxyTxs') (perm' : stakeTxs.Perm stakeTxs') :
    Both Renumbered (x.extractTxs classify proxyTxs stakeTxs) (x.extractTxs classify proxyTxs' stakeTxs') := by
  rw [extractTxs_eq, extractTxs_eq]
  refine (gather_both perm).bind fun infos infos' _ infosPerm => ?_
  refine (gather_both perm').bind fun stakes stakes' _ stakesPerm => ?_
  exact renumbered_of_perm indexed infosPerm stakesPerm

variable {y y' : TxExtractor}

theorem Renumbered.isCommon (renumbered : Renumbered y y') (addr : Address) : y'.isCommon addr = y.isCommon addr := by
  obtain ⟨same, values⟩ := renumbered
  have len : y'.actionInfoList.len = y.actionInfoList.len := by
    rw [← Map.card_values, ← Map.card_values, values]
  have counts : y'.addressCountMap = y.addressCountMap := by rw [same]
  simp only [TxExtractor.isCommon, len, counts]

theorem Renumbered.updateCommonAddressMap (renumbered : Renumbered y y') {order order' : List Address}
    (visits : Map.Enumerates order y.addressCountMap) (visits' : Map.Enumerates order' y'.addressCountMap) :
    Renumbered (y.updateCommonAddressMap order) (y'.updateCommonAddressMap order') := by
  have counts : y'.addressCountMap = y.addressCountMap := by rw [renumbered.1]
  have proxies : y'.proxyABI = y.proxyABI := by rw [renumbered.1]
  have common : (y'.updateCommonAddressMap order').commonAddressMap =
    (y.updateCommonAddressMap order).commonAddressMap := by
    ext addr
    simp only [TxExtractor.updateCommonAddressMap]
    rw [mem_foldl_insert, mem_foldl_insert, visits.mem_iff, visits'.mem_iff, renumbered.isCommon, counts, proxies]
  refine ⟨?_, renumbered.2⟩
  calc y'.updateCommonAddressMap order'
      = { y' with commonAddressMap := (y'.updateCommonAddressMap order').commonAddressMap } := rfl
    _ = { y' with commonAddressMap := (y.updateCommonAddressMap order).commonAddressMap } := by rw [common]
    _ = { y with
          commonAddressMap := (y.updateCommonAddressMap order).commonAddressMap
          actionInfoList := y'.actionInfoList } := by rw [renumbered.1]

theorem mode_congr (stables : y.stableTokenMap = y'.stableTokenMap) (tokens : y.relatedToken = y'.relatedToken) :
    y.mode = y'.mode := by
  have kinds : y.tokenKind = y'.tokenKind := by
    funext token
    simp only [TxExtractor.tokenKind, stables]
  simp only [TxExtractor.mode, kinds, tokens]

theorem same_of_perm (same : y' = { y with actionInfoList := y'.actionInfoList }) {effects effects' : List Effect}
    (perm : effects.Perm effects') :
    TxExtractor.Same { effects.foldl applyEffect y with flowMergeMode := (effects.foldl applyEffect y).mode }
      { effects'.foldl applyEffect y' with flowMergeMode := (effects'.foldl applyEffect y').mode } := by
  have tokens := (perm.map fun effect => effect.tokenTx.tokenAddress).foldl_eq (f := bump)
  have relations := (perm.flatMap_right Effect.relations).foldl_eq (f := relate)
  have bags := (perm.map Effect.flow).foldl_eq (f := addToBag)
  rw [same, foldl_applyEffect_eq, foldl_applyEffect_eq]
  constructor
  · rfl
  · rfl
  · rfl
  · simp only [tokens]
  · apply mode_congr
    · rfl
    · simp only [tokens]
  · exact relations y.userRelatedMap
  · simp only [bag_foldl_append, bags]

theorem Renumbered.extractActionInfoList (renumbered : Renumbered y y') {order order' : List Nat}
    (visits : Map.Enumerates order y.actionInfoList) (visits' : Map.Enumerates order' y'.actionInfoList) :
    Both TxExtractor.Same (y.extractActionInfoList order) (y'.extractActionInfoList order') := by
  obtain ⟨same, values⟩ := renumbered
  have steady : Steady y.relatedToken.isSome y.lpTokenMap y.commonAddressMap y := ⟨rfl, rfl, rfl⟩
  have steady' : Steady y.relatedToken.isSome y.lpTokenMap y.commonAddressMap y' := by
    rw [same]
    exact ⟨rfl, rfl, rfl⟩
  have perm : (order.filterMap y.actionInfoList.lookup).Perm (order'.filterMap y'.actionInfoList.lookup) := by
    rw [← Multiset.coe_eq_coe, visits.filterMap_lookup, visits'.filterMap_lookup, values]
  rw [extractActionInfoList_eq steady, extractActionInfoList_eq steady']
  exact (gather_both perm).map fun effects effects' effectsPerm => same_of_perm same effectsPerm

end Orders

section Confluence

variable {classify : Address → Bytes → Action} {x : TxExtractor} {proxyTxs stakeTxs : List ExternalTx}

theorem TxExtractor.Fresh.indexed (fresh : x.Fresh) : x.Indexed := by
  rw [TxExtractor.Indexed, fresh.actionInfoList]
  rfl

def infoFlows (lpTokenMap commonAddressMap : Finset Address) (info : ActionInfo) : List (Address × TokenTx) :=
  (info.tokenTxListWithoutLP lpTokenMap).filterMap fun tokenTx =>
    (flowUser commonAddressMap tokenTx).map fun user => (user, tokenTx)

def infoRelations (lpTokenMap commonAddressMap : Finset Address) (info : ActionInfo) : List Relation :=
  (info.tokenTxListWithoutLP lpTokenMap).flatMap fun tokenTx =>
    if (flowUser commonAddressMap tokenTx).isSome then
      flowRelations (info.depositTo lpTokenMap) (info.withdrawFrom lpTokenMap) tokenTx
    else []

section Effects

variable {made : Bool} {lpTokenMap commonAddressMap : Finset Address} {effects : List Effect} {info : ActionInfo}
  {tokenTx : TokenTx}

theorem mem_infoRelations {r : Relation} : r ∈ infoRelations lpTokenMap commonAddressMap info ↔
    ∃ tokenTx ∈ info.tokenTxListWithoutLP lpTokenMap, ∃ user, flowUser commonAddressMap tokenTx = some user ∧
      r ∈ flowRelations (info.depositTo lpTokenMap) (info.withdrawFrom lpTokenMap) tokenTx := by
  simp only [infoRelations, List.mem_flatMap, List.mem_ite_nil_right, Option.isSome_iff_exists, exists_and_right]

theorem effectOf_ok {depositTo withdrawFrom : List Address}
    (found : effectOf made commonAddressMap depositTo withdrawFrom tokenTx = .ok effects) :
    effects.flatMap (fun effect => [effect.flow]) =
        ((flowUser commonAddressMap tokenTx).map fun user => (user, tokenTx)).toList ∧
      effects.flatMap Effect.relations =
        (if (flowUser commonAddressMap tokenTx).isSome then flowRelations depositTo withdrawFrom tokenTx else []) := by
  unfold effectOf at found
  split at found
  · rename_i nobody
    cases found
    rw [nobody]
    exact ⟨rfl, rfl⟩
  · rename_i user flows
    rw [flows]
    split at found
    · cases found
      exact ⟨rfl, List.append_nil _⟩
    · cases found

theorem effectsOf_flows (found : effectsOf made lpTokenMap commonAddressMap info = .ok effects) :
    effects.flatMap (fun effect => [effect.flow]) = infoFlows lpTokenMap commonAddressMap info := by
  rw [infoFlows, List.filterMap_eq_flatMap_toList]
  exact gather_flatMap (fun _ _ here => (effectOf_ok here).1) found

theorem effectsOf_relations (found : effectsOf made lpTokenMap commonAddressMap info = .ok effects) :
    effects.flatMap Effect.relations = infoRelations lpTokenMap commonAddressMap info :=
  gather_flatMap (fun _ _ here => (effectOf_ok here).2) found

end Effects

variable {z : TxExtractor}

namespace TxExtractor

def gains (x : TxExtractor) : Multiset (Address × TokenTx) :=
  x.actionInfoList.values.bind fun info =>
    (infoFlows x.lpTokenMap x.commonAddressMap info : Multiset (Address × TokenTx))

def links (x : TxExtractor) : Multiset Relation :=
  x.actionInfoList.values.bind fun info => (infoRelations x.lpTokenMap x.commonAddressMap info : Multiset Relation)

theorem extractActionInfoList_ok {infoOrder : List Nat} (visits : Map.Enumerates infoOrder x.actionInfoList)
    (extracted : x.extractActionInfoList infoOrder = .ok z) :
    ∃ (flows : List (Address × TokenTx)) (relations : List Relation),
      (flows : Multiset (Address × TokenTx)) = x.gains ∧ (relations : Multiset Relation) = x.links ∧
      z = { x with
        userTokenTxMap := flows.foldl (fun m flow => m.append flow.1 flow.2) x.userTokenTxMap
        userRelatedMap := relations.foldl relate x.userRelatedMap
        relatedToken := z.relatedToken, flowMergeMode := z.flowMergeMode } := by
  rw [extractActionInfoList_eq ⟨rfl, rfl, rfl⟩] at extracted
  obtain ⟨effects, found, rfl⟩ := map_ok.mp extracted
  have flows := gather_flatMap (fun _ _ => effectsOf_flows) found
  have relations := gather_flatMap (fun _ _ => effectsOf_relations) found
  refine ⟨effects.map Effect.flow, effects.flatMap Effect.relations, ?_, ?_, ?_⟩
  · rw [List.map_eq_flatMap, flows, gains, ← visits.filterMap_lookup, Multiset.coe_bind]
  · rw [relations, links, ← visits.filterMap_lookup, Multiset.coe_bind]
  · simp only [foldl_applyEffect_eq]

end TxExtractor

/-- What an extraction reads of a history, and what it makes of it. -/
structure Extraction (classify : Address → Bytes → Action) (x : TxExtractor) (proxyTxs stakeTxs : List ExternalTx)
    (z : TxExtractor) (infos : List ActionInfo) (stakes : List TokenTx) (flows : List (Address × TokenTx))
    (relations : List Relation) : Prop where
  infosFound : gather (actionsOf classify x.proxyABI) proxyTxs = .ok infos
  stakesFound : gather stakesOf stakeTxs = .ok stakes
  gained : flows.Perm (infos.flatMap (infoFlows z.lpTokenMap z.commonAddressMap))
  linked : relations.Perm (infos.flatMap (infoRelations z.lpTokenMap z.commonAddressMap))
  proxyABI : z.proxyABI = x.proxyABI
  userTokenTxMap : z.userTokenTxMap = flows.foldl (fun m flow => m.append flow.1 flow.2) x.userTokenTxMap
  userRelatedMap : z.userRelatedMap =
    (stakes.filterMap (stakeRelation z.lpTokenMap) ++ relations).foldl relate x.userRelatedMap

theorem TxExtractor.Extracts.extraction (fresh : x.actionInfoList = .empty)
    (extracts : TxExtractor.Extracts classify x proxyTxs stakeTxs (.ok z)) :
    ∃ infos stakes flows relations, Extraction classify x proxyTxs stakeTxs z infos stakes flows relations := by
  generalize outcome : (Except.ok z : Except Panic TxExtractor) = result at extracts
  cases extracts with
  | panics panic failed => cases outcome
  | finishes y countOrder infoOrder prepared visits visits' =>
    rw [extractTxs_eq] at prepared
    obtain ⟨infos, infosFound, prepared⟩ := bind_ok.mp prepared
    obtain ⟨stakes, stakesFound, result⟩ := bind_ok.mp prepared
    have indexed : x.Indexed := by
      rw [TxExtractor.Indexed, fresh]
      rfl
    have values := (indexed.foldl_addAction infos).2
    rw [fresh, Map.values_empty, zero_add] at values
    rw [foldl_applyStake_eq, foldl_addAction_eq] at result
    rw [foldl_addAction_eq] at values
    obtain ⟨flows, relations, gained, linked, whole⟩ :=
      TxExtractor.extractActionInfoList_ok (x := y.updateCommonAddressMap countOrder) visits' outcome.symm
    cases result
    rw [whole]
    refine ⟨infos, stakes, flows, relations, infosFound, stakesFound, ?_, ?_, rfl, rfl, List.foldl_append.symm⟩
    · rw [← Multiset.coe_eq_coe, gained, TxExtractor.gains, ← Multiset.coe_bind, ← values]
      rfl
    · rw [← Multiset.coe_eq_coe, linked, TxExtractor.links, ← Multiset.coe_bind, ← values]
      rfl

theorem userRelatedMap_of_extracts (fresh : x.Fresh)
    (extracts : TxExtractor.Extracts classify x proxyTxs stakeTxs (.ok z)) :
    ∃ rs : List Relation, z.userRelatedMap = rs.foldl relate .empty ∧ ∀ r, r ∈ rs ↔
      Happens classify x.proxyABI z.lpTokenMap z.commonAddressMap proxyTxs stakeTxs r := by
  obtain ⟨infos, stakes, flows, relations, extraction⟩ := extracts.extraction fresh.actionInfoList
  refine ⟨_, fresh.userRelatedMap ▸ extraction.userRelatedMap, fun r => ?_⟩
  rw [List.mem_append, List.mem_filterMap, extraction.linked.mem_iff, List.mem_flatMap]
  simp only [mem_gather extraction.stakesFound, mem_gather extraction.infosFound, mem_infoRelations]
  constructor
  · rintro (⟨tokenTx, ⟨exTx, exMember, out, here, member⟩, related⟩ |
      ⟨info, ⟨exTx, exMember, out, here, member⟩, tokenTx, tokenMember, user, flows, inside⟩)
    · exact .staked exMember here member related
    · exact .shared exMember here member tokenMember flows inside
  · rintro (⟨exMember, here, member, related⟩ | ⟨exMember, here, member, tokenMember, flows, inside⟩)
    · exact .inl ⟨_, ⟨_, exMember, _, here, member⟩, related⟩
    · exact .inr ⟨_, ⟨_, exMember, _, here, member⟩, _, tokenMember, _, flows, inside⟩

/-- No order of transactions or map iterations matters, and users are related since the first event that relates
    them. -/
theorem extraction_confluent (fresh : x.Fresh) {proxyTxs' stakeTxs' : List ExternalTx}
    (perm : proxyTxs.Perm proxyTxs') (perm' : stakeTxs.Perm stakeTxs') {outcome outcome' : Except Panic TxExtractor}
    (extracts : TxExtractor.Extracts classify x proxyTxs stakeTxs outcome)
    (extracts' : TxExtractor.Extracts classify x proxyTxs' stakeTxs' outcome') :
    Machine.Both TxExtractor.Same outcome outcome' ∧ ∀ z, outcome = .ok z →
      (∀ mainUser relatedUser block, related z.userRelatedMap mainUser relatedUser = some block ↔
        IsLeast {block | mainUser ≠ relatedUser ∧ Happens classify x.proxyABI z.lpTokenMap z.commonAddressMap
          proxyTxs stakeTxs ⟨mainUser, relatedUser, block⟩} block) ∧
      ∀ user, related z.userRelatedMap user user = none := by
  constructor
  · have both := extractTxs_both classify fresh.indexed perm perm'
    cases extracts with
    | panics panic failed =>
      cases extracts' with
      | panics panic' failed' => trivial
      | finishes y countOrder infoOrder prepared counts infos =>
        rw [failed, prepared] at both
        exact both.elim
    | finishes y countOrder infoOrder prepared counts infos =>
      cases extracts' with
      | panics panic' failed' =>
        rw [prepared, failed'] at both
        exact both.elim
      | finishes y' countOrder' infoOrder' prepared' counts' infos' =>
        rw [prepared, prepared'] at both
        exact (Renumbered.updateCommonAddressMap both counts counts').extractActionInfoList infos infos'
  · rintro z rfl
    obtain ⟨rs, relatives, happens⟩ := userRelatedMap_of_extracts fresh extracts
    have blocks (mainUser relatedUser : Address) : blocksIn rs mainUser relatedUser =
        {block | mainUser ≠ relatedUser ∧ Happens classify x.proxyABI z.lpTokenMap z.commonAddressMap
          proxyTxs stakeTxs ⟨mainUser, relatedUser, block⟩} := by
      ext block
      simp only [blocksIn, Set.mem_ofPred_eq, happens]
    constructor
    · intro mainUser relatedUser block
      rw [relatives, (leastOf_related rs mainUser relatedUser).eq_some_iff, blocks]
    · intro user
      have least := leastOf_related rs user user
      rw [relatives]
      cases found : related (rs.foldl relate .empty) user user with
      | none => rfl
      | some block =>
        rw [found] at least
        exact (least.1.1 rfl).elim

def TxExtractor.extractHistory (classify : Address → Bytes → Action) (x : TxExtractor)
    (proxyTxs stakeTxs : List ExternalTx) : Except Panic TxExtractor := do
  let y ← x.extractTxs classify proxyTxs stakeTxs
  (y.updateCommonAddressMap y.addressCountMap.sortedKeys).extractActionInfoList (List.range y.actionInfoList.len)

theorem extractHistory_extracts (classify : Address → Bytes → Action) (fresh : x.Fresh)
    (proxyTxs stakeTxs : List ExternalTx) :
    TxExtractor.Extracts classify x proxyTxs stakeTxs (x.extractHistory classify proxyTxs stakeTxs) := by
  unfold TxExtractor.extractHistory
  cases extracted : x.extractTxs classify proxyTxs stakeTxs with
  | error panic => exact .panics panic extracted
  | ok y =>
    refine .finishes y _ _ extracted (Map.sortedKeys_enumerates _) ⟨List.nodup_range, fun k => ?_⟩
    rw [extractTxs_eq] at extracted
    obtain ⟨infos, -, extracted⟩ := bind_ok.mp extracted
    obtain ⟨stakes, -, result⟩ := bind_ok.mp extracted
    have indexed : y.Indexed := by
      rw [← Except.ok.inj result, foldl_applyStake_eq]
      exact (fresh.indexed.foldl_addAction infos).1
    rw [indexed, List.mem_range, Finset.mem_range]

/-- A user deposits a token 0xa0 at the proxy 0x10, and 0x50 gets the share, a token 0xb0. -/
def depositTx (user : Address) (blockNumber : Int) : ExternalTx :=
  ⟨blockNumber, 0, [⟨user, 0x10, true, none, .call, [1, 2, 3, 4],
    [transferEvent 0xa0 user 0x10 0, transferEvent 0xb0 0 0x50 1], []⟩]⟩

def stakeTx : ExternalTx := ⟨9, 0, [⟨0x50, 0x70, true, none, .call, [], [transferEvent 0xb0 0x50 0x60 0], []⟩]⟩

def depositExtractor : TxExtractor := { proxyABI := {0x10}, relatedToken := some .empty }

theorem extraction_confluent_deposits :
    Machine.Both TxExtractor.Same
      (depositExtractor.extractHistory (fun _ _ => .deposit)
        [depositTx 0x20 7, depositTx 0x20 5, depositTx 0x30 6] [stakeTx])
      (depositExtractor.extractHistory (fun _ _ => .deposit)
        [depositTx 0x30 6, depositTx 0x20 7, depositTx 0x20 5] [stakeTx]) ∧
    (depositExtractor.extractHistory (fun _ _ => .deposit) [depositTx 0x20 7, depositTx 0x20 5, depositTx 0x30 6]
      [stakeTx]).toOption.any (fun z => decide (related z.userRelatedMap 0x50 0x20 = some 5 ∧
        related z.userRelatedMap 0x60 0x50 = some 9 ∧ related z.userRelatedMap 0x50 0x60 = none)) = true := by
  have fresh : depositExtractor.Fresh := ⟨rfl, rfl⟩
  have perm : ([depositTx 0x20 7, depositTx 0x20 5] ++ [depositTx 0x30 6]).Perm
      ([depositTx 0x30 6] ++ [depositTx 0x20 7, depositTx 0x20 5]) := List.perm_append_comm
  have confluent := extraction_confluent fresh perm (.refl [stakeTx])
    (extractHistory_extracts (fun _ _ => .deposit) fresh _ _) (extractHistory_extracts (fun _ _ => .deposit) fresh _ _)
  exact ⟨confluent.1, by decide +kernel⟩

end Confluence

end IDWDetector.Hunter
