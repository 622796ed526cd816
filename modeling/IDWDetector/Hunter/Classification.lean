import IDWDetector.Hunter.Extractor
import Mathlib.Data.List.Infix

namespace IDWDetector.Hunter

open Go

abbrev Text := List Char

def noneAction : Text := "none".toList

/-- The entries of `ActionMap.json` in the order in which `range` yields them: an action, and the names of its
    methods. -/
abbrev ActionFile := List (Text × List Text)

def loadActionMap (file : ActionFile) : Map Text Text :=
  file.foldl (fun actionMap entry => entry.2.foldl (fun actionMap name => actionMap.set name entry.1) actionMap) .empty

def matchNames (actionMap : Map Text Text) (methodName : Text) : List Text → Text → Text
  | [], action => action
  | name :: rest, action =>
    if name <:+: methodName then
      let tempAction := actionMap.getD name []
      if tempAction = noneAction then noneAction else matchNames actionMap methodName rest tempAction
    else matchNames actionMap methodName rest action

/-- `lower` is `unicode.ToLower`, and the method is what `MethodById` finds in the ABI of the proxy. -/
def extractAction (lower : Char → Char) (actionMap : Map Text Text) (order : List Text)
    (method : Option Text) : Text :=
  match method with
  | none => noneAction
  | some methodName => matchNames actionMap (methodName.map lower) order noneAction

def Configured (file : ActionFile) (name action : Text) : Prop := ∃ names, (action, names) ∈ file ∧ name ∈ names

def namedActions (file : ActionFile) : List (Text × Text) :=
  file.flatMap fun entry => entry.2.map fun name => (name, entry.1)

theorem loadActionMap_eq (file : ActionFile) : loadActionMap file = Map.ofPairs (namedActions file) := by
  rw [Map.ofPairs, namedActions, List.foldl_flatMap]
  simp only [List.foldl_map]
  rfl

theorem mem_namedActions {file : ActionFile} {name action : Text} :
    (name, action) ∈ namedActions file ↔ Configured file name action := by
  rw [namedActions, List.mem_flatMap]
  constructor
  · rintro ⟨⟨action', names⟩, member, mapped⟩
    obtain ⟨name', listed, same⟩ := List.mem_map.mp mapped
    cases same
    exact ⟨names, member, listed⟩
  · rintro ⟨names, member, listed⟩
    exact ⟨(action, names), member, List.mem_map.mpr ⟨name, listed, rfl⟩⟩

theorem mem_keys_loadActionMap {file : ActionFile} {name : Text} :
    name ∈ (loadActionMap file).keys ↔ ∃ action, Configured file name action := by
  rw [loadActionMap_eq, Map.keys_ofPairs, List.mem_toFinset, List.mem_map]
  constructor
  · rintro ⟨⟨name', action⟩, member, rfl⟩
    exact ⟨action, mem_namedActions.mp member⟩
  · rintro ⟨action, configured⟩
    exact ⟨(name, action), mem_namedActions.mpr configured, rfl⟩

theorem configured_of_lookup {file : ActionFile} {name action : Text}
    (found : (loadActionMap file).lookup name = some action) : Configured file name action := by
  rw [loadActionMap_eq] at found
  exact mem_namedActions.mp (Map.mem_of_lookup_ofPairs found)

section Matching

variable (actionMap : Map Text Text) (methodName : Text)

def Matches (name action : Text) : Prop := actionMap.lookup name = some action ∧ name <:+: methodName

theorem matchNames_append (first second : List Text) (action : Text)
    (other : ∀ name ∈ first, name <:+: methodName → actionMap.getD name [] ≠ noneAction) :
    matchNames actionMap methodName (first ++ second) action =
      matchNames actionMap methodName second (matchNames actionMap methodName first action) := by
  induction first generalizing action with
  | nil => rfl
  | cons name rest ih =>
    have later : ∀ name ∈ rest, name <:+: methodName → actionMap.getD name [] ≠ noneAction := by
      intro name member
      exact other name (List.mem_cons_of_mem _ member)
    rw [List.cons_append, matchNames, matchNames]
    by_cases found : name <:+: methodName
    · have acts := other name List.mem_cons_self found
      rw [if_pos found, if_pos found]
      simp only [if_neg acts]
      exact ih _ later
    · rw [if_neg found, if_neg found]
      exact ih _ later

theorem matchNames_none {order : List Text} {name : Text} (member : name ∈ order) (found : name <:+: methodName)
    (none : actionMap.getD name [] = noneAction) (action : Text) :
    matchNames actionMap methodName order action = noneAction := by
  induction order generalizing action with
  | nil => cases member
  | cons first rest ih =>
    rw [matchNames]
    rcases List.mem_cons.mp member with rfl | later
    · rw [if_pos found]
      exact if_pos none
    · split
      · simp only
        split
        · rfl
        · exact ih later _
      · exact ih later _

theorem matchNames_cases (order : List Text) (action : Text) :
    matchNames actionMap methodName order action = action ∧ (∀ name ∈ order, ¬name <:+: methodName) ∨
      ∃ name ∈ order, name <:+: methodName ∧ matchNames actionMap methodName order action = actionMap.getD name [] := by
  induction order generalizing action with
  | nil => exact .inl ⟨rfl, nofun⟩
  | cons name rest ih =>
    rw [matchNames]
    by_cases found : name <:+: methodName
    · rw [if_pos found]
      simp only
      split
      · rename_i none
        exact .inr ⟨name, List.mem_cons_self, found, none.symm⟩
      · rcases ih (actionMap.getD name []) with ⟨same, -⟩ | ⟨later, member, matched, same⟩
        · exact .inr ⟨name, List.mem_cons_self, found, same⟩
        · exact .inr ⟨later, List.mem_cons_of_mem _ member, matched, same⟩
    · rw [if_neg found]
      rcases ih action with ⟨same, absent⟩ | ⟨later, member, matched, same⟩
      · exact .inl ⟨same, List.forall_mem_cons.mpr ⟨found, absent⟩⟩
      · exact .inr ⟨later, List.mem_cons_of_mem _ member, matched, same⟩

variable {actionMap methodName} {order : List Text}

theorem getD_of_lookup {name action : Text} (found : actionMap.lookup name = some action) :
    actionMap.getD name [] = action := by
  rw [Map.getD, found]
  rfl

theorem Matches.mem (enumerates : Map.Enumerates order actionMap) {name action : Text}
    (found : Matches actionMap methodName name action) : name ∈ order := by
  rw [enumerates.mem_iff]
  exact (Map.mem_keys_iff _ _).mpr ⟨action, found.1⟩

theorem matchNames_matches (enumerates : Map.Enumerates order actionMap) :
    matchNames actionMap methodName order noneAction = noneAction ∧
      (∀ name action, ¬Matches actionMap methodName name action) ∨
      ∃ name, Matches actionMap methodName name (matchNames actionMap methodName order noneAction) := by
  rcases matchNames_cases actionMap methodName order noneAction with ⟨same, absent⟩ | ⟨name, member, matched, same⟩
  · refine .inl ⟨same, ?_⟩
    intro name action found
    exact absent name (found.mem enumerates) found.2
  · rw [enumerates.mem_iff, Map.mem_keys_iff] at member
    obtain ⟨action, found⟩ := member
    rw [getD_of_lookup found] at same
    exact .inr ⟨name, same ▸ found, matched⟩

theorem exists_order_last (absent : ∀ name, ¬Matches actionMap methodName name noneAction) {name action : Text}
    (found : Matches actionMap methodName name action) :
    ∃ order, Map.Enumerates order actionMap ∧ matchNames actionMap methodName order noneAction = action := by
  have all : Map.Enumerates actionMap.keys.toList actionMap :=
    ⟨Finset.nodup_toList _, fun _ => Finset.mem_toList⟩
  have perm := List.perm_cons_erase (found.mem all)
  refine ⟨actionMap.keys.toList.erase name ++ [name],
    all.of_perm (perm.trans (List.perm_append_singleton _ _).symm), ?_⟩
  have acts {name action : Text} (found : Matches actionMap methodName name action) :
      actionMap.getD name [] ≠ noneAction := by
    rw [getD_of_lookup found.1]
    rintro rfl
    exact absent name found
  rw [matchNames_append, matchNames, if_pos found.2]
  · simp only [if_neg (acts found), matchNames]
    exact getD_of_lookup found.1
  · intro other member matched
    have listed := List.mem_of_mem_erase member
    rw [Finset.mem_toList, Map.mem_keys_iff] at listed
    obtain ⟨action', held⟩ := listed
    exact acts ⟨held, matched⟩

end Matching

section Orders

variable (lower : Char → Char) (file : ActionFile) (methodName : Text)

/-- The action of a method does not depend on the order of the names, exactly if one of the names that match is none's
    or all of them have one action. -/
theorem extractAction_deterministic_iff :
    (∀ order order', Map.Enumerates order (loadActionMap file) → Map.Enumerates order' (loadActionMap file) →
      extractAction lower (loadActionMap file) order (some methodName) =
        extractAction lower (loadActionMap file) order' (some methodName)) ↔
    (∃ name, Matches (loadActionMap file) (methodName.map lower) name noneAction) ∨
      ∀ name action name' action', Matches (loadActionMap file) (methodName.map lower) name action →
        Matches (loadActionMap file) (methodName.map lower) name' action' → action = action' := by
  constructor
  · intro deterministic
    by_contra different
    obtain ⟨absent, different⟩ := not_or.mp different
    apply different
    intro name action name' action' found found'
    obtain ⟨order, enumerates, result⟩ := exists_order_last (not_exists.mp absent) found
    obtain ⟨order', enumerates', result'⟩ := exists_order_last (not_exists.mp absent) found'
    rw [← result, ← result']
    exact deterministic order order' enumerates enumerates'
  · rintro (⟨name, found⟩ | same) order order' enumerates enumerates'
    · have zero {order : List Text} (enumerates : Map.Enumerates order (loadActionMap file)) :
          extractAction lower (loadActionMap file) order (some methodName) = noneAction :=
        matchNames_none _ _ (found.mem enumerates) found.2 (getD_of_lookup found.1) _
      rw [zero enumerates, zero enumerates']
    · rcases matchNames_matches enumerates with ⟨none, absent⟩ | ⟨name, found⟩
      · rcases matchNames_matches enumerates' with ⟨none', -⟩ | ⟨name', found'⟩
        · exact none.trans none'.symm
        · exact absurd found' (absent _ _)
      · rcases matchNames_matches enumerates' with ⟨-, absent'⟩ | ⟨name', found'⟩
        · exact absurd found (absent' _ _)
        · exact same _ _ _ _ found found'

end Orders

/-- `ActionMap.json`. -/
def actionFile : ActionFile :=
  [("deposit".toList, ["mint".toList, "deposit".toList, "lendToWarpVault".toList, "stake".toList, "lendto".toList,
    "add_liquidity".toList, "lend".toList, "supply".toList, "liquidateBorrow".toList, "staking".toList]),
  ("withdraw".toList, ["burn".toList, "withdraw".toList, "redeem".toList, "unstake".toList, "reward".toList,
    "remove_liquidity".toList, "collectfee".toList]),
  (noneAction, ["admin".toList])]

def actionNames : List Text := actionFile.flatMap Prod.snd

theorem actionNames_enumerates : Map.Enumerates actionNames (loadActionMap actionFile) where
  nodup := by decide +kernel
  mem_iff := by
    intro name
    rw [mem_keys_loadActionMap, actionNames, List.mem_flatMap]
    constructor
    · rintro ⟨⟨action, names⟩, member, listed⟩
      exact ⟨action, names, member, listed⟩
    · rintro ⟨action, names, member, listed⟩
      exact ⟨(action, names), member, listed⟩

/-- The method `unstake` matches the name of a deposit and that of a withdrawal. -/
theorem unstake_ambiguous : ∃ order order', Map.Enumerates order (loadActionMap actionFile) ∧
    Map.Enumerates order' (loadActionMap actionFile) ∧
    extractAction Char.toLower (loadActionMap actionFile) order (some "unstake".toList) = "withdraw".toList ∧
    extractAction Char.toLower (loadActionMap actionFile) order' (some "unstake".toList) = "deposit".toList :=
  ⟨actionNames, actionNames.reverse, actionNames_enumerates, actionNames_enumerates.of_perm (List.reverse_perm _).symm,
    by decide +kernel, by decide +kernel⟩

section Caseless

variable (lower : Char → Char) (file : ActionFile) (methodName : Text)

def ContainsFold (name : Text) : Prop := name.map lower <:+: methodName.map lower

/-- All names that the method contains belong to one action, and there is one. -/
def OneAction (action : Text) : Prop :=
  (∃ name, Configured file name action ∧ ContainsFold lower methodName name) ∧
    ∀ name action', Configured file name action' → ContainsFold lower methodName name → action' = action

def HasNone : Prop := ∃ name, Configured file name noneAction ∧ ContainsFold lower methodName name

def HasLower : Prop :=
  ∃ name action, Configured file name action ∧ ContainsFold lower methodName name ∧ name.map lower = name

variable {lower file methodName}

theorem matches_iff (idempotent : ∀ c, lower (lower c) = lower c) {name action : Text} :
    Matches (loadActionMap file) (methodName.map lower) name action ↔
      (loadActionMap file).lookup name = some action ∧ ContainsFold lower methodName name ∧ name.map lower = name := by
  rw [Matches]
  apply and_congr_right
  intro _
  constructor
  · intro contained
    have lowered : name.map lower = name := by
      conv_rhs => rw [← List.map_id name]
      apply List.map_congr_left
      intro c member
      obtain ⟨d, -, rfl⟩ := List.mem_map.mp (contained.subset member)
      exact idempotent d
    rw [ContainsFold, lowered]
    exact ⟨contained, rfl⟩
  · rintro ⟨contained, lowered⟩
    rw [ContainsFold, lowered] at contained
    exact contained

theorem exists_matches_iff (idempotent : ∀ c, lower (lower c) = lower c) :
    (∃ name action, Matches (loadActionMap file) (methodName.map lower) name action) ↔
    HasLower lower file methodName := by
  constructor
  · rintro ⟨name, action, found⟩
    obtain ⟨held, contained, lowered⟩ := (matches_iff idempotent).mp found
    exact ⟨name, action, configured_of_lookup held, contained, lowered⟩
  · rintro ⟨name, action, configured, contained, lowered⟩
    obtain ⟨action', held⟩ := (Map.mem_keys_iff _ _).mp (mem_keys_loadActionMap.mpr ⟨action, configured⟩)
    exact ⟨name, action', (matches_iff idempotent).mpr ⟨held, contained, lowered⟩⟩

/-- Names match ignoring letter case exactly if one that the method contains is in lower case, of none unless there
    is no other. -/
theorem extractAction_fold_iff (lower : Char → Char) (file : ActionFile) (methodName : Text)
    (idempotent : ∀ c, lower (lower c) = lower c) :
    (∀ order, Map.Enumerates order (loadActionMap file) →
      (∀ action, OneAction lower file methodName action →
        extractAction lower (loadActionMap file) order (some methodName) = action) ∧
      (HasNone lower file methodName →
        extractAction lower (loadActionMap file) order (some methodName) = noneAction)) ↔
    (∀ action, OneAction lower file methodName action → action ≠ noneAction → HasLower lower file methodName) ∧
      (HasNone lower file methodName → HasLower lower file methodName →
        ∃ name, (loadActionMap file).lookup name = some noneAction ∧ ContainsFold lower methodName name ∧
          name.map lower = name) := by
  have all : Map.Enumerates (loadActionMap file).keys.toList (loadActionMap file) :=
    ⟨Finset.nodup_toList _, fun _ => Finset.mem_toList⟩
  constructor
  · intro holds
    constructor
    · intro action one acts
      rcases @matchNames_matches _ (methodName.map lower) _ all with ⟨none, -⟩ | ⟨name, found⟩
      · have same := (holds _ all).1 action one
        exact absurd (same.symm.trans none) acts
      · exact (exists_matches_iff idempotent).mp ⟨name, _, found⟩
    · intro none lowered
      by_contra absent
      have unmatched (name : Text) : ¬Matches (loadActionMap file) (methodName.map lower) name noneAction := by
        intro found
        exact absent ⟨name, (matches_iff idempotent).mp found⟩
      obtain ⟨name, action, found⟩ := (exists_matches_iff idempotent).mpr lowered
      obtain ⟨order, enumerates, result⟩ := exists_order_last unmatched found
      have same : action = noneAction := result.symm.trans ((holds order enumerates).2 none)
      exact unmatched name (same ▸ found)
  · rintro ⟨one, none⟩ order enumerates
    have result := @matchNames_matches _ (methodName.map lower) _ enumerates
    constructor
    · intro action only
      rcases result with ⟨same, absent⟩ | ⟨name, found⟩
      · by_contra different
        have acts : action ≠ noneAction := by
          rintro rfl
          exact different same
        obtain ⟨name, action', found⟩ := (exists_matches_iff idempotent).mpr (one action only acts)
        exact absent name action' found
      · obtain ⟨held, contained, -⟩ := (matches_iff idempotent).mp found
        exact only.2 name _ (configured_of_lookup held) contained
    · intro has
      rcases result with ⟨same, -⟩ | ⟨name, found⟩
      · exact same
      · obtain ⟨name', held, contained, lowered⟩ := none has ((exists_matches_iff idempotent).mp ⟨name, _, found⟩)
        have matched := (matches_iff idempotent).mpr ⟨held, contained, lowered⟩
        exact matchNames_none _ _ (matched.mem enumerates) matched.2 (getD_of_lookup held) _

end Caseless

theorem toLower_idempotent (c : Char) : c.toLower.toLower = c.toLower := by
  unfold Char.toLower
  split
  · rename_i upper
    rw [dif_neg]
    rintro ⟨-, above⟩
    obtain ⟨first, last⟩ := upper
    simp only [UInt32.le_iff_toNat_le, UInt32.toNat_add, ge_iff_le] at above first last
    have letterA : ('A'.val).toNat = 65 := rfl
    have letterZ : ('Z'.val).toNat = 90 := rfl
    have distance : ('a'.val - 'A'.val).toNat = 32 := rfl
    omega
  · rfl

theorem extractAction_fold_adminDeposit : HasNone Char.toLower actionFile "adminDeposit".toList ∧
    ∀ order, Map.Enumerates order (loadActionMap actionFile) →
      extractAction Char.toLower (loadActionMap actionFile) order (some "adminDeposit".toList) = noneAction := by
  have configured : Configured actionFile "admin".toList noneAction := mem_namedActions.mp (by decide +kernel)
  have contained : ContainsFold Char.toLower "adminDeposit".toList "admin".toList := by
    unfold ContainsFold
    decide +kernel
  have lowered : HasLower Char.toLower actionFile "adminDeposit".toList :=
    ⟨_, _, configured, contained, by decide +kernel⟩
  have none : HasNone Char.toLower actionFile "adminDeposit".toList := ⟨_, configured, contained⟩
  refine ⟨none, fun order enumerates => ((extractAction_fold_iff Char.toLower actionFile "adminDeposit".toList
    toLower_idempotent).mpr ⟨fun _ _ _ => lowered, fun _ _ => ?_⟩ order enumerates).2 none⟩
  exact ⟨"admin".toList, by decide +kernel, contained, by decide +kernel⟩

/-- The name `liquidateBorrow` is never found, since the method is in lower case. -/
theorem liquidateBorrow_unmatched : OneAction Char.toLower actionFile "liquidateBorrow".toList "deposit".toList ∧
    Map.Enumerates actionNames (loadActionMap actionFile) ∧
    extractAction Char.toLower (loadActionMap actionFile) actionNames (some "liquidateBorrow".toList) = noneAction := by
  refine ⟨⟨⟨"liquidateBorrow".toList, ?_, List.infix_refl _⟩, ?_⟩, actionNames_enumerates, by decide +kernel⟩
  · exact mem_namedActions.mp (by decide +kernel)
  · have only : ∀ pair ∈ namedActions actionFile,
      pair.1.map Char.toLower <:+: "liquidateBorrow".toList.map Char.toLower →
        pair.2 = "deposit".toList := by decide +kernel
    intro name action configured contained
    exact only (name, action) (mem_namedActions.mpr configured) contained

end IDWDetector.Hunter
