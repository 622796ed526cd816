import IDWDetector.Hunter.Related

namespace IDWDetector.Hunter

namespace TxExtractor

variable (x : TxExtractor)

open Classical in
noncomputable def reached (blockNumber : Int) (user : Address) : Finset Address :=
  (relatedUsers x.userRelatedMap).filter fun relatedUser => x.Reaches blockNumber user relatedUser

noncomputable def checked (flows : Address → List TokenFlow) (user : Address) (flow : TokenFlow) : Totals :=
  flow.totals + ∑ relatedUser ∈ x.reached flow.blockNumber user, totalsUpTo flow (flows relatedUser) 0

variable {x} {arrangement : Arrangement} {user : Address}

theorem Reaches.mem_relatedUsers {blockNumber : Int} {relatedUser : Address}
    (reaches : x.Reaches blockNumber user relatedUser) : relatedUser ∈ relatedUsers x.userRelatedMap := by
  cases reaches with
  | single relates => exact relates.mem_relatedUsers
  | tail _ relates => exact relates.mem_relatedUsers

theorem mem_reached {blockNumber : Int} {relatedUser : Address} :
    relatedUser ∈ x.reached blockNumber user ↔ x.Reaches blockNumber user relatedUser := by
  classical
  rw [reached, Finset.mem_filter]
  exact ⟨And.right, fun reaches => ⟨reaches.mem_relatedUsers, reaches⟩⟩

theorem attackTotals_eq {flows : Address → List TokenFlow} {order : Address → Finset Address → List Address}
    (enumerated : ∀ user used, Go.Map.Enumerates (order user used)
      (x.userRelatedMap.getD user .empty)) (flow : TokenFlow) :
    x.attackTotals flows order (relatedUsers x.userRelatedMap).card user flow =
      some (x.checked flows user flow, x.reached flow.blockNumber user) := by
  obtain ⟨used, ran, members⟩ := traversal_exact enumerated (fun user => totalsUpTo flow (flows user) 0)
    flow.blockNumber (relatedUsers x.userRelatedMap).card user flow.totals (le_refl _)
  have same : used = x.reached flow.blockNumber user := by
    ext relatedUser
    rw [members, mem_reached]
  rw [same] at ran
  exact ran

theorem detect_isSome
    (enumerated : ∀ user used, Go.Map.Enumerates (arrangement.order user used) (x.userRelatedMap.getD user .empty))
    (flow : TokenFlow) : (x.detect arrangement user flow).isSome = abnormal
    (x.checked arrangement.flows user flow) := by
  rw [detect, attackTotals_eq enumerated]
  simp only [Option.bind_eq_bind, Option.bind_some]
  cases abnormal (x.checked arrangement.flows user flow) with
  | true => rfl
  | false => rfl

theorem checkToken_isSome_iff {arrangements : Nat → Arrangement} {length : Nat}
    (enumerated : ∀ index user used,
      Go.Map.Enumerates ((arrangements index).order user used) (x.userRelatedMap.getD user .empty)) :
    (x.checkToken arrangements user length).isSome = true ↔ ∃ index < length, ∃ flow,
      (arrangements index).list[index]? = some flow ∧ flow.action ≠ .deposit ∧
      abnormal (x.checked (arrangements index).flows user flow) = true := by
  rw [checkToken, List.findSome?_isSome_iff]
  apply exists_congr
  intro index
  rw [List.mem_range]
  apply and_congr_right
  intro _
  cases (arrangements index).list[index]? with
  | none => simp
  | some flow =>
    simp only [Option.bind_eq_bind, Option.bind_some, Option.some.injEq, exists_eq_left']
    by_cases deposit : flow.action = .deposit
    · simp [deposit]
    · rw [if_neg deposit, detect_isSome (enumerated index)]
      simp [deposit]

theorem checkAttack_iff {tokens : List Address} {arrangements : Address → Nat → Arrangement}
    {userTokenFlowMap : UserTokenFlowMap} :
    (x.checkAttack tokens arrangements userTokenFlowMap user).2 = true ↔ user ∉ x.commonAddressMap ∧
      ∃ tokenAddress ∈ tokens, x.stableTokenMap.lookup tokenAddress = none ∧
        (x.checkToken (arrangements tokenAddress) user
          ((userTokenFlowMap.getD user .empty).getD tokenAddress []).length).isSome = true := by
  unfold checkAttack
  split
  · rename_i common
    simp [common]
  · rename_i uncommon
    simp only [uncommon, not_false_eq_true, true_and, Bool.not_eq_true', List.isEmpty_eq_false_iff, ne_eq,
      List.filterMap_eq_nil_iff, not_forall]
    constructor
    · rintro ⟨tokenAddress, listed, reported⟩
      refine ⟨tokenAddress, listed, ?_⟩
      split at reported
      · exact absurd rfl reported
      · rename_i plain
        rw [Option.map_eq_none_iff] at reported
        exact ⟨Option.not_isSome_iff_eq_none.mp plain, Option.isSome_iff_ne_none.mpr reported⟩
    · rintro ⟨tokenAddress, listed, plain, reported⟩
      refine ⟨tokenAddress, listed, ?_⟩
      rw [plain, if_neg (by simp), Option.map_eq_none_iff]
      exact Option.isSome_iff_ne_none.mp reported

end TxExtractor

end IDWDetector.Hunter
