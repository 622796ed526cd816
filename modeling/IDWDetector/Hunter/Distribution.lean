import IDWDetector.Hunter.Confluence

namespace IDWDetector.Hunter

open Vm Machine

def UserTokenTxMap.listOf (m : UserTokenTxMap) (user token : Address) : List TokenTx :=
  (Go.Map.getD m user .empty).getD token []

theorem UserTokenTxMap.listOf_append (m : UserTokenTxMap) (flow : Address × TokenTx) (user token : Address) :
    (m.append flow.1 flow.2).listOf user token =
      m.listOf user token ++ if flow.1 = user ∧ flow.2.tokenAddress = token then [flow.2] else [] := by
  unfold listOf append
  rw [Go.Map.getD_upsert]
  by_cases here : user = flow.1
  · subst here
    rw [if_pos rfl, Go.Map.getD_upsert]
    by_cases there : token = flow.2.tokenAddress
    · subst there
      rw [if_pos rfl, if_pos ⟨rfl, rfl⟩]
      rfl
    · rw [if_neg there, if_neg fun both => there both.2.symm, List.append_nil]
      rfl
  · rw [if_neg here, if_neg fun both => here both.1.symm, List.append_nil]

theorem UserTokenTxMap.listOf_foldl_append (m : UserTokenTxMap) (flows : List (Address × TokenTx))
    (user token : Address) :
    (flows.foldl (fun m flow => m.append flow.1 flow.2) m).listOf user token =
      m.listOf user token ++ (flows.filter fun flow => flow.1 = user ∧ flow.2.tokenAddress = token).map Prod.snd := by
  induction flows generalizing m with
  | nil => simp
  | cons flow rest ih =>
    rw [List.foldl_cons, ih, listOf_append, List.filter_cons, List.append_assoc]
    split
    · rename_i here
      simp [here]
    · rename_i elsewhere
      simp [elsewhere]

variable {x z : TxExtractor} {classify : Address → Bytes → Action} {proxyTxs : List ExternalTx}

/-- What an extraction makes of a history: the transfers of its actions, in some order, become
    the flows of the users. -/
structure Distributes (classify : Address → Bytes → Action) (x : TxExtractor) (proxyTxs : List ExternalTx)
    (infos : List ActionInfo) (flows : List (Address × TokenTx)) (z : TxExtractor) : Prop where
  actions : Machine.gather (actionsOf classify z.proxyABI) proxyTxs = .ok infos
  perm : flows.Perm (infos.flatMap (infoFlows z.lpTokenMap z.commonAddressMap))
  lists : ∀ user token, z.userTokenTxMap.listOf user token = x.userTokenTxMap.listOf user token ++
    (flows.filter fun flow => flow.1 = user ∧ flow.2.tokenAddress = token).map Prod.snd

theorem TxExtractor.Extracts.distributes {stakeTxs : List ExternalTx} (fresh : x.actionInfoList = .empty)
    (extracts : TxExtractor.Extracts classify x proxyTxs stakeTxs (.ok z)) :
    ∃ infos flows, Distributes classify x proxyTxs infos flows z := by
  obtain ⟨infos, stakes, flows, relations, extraction⟩ := extracts.extraction fresh
  refine ⟨infos, flows, extraction.proxyABI ▸ extraction.infosFound, extraction.gained, fun user token => ?_⟩
  rw [extraction.userTokenTxMap, UserTokenTxMap.listOf_foldl_append]

end IDWDetector.Hunter
