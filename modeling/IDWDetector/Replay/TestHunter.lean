import IDWDetector.Hunter.History
import IDWDetector.Hunter.Independence
import IDWDetector.Hunter.Pipeline

namespace IDWDetector.Replay

open Vm Hunter

/-- What `TestTask` starts with: the dapp and the files of its history, and the start block. -/
structure TestTask where
  classify : Address → Bytes → Action
  proxyInfo : ProxyInfo
  block : Uint64
  loadProxyTx : Bytes → ExternalTx
  proxyFiles : List Bytes
  loadStakeTx : Bytes → ExternalTx := fun _ => ⟨0, 0, []⟩
  stakeFiles : List Bytes := []

/-- The extractor after `Init`. The literal does not make `RelatedToken`. -/
def TestTask.extractor (task : TestTask) : TxExtractor := (Pipeline.testTask.init task.proxyInfo).extractor

def flags (run : Run) (z : TxExtractor) (user : Address) : Bool :=
  (z.checkAttack (run.tokens user) (run.arrangements user) (z.generateUserFlow run.sort run.order) user).2

namespace TestTask

variable (task : TestTask)

def history (addresses : List Address) : Except Panic TxExtractor := do
  let x ← initTokenUserTxMap task.loadProxyTx task.block task.classify task.extractor task.proxyFiles
  let x ← initUserRelatedMapWithStake task.loadStakeTx task.block x task.stakeFiles
  .ok (x.updateCommonAddressMap addresses)

def initialised (addresses : List Address) (infoOrder : List Nat) : Except Panic TxExtractor := do
  let x ← task.history addresses
  x.extractActionInfoList infoOrder

end TestTask

/-- An extractor without a flow, which a flow would make panic. -/
structure Bare (x : TxExtractor) : Prop where
  relatedToken : x.relatedToken.isSome = false
  userTokenTxMap : x.userTokenTxMap = .empty

section Bare

variable {classify : Address → Bytes → Action} {x z : TxExtractor} {exTx : ExternalTx} {infoOrder : List Nat}

theorem Bare.extractTokenTx (bare : Bare x) (extracted : x.extractTokenTx classify exTx = .ok z) : Bare z := by
  rw [extractTokenTx_eq] at extracted
  obtain ⟨infos, -, rfl⟩ := Machine.map_ok.mp extracted
  rw [foldl_addAction_eq]
  exact ⟨bare.relatedToken, bare.userTokenTxMap⟩

theorem Bare.extractStakeTokenTx (bare : Bare x) (extracted : x.extractStakeTokenTx exTx = .ok z) : Bare z := by
  rw [extractStakeTokenTx_eq] at extracted
  obtain ⟨stakes, -, rfl⟩ := Machine.map_ok.mp extracted
  rw [foldl_applyStake_eq]
  exact ⟨bare.relatedToken, bare.userTokenTxMap⟩

theorem Bare.extractActionInfoList (bare : Bare x) (extracted : x.extractActionInfoList infoOrder = .ok z) :
    Bare z := by
  rcases extractActionInfoList_unmade bare.relatedToken infoOrder with ⟨result, -⟩ | ⟨result, -⟩
  · rw [result] at extracted
    cases extracted
    exact ⟨bare.relatedToken, bare.userTokenTxMap⟩
  · rw [result] at extracted
    cases extracted

theorem Bare.generateUserFlow (bare : Bare x) (sort : List TokenTx → List TokenTx) (order : Address → List Address) :
    x.generateUserFlow sort order = .empty := by
  rw [TxExtractor.generateUserFlow, bare.userTokenTxMap]
  rfl

theorem TestTask.bare {task : TestTask} {addresses : List Address}
    (initialised : task.initialised addresses infoOrder = .ok z) : Bare z := by
  obtain ⟨x, loaded, extracted⟩ := Machine.bind_ok.mp initialised
  obtain ⟨first, proxies, rest⟩ := Machine.bind_ok.mp loaded
  obtain ⟨second, stakes, result⟩ := Machine.bind_ok.mp rest
  cases result
  have literal : Bare task.extractor := ⟨rfl, rfl⟩
  have bare : Bare first := Machine.foldlM_kept Bare (fun _ _ _ => Bare.extractTokenTx) literal proxies
  have bare' : Bare second := Machine.foldlM_kept Bare (fun _ _ _ => Bare.extractStakeTokenTx) bare stakes
  have common : Bare (second.updateCommonAddressMap addresses) := ⟨bare'.relatedToken, bare'.userTokenTxMap⟩
  exact common.extractActionInfoList extracted

end Bare

end IDWDetector.Replay
