import IDWDetector.Vm.Evm
import Mathlib.Algebra.Order.Field.Rat

namespace IDWDetector.Hunter

open Vm Go

inductive Action
  | none
  | deposit
  | withdraw
deriving DecidableEq, Repr

/-- The block, the transaction and the action are filled in by `ExtractActionInfoList`. -/
structure TokenTx where
  blockNumber : Int := 0
  txIndex : Int := 0
  eventIndex : Nat := 0
  sender : Address
  toAddr : Address
  amount : Int
  tokenAddress : Address
  action : Action := .none
deriving DecidableEq

structure ActionInfo where
  action : Action
  blockNumber : Int
  txIndex : Int
  tokenTxList : List TokenTx
deriving DecidableEq

structure ExternalTx where
  blockNumber : Int
  txIndex : Int
  inTxs : List InternalTx

structure StableToken where
  decimals : Int
  xToken : Address
  rateToXToken : Uint64
deriving DecidableEq

structure TokenSwap where
  rateMap : Map Uint64 ℚ

abbrev TokenTxMap := Map Address (List TokenTx)
abbrev UserTokenTxMap := Map Address TokenTxMap
abbrev RelatedMap := Map Address Int
abbrev UserRelatedMap := Map Address RelatedMap

inductive FlowMode
  | single
  | eth
  | usd
  | btc
  | mix
deriving DecidableEq, Repr

/-- The maps to `true` are sets. `RelatedToken` is nil in an extractor that does not
    make it. -/
structure TxExtractor where
  proxyABI : Finset Address
  userTokenTxMap : UserTokenTxMap := .empty
  userRelatedMap : UserRelatedMap := .empty
  actionInfoList : Map Nat ActionInfo := .empty
  addressCountMap : Map Address Int := .empty
  commonAddressMap : Finset Address := ∅
  relatedToken : Option (Map Address Int) := none
  flowMergeMode : FlowMode := .single
  lpTokenMap : Finset Address := ∅
  stableTokenMap : Map Address StableToken := .empty
  tokenSwapMap : Map Address TokenSwap := .empty

def transferTopic : Hash := 0xddf252ad1be2c89b69c2b068fc378daa952ba7f163c4a11628f55a4df523b3ef

/-- Transfers have three topics; the amount is the first word of the data, and
    `res[0]` panics where there is none. -/
def extractEvent (event : Event) : Except Panic (Option TokenTx) :=
  match event.topics with
  | [topic, sender, recipient] =>
    if topic = transferTopic then
      if event.data.length < 32 then .error .indexOutOfRange
      else .ok (some
        { eventIndex := event.index
          sender := sender.setWidth 160
          toAddr := recipient.setWidth 160
          amount := Rlp.bytesNat (event.data.take 32)
          tokenAddress := event.address })
    else .ok none
  | _ => .ok none

def extractEvents : List Event → Except Panic (List TokenTx)
  | [] => .ok []
  | event :: rest => do
    let tokenTx ← extractEvent event
    let later ← extractEvents rest
    .ok (tokenTx.toList ++ later)

def etherTx (sender toAddr : Address) : Option Int → List TokenTx
  | none => []
  | some value =>
    if 0 < value then [{ sender := sender, toAddr := toAddr, amount := value, tokenAddress := 0 }] else []

namespace TxExtractor

/-- The count of an address, and the discovery of the tokens of the application: they
    are minted or burnt, and not listed as stable. -/
def countTokenTx (x : TxExtractor) (tokenTx : TokenTx) : TxExtractor :=
  if x.stableTokenMap.lookup tokenTx.tokenAddress = none ∧ (tokenTx.sender = 0 ∨ tokenTx.toAddr = 0) then
    { x with lpTokenMap := insert tokenTx.tokenAddress x.lpTokenMap }
  else
    { x with
      addressCountMap := (x.addressCountMap.upsert tokenTx.sender fun count => count.getD 0 + 1).upsert
        tokenTx.toAddr fun count => count.getD 0 + 1 }

def addAction (x : TxExtractor) (info : ActionInfo) : TxExtractor :=
  let x := info.tokenTxList.foldl countTokenTx x
  { x with actionInfoList := x.actionInfoList.set x.actionInfoList.len info }

section Extraction

-- `classify` is `extractAction`: what the ABI of a proxy and the action map say about
-- the method with a selector.
variable (classify : Address → Bytes → Action)

def actionOf (proxies : Finset Address) (toAddr : Address) (input : Bytes) : Action :=
  if toAddr ∈ proxies ∧ 4 ≤ input.length then classify toAddr (input.take 4) else .none

mutual

def extractInTxInfo (blockNumber txIndex : Int) :
    InternalTx → TxExtractor → Except Panic (List TokenTx × TxExtractor)
  | ⟨fromAddr, toAddr, _, value, _, input, events, inTxs⟩, x => do
    let action := actionOf classify x.proxyABI toAddr input
    let (below, x) ← extractInTxs blockNumber txIndex inTxs x
    let own ← extractEvents events
    let tokenTxList := etherTx fromAddr toAddr value ++ below ++ own
    if action = .none then .ok (tokenTxList, x)
    else .ok ([], x.addAction ⟨action, blockNumber, txIndex, tokenTxList⟩)

def extractInTxs (blockNumber txIndex : Int) :
    List InternalTx → TxExtractor → Except Panic (List TokenTx × TxExtractor)
  | [], x => .ok ([], x)
  | tx :: rest, x => do
    let (first, x) ← extractInTxInfo blockNumber txIndex tx x
    let (later, x) ← extractInTxs blockNumber txIndex rest x
    .ok (first ++ later, x)

end

def extractTokenTx (x : TxExtractor) (exTx : ExternalTx) : Except Panic TxExtractor :=
  match exTx.inTxs with
  | [root] => do
    let (_, x) ← extractInTxInfo classify exTx.blockNumber exTx.txIndex root x
    .ok x
  | _ => .ok x

end Extraction

/-- Proxies are common, and so are the addresses that occur more than 350 times or in
    more than four fifths of the actions. -/
def isCommon (x : TxExtractor) (addr : Address) : Bool :=
  let count := x.addressCountMap.getD addr 0
  350 < count || 4 * (x.actionInfoList.len : Int) < 5 * count

def updateCommonAddressMap (x : TxExtractor) (order : List Address) : TxExtractor :=
  { x with
    commonAddressMap := order.foldl (fun common addr => if x.isCommon addr then insert addr common else common)
      x.proxyABI }

end TxExtractor

def earlier (blockNumber : Int) : Option Int → Int
  | none => blockNumber
  | some block => if blockNumber < block then blockNumber else block

def updateUserRelatedMap (userRelatedMap : UserRelatedMap) (mainUser relatedUser : Address) (blockNumber : Int) :
    UserRelatedMap :=
  if mainUser = relatedUser then userRelatedMap
  else
    userRelatedMap.upsert mainUser fun related => (related.getD .empty).upsert relatedUser (earlier blockNumber)

namespace UserTokenTxMap

def append (userTokenTxMap : UserTokenTxMap) (user : Address) (tokenTx : TokenTx) : UserTokenTxMap :=
  Map.upsert userTokenTxMap user fun tokenTxMap =>
    (tokenTxMap.getD .empty).upsert tokenTx.tokenAddress fun tokenTxList => tokenTxList.getD [] ++ [tokenTx]

end UserTokenTxMap

namespace ActionInfo

def depositTo (info : ActionInfo) (lpTokenMap : Finset Address) : List Address :=
  info.tokenTxList.filterMap fun tokenTx =>
    if tokenTx.tokenAddress ∈ lpTokenMap ∧ tokenTx.sender = 0 then some tokenTx.toAddr else none

def withdrawFrom (info : ActionInfo) (lpTokenMap : Finset Address) : List Address :=
  info.tokenTxList.filterMap fun tokenTx =>
    if tokenTx.tokenAddress ∈ lpTokenMap ∧ tokenTx.sender ≠ 0 ∧ tokenTx.toAddr = 0 then some tokenTx.sender else none

def tokenTxListWithoutLP (info : ActionInfo) (lpTokenMap : Finset Address) : List TokenTx :=
  (info.tokenTxList.filter fun tokenTx => tokenTx.tokenAddress ∉ lpTokenMap).map fun tokenTx =>
    { tokenTx with blockNumber := info.blockNumber, txIndex := info.txIndex, action := info.action }

end ActionInfo

namespace TxExtractor

variable (x : TxExtractor)

def countToken (token : Address) : Except Panic TxExtractor :=
  match x.relatedToken with
  | none => .error .nilMapWrite
  | some counts => .ok { x with relatedToken := some (counts.upsert token fun count => count.getD 0 + 1) }

def addFlow (user : Address) (tokenTx : TokenTx) (related : List (Address × Address)) :
    Except Panic TxExtractor :=
  { x with
    userTokenTxMap := x.userTokenTxMap.append user tokenTx
    userRelatedMap := related.foldl (fun m (users : Address × Address) =>
      updateUserRelatedMap m users.1 users.2 tokenTx.blockNumber) x.userRelatedMap }.countToken tokenTx.tokenAddress

def extractFlow (depositTo withdrawFrom : List Address) (x : TxExtractor) (tokenTx : TokenTx) :
    Except Panic TxExtractor :=
  match tokenTx.action with
  | .withdraw =>
    if tokenTx.sender ∈ x.commonAddressMap then
      x.addFlow tokenTx.toAddr tokenTx (withdrawFrom.map fun relatedUser => (tokenTx.toAddr, relatedUser))
    else .ok x
  | .deposit =>
    if tokenTx.toAddr ∈ x.commonAddressMap then
      x.addFlow tokenTx.sender tokenTx (depositTo.map fun relatedUser => (relatedUser, tokenTx.sender))
    else .ok x
  | .none => .ok x

def extractActionInfo (info : ActionInfo) : Except Panic TxExtractor :=
  (info.tokenTxListWithoutLP x.lpTokenMap).foldlM
    (extractFlow (info.depositTo x.lpTokenMap) (info.withdrawFrom x.lpTokenMap)) x

inductive TokenKind
  | eth
  | usd
  | btc
  | others
deriving DecidableEq

def tokenKind (token : Address) : TokenKind :=
  match x.stableTokenMap.lookup token with
  | none => .others
  | some stable =>
    if stable.xToken = 1 then .eth else if stable.xToken = 2 then .usd else if stable.xToken = 3 then .btc
    else .others

/-- The counts of `modeMap` that matter: which kinds of tokens there are. -/
def mode : FlowMode :=
  let tokens := (x.relatedToken.getD .empty).keys
  let kinds := tokens.image x.tokenKind
  if kinds = {.eth} then .eth
  else if kinds = {.usd} then .usd
  else if kinds = {.btc} then .btc
  else if kinds = {.others} then if 1 < tokens.card then .mix else .single
  else .mix

def extractActionInfoList (order : List Nat) : Except Panic TxExtractor := do
  let x ← (order.filterMap x.actionInfoList.lookup).foldlM extractActionInfo x
  .ok { x with flowMergeMode := x.mode }

def stakeTokenTx (blockNumber : Int) (x : TxExtractor) (tokenTx : TokenTx) : TxExtractor :=
  if tokenTx.tokenAddress ∈ x.lpTokenMap ∧ tokenTx.sender ≠ 0 ∧ tokenTx.toAddr ≠ 0 then
    { x with userRelatedMap := updateUserRelatedMap x.userRelatedMap tokenTx.toAddr tokenTx.sender blockNumber }
  else x

mutual

def extractInTxForStake (blockNumber : Int) : InternalTx → TxExtractor → Except Panic TxExtractor
  | ⟨_, _, _, _, _, _, events, inTxs⟩, x => do
    let x ← extractInTxsForStake blockNumber inTxs x
    let own ← extractEvents events
    .ok (own.foldl (stakeTokenTx blockNumber) x)

def extractInTxsForStake (blockNumber : Int) : List InternalTx → TxExtractor → Except Panic TxExtractor
  | [], x => .ok x
  | tx :: rest, x => do
    let x ← extractInTxForStake blockNumber tx x
    extractInTxsForStake blockNumber rest x

end

def extractStakeTokenTx (exTx : ExternalTx) : Except Panic TxExtractor :=
  match exTx.inTxs with
  | [root] => extractInTxForStake exTx.blockNumber root x
  | _ => .ok x

end TxExtractor

end IDWDetector.Hunter
