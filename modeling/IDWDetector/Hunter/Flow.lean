import IDWDetector.Hunter.Extractor

namespace IDWDetector.Hunter

structure TokenFlow where
  blockNumber : Int
  txIndex : Int
  amount : ℚ
  action : Action
  totalDeposit : ℚ
  totalWithdraw : ℚ
deriving DecidableEq

abbrev TokenFlowMap := Go.Map Address (List TokenFlow)
abbrev UserTokenFlowMap := Go.Map Address TokenFlowMap

def TokenTx.less (a b : TokenTx) : Bool :=
  if a.blockNumber < b.blockNumber then true
  else if a.blockNumber = b.blockNumber then
    if a.txIndex < b.txIndex then true
    else if a.txIndex = b.txIndex then decide (a.eventIndex < b.eventIndex)
    else false
  else false

def TokenFlow.less (a b : TokenFlow) : Bool := decide (a.blockNumber < b.blockNumber)

/-- The flow of block 0 that every list starts with. -/
def TokenFlow.zero : TokenFlow := ⟨0, 0, 0, .none, 0, 0⟩

/-- The body of the three loops over transfers: `convert` is the amount for the X token,
    if the token is supported. -/
def appendFlow (convert : TokenTx → Option ℚ) (state : ℚ × ℚ × List TokenFlow) (tokenTx : TokenTx) :
    ℚ × ℚ × List TokenFlow :=
  let (totalDeposit, totalWithdraw, flows) := state
  if 0 < tokenTx.amount then
    match convert tokenTx with
    | none => state
    | some amount =>
      let totalDeposit := if tokenTx.action = .deposit then totalDeposit + amount else totalDeposit
      let totalWithdraw := if tokenTx.action = .withdraw then totalWithdraw + amount else totalWithdraw
      (totalDeposit, totalWithdraw,
        flows ++ [⟨tokenTx.blockNumber, tokenTx.txIndex, amount, tokenTx.action, totalDeposit, totalWithdraw⟩])
  else state

def flowList (convert : TokenTx → Option ℚ) (tokenTxList : List TokenTx) : List TokenFlow :=
  (tokenTxList.foldl (appendFlow convert) (0, 0, [.zero])).2.2

/-- `int64(math.Pow(10, exponent))`; a power that does not fit becomes the least `int64`. -/
def pow10 (exponent : Int) : Uint64 :=
  if exponent < 0 then 0 else if exponent ≤ 18 then BitVec.ofNat 64 (10 ^ exponent.toNat) else 0x8000000000000000

/-- The exponent is one of `int`, and the product one of `int64`. -/
def StableToken.rate (stable : StableToken) : Int :=
  (stable.rateToXToken * pow10 ((18 - stable.decimals).bmod (2 ^ 64))).toInt

/-- What each of the three loops over transfers makes of a sorted list. -/
structure Loops (Entry : Type) where
  token : List TokenTx → List Entry
  stable : List TokenTx → List Entry
  merged : List TokenTx → List Entry

namespace TxExtractor

variable (x : TxExtractor)

def amountOf (tokenTx : TokenTx) : Option ℚ := some tokenTx.amount

def stableAmount (tokenTx : TokenTx) : Option ℚ :=
  some (tokenTx.amount * ((x.stableTokenMap.lookup tokenTx.tokenAddress).map StableToken.rate).getD 0)

def weth : Address := 0xc02aaa39b223fe8d0a0e5c4f27ead9083c756cc2
def wbtc : Address := 0x2260fac5e5542a773aa44fbcfedf7c193bc2c599

def swapRate (tokenAddress : Address) (blockNumber : Int) : ℚ :=
  let block := BitVec.ofInt 64 blockNumber / 500 * 500
  ((x.tokenSwapMap.lookup tokenAddress).bind fun swap => swap.rateMap.lookup block).getD 0

def mergedAmount (tokenTx : TokenTx) : Option ℚ :=
  let tokenAddress := tokenTx.tokenAddress
  match x.stableTokenMap.lookup tokenAddress with
  | some stable =>
    if stable.xToken = 2 then some (tokenTx.amount * stable.rate)
    else
      let tokenAddress := if stable.xToken = 1 then weth else if stable.xToken = 3 then wbtc else tokenAddress
      some (tokenTx.amount * x.swapRate tokenAddress tokenTx.blockNumber)
  | none =>
    if (x.tokenSwapMap.lookup tokenAddress).isSome then
      some (tokenTx.amount * x.swapRate tokenAddress tokenTx.blockNumber)
    else none

/-- Stake tokens have no flow, unless they are stable. -/
def hasFlow (tokenAddress : Address) : Bool :=
  (x.stableTokenMap.lookup tokenAddress).isSome || decide (tokenAddress ∉ x.lpTokenMap)

section Generating

-- `order` is the order in which `range` yields the tokens of a user, and `sort` what
-- `sort.Sort` makes of a list.
variable {Entry : Type} (loops : Loops Entry) (sort : List TokenTx → List TokenTx) (tokenTxMap : TokenTxMap)
  (order : List Address)

def tokenFlows : Go.Map Address (List Entry) :=
  order.foldl (fun flows tokenAddress =>
    if x.hasFlow tokenAddress then
      flows.set tokenAddress (loops.token (sort (tokenTxMap.getD tokenAddress [])))
    else flows) .empty

def stableTokenListMap : Go.Map Address (List TokenTx) :=
  order.foldl (fun lists tokenAddress =>
    match x.stableTokenMap.lookup tokenAddress with
    | some stable => lists.upsert stable.xToken fun list => list.getD [] ++ tokenTxMap.getD tokenAddress []
    | none => lists) .empty

def mergedTokenTxList : List TokenTx := order.flatMap fun tokenAddress => tokenTxMap.getD tokenAddress []

def loopFlows : Go.Map Address (List Entry) :=
  let stables := x.stableTokenListMap tokenTxMap order
  let flows := (x.tokenFlows loops sort tokenTxMap order).overwrite stables.keys fun xToken =>
    (stables.lookup xToken).map fun list => loops.stable (sort list)
  flows.set 4 (loops.merged (sort (mergedTokenTxList tokenTxMap order)))

def exactLoops : Loops TokenFlow := ⟨flowList amountOf, flowList x.stableAmount, flowList x.mergedAmount⟩

/-- The lists of a user, if no amount is rounded. -/
def userFlow : TokenFlowMap := x.loopFlows x.exactLoops sort tokenTxMap order

end Generating

def generateUserFlow (sort : List TokenTx → List TokenTx) (order : Address → List Address) : UserTokenFlowMap :=
  x.userTokenTxMap.mapValues fun userAddress tokenTxMap => x.userFlow sort tokenTxMap (order userAddress)

def countUnsupported (counts : Go.Map Address Int) (tokenTx : TokenTx) : Go.Map Address Int :=
  if 0 < tokenTx.amount ∧ (x.mergedAmount tokenTx).isNone then
    counts.upsert tokenTx.tokenAddress fun count => count.getD 0 + 1
  else counts

/-- The second result of `GenerateUserFlow`; `users` is the order in which `range` yields the users. -/
def unSupportToken (sort : List TokenTx → List TokenTx) (order : Address → List Address) (users : List Address) :
    Go.Map Address Int :=
  users.foldl (fun counts userAddress =>
    (sort (mergedTokenTxList (x.userTokenTxMap.getD userAddress .empty) (order userAddress))).foldl x.countUnsupported
      counts) .empty

end TxExtractor

end IDWDetector.Hunter
