import Bhchain.Openswap.Matching
import Bhchain.Openswap.Pool
import Bhchain.Types.Order

/-!
# The swap module's messages and its chain (`x/openswap/handler.go`, `types/msg.go`, `module.go`)

A message is checked statelessly by `ValidateBasic`, then handled; a
message that fails leaves the state as it was. The handlers order the two
tokens of a pair by `SortTokens` (the heavier token first, then the
smaller symbol), so that a pair is always stored and looked up under one
order of its tokens, and pick the referer of a swap: the dex's income
receiver, or for dex `0` the address's bound referer.

The module's chain interleaves transactions, end-blockers and node
restarts, after which the first `BeginBlock` rebuilds the in-memory book
from the store (`Manager.Init`). A panic in an end-blocker or in `Init`
stops the node; no state follows it, and the model keeps the state it
had, which only adds states to the reachable ones.

`MsgClaimEarning`, which reads and writes only the mining masks and the
module account's mining tokens, is handled with `Mining` in
`Openswap.Mining`, on a chain of its own. The `Side` of `MsgLimitSwap` is
an `OrderSide`, so its "invalid order side" check cannot fail.
-/

namespace Openswap

open Sdk Transfer KVStore Transition

/-! ## Messages -/

/-- `MsgCreateDex`. -/
structure MsgCreateDex where
  fromAddr : CUAddress
  name : String
  incomeReceiver : CUAddress

/-- `MsgEditDex`; an empty name is no change. -/
structure MsgEditDex where
  fromAddr : CUAddress
  dexID : ℕ
  name : String
  incomeReceiver : Option CUAddress

/-- `MsgCreateTradingPair`. -/
structure MsgCreateTradingPair where
  fromAddr : CUAddress
  dexID : ℕ
  tokenA : Symbol
  tokenB : Symbol
  isPublic : Bool
  lpRewardRate : Dec
  refererRewardRate : Dec

/-- `MsgEditTradingPair`; a missing field is no change. -/
structure MsgEditTradingPair where
  fromAddr : CUAddress
  dexID : ℕ
  tokenA : Symbol
  tokenB : Symbol
  isPublic : Option Bool
  lpRewardRate : Option Dec
  refererRewardRate : Option Dec

/-- `MsgAddLiquidity`. -/
structure MsgAddLiquidity where
  fromAddr : CUAddress
  dexID : ℕ
  tokenA : Symbol
  tokenB : Symbol
  maxTokenAAmount : ℤ
  maxTokenBAmount : ℤ
  expiredAt : ℤ

/-- `MsgRemoveLiquidity`. -/
structure MsgRemoveLiquidity where
  fromAddr : CUAddress
  dexID : ℕ
  tokenA : Symbol
  tokenB : Symbol
  liquidity : ℤ
  expiredAt : ℤ

/-- `MsgSwapExactIn`. -/
structure MsgSwapExactIn where
  fromAddr : CUAddress
  dexID : ℕ
  referer : CUAddress
  receiver : CUAddress
  amountIn : ℤ
  minAmountOut : ℤ
  swapPath : List Symbol
  expiredAt : ℤ

/-- `MsgSwapExactOut`. -/
structure MsgSwapExactOut where
  fromAddr : CUAddress
  dexID : ℕ
  referer : CUAddress
  receiver : CUAddress
  maxAmountIn : ℤ
  amountOut : ℤ
  swapPath : List Symbol
  expiredAt : ℤ

/-- `MsgLimitSwap`. -/
structure MsgLimitSwap where
  fromAddr : CUAddress
  dexID : ℕ
  orderID : String
  referer : CUAddress
  receiver : CUAddress
  amountIn : ℤ
  price : Dec
  baseSymbol : Symbol
  quoteSymbol : Symbol
  side : OrderSide
  expiredAt : ℤ

/-- `MsgCancelLimitSwap`. -/
structure MsgCancelLimitSwap where
  fromAddr : CUAddress
  orderIDs : List String

/-- The messages of the module. -/
inductive Msg where
  | createDex (msg : MsgCreateDex)
  | editDex (msg : MsgEditDex)
  | createTradingPair (msg : MsgCreateTradingPair)
  | editTradingPair (msg : MsgEditTradingPair)
  | addLiquidity (msg : MsgAddLiquidity)
  | removeLiquidity (msg : MsgRemoveLiquidity)
  | swapExactIn (msg : MsgSwapExactIn)
  | swapExactOut (msg : MsgSwapExactOut)
  | limitSwap (msg : MsgLimitSwap)
  | cancelLimitSwap (msg : MsgCancelLimitSwap)

variable (env : Env)

/-! ## `ValidateBasic` -/

/-- `maxDexNameLength`. -/
def maxDexNameLength : ℕ := 32

/-- A rate outside `[0, 1)`. -/
def rateOutOfRange (rate : Dec) : Bool := rate.isNegative || rate.gte Dec.one

/-- The two rate checks of the pair messages (with the error code
`ErrInvalidAddr` that the source gives them). -/
def checkRates (lpRewardRate refererRewardRate : Option Dec) : Except Failure Unit := do
  failIf ((lpRewardRate.map rateOutOfRange).getD false)
    (errInvalidAddr "lp reward rate must be between 0-1")
  failIf ((refererRewardRate.map rateOutOfRange).getD false)
    (errInvalidAddr "referer reward rate must be between 0-1")

/-- The token checks of the pair and liquidity messages. -/
def checkTokenPair (tokenA tokenB : Symbol) : Except Failure Unit := do
  failIf (!env.isValidSymbol tokenA || !env.isValidSymbol tokenB) (errInvalidSymbol "invalid token symbol")
  failIf (tokenA = tokenB) (errInvalidSymbol "token a and token b cannot be equal")

/-- The loop over a swap path: every symbol valid, no two neighbours equal. -/
def checkSwapPath : Option Symbol → List Symbol → Except Failure Unit
  | _, [] => pure ()
  | prev, token :: path => do
    failIf (!env.isValidSymbol token) (errInvalidSymbol "invalid symbol")
    failIf (prev = some token) (errInvalidSymbol "swap tokens are same")
    checkSwapPath (some token) path

/-- The address and path checks shared by the two swap messages. -/
def checkSwap (fromAddr referer receiver : CUAddress) (swapPath : List Symbol) :
    Except Failure Unit := do
  failIf (!env.isValidAddr fromAddr) (errInvalidAddr "from address: %s is invalid")
  failIf (!env.isValidAddr referer) (errInvalidAddr "referer address: %s is invalid")
  failIf (!env.isValidAddr receiver) (errInvalidAddr "receiver address: %s is invalid")
  failIf (swapPath.length < 2) (errInvalidSymbol "length of path should be larger than 2")
  checkSwapPath env none swapPath

/-- **`ValidateBasic`** of every message. -/
def Msg.validateBasic : Msg → Except Failure Unit
  | .createDex msg => do
    failIf (!env.isValidAddr msg.fromAddr) (errInvalidAddr "from address: %s is invalid")
    failIf (!env.isValidAddr msg.incomeReceiver) (errInvalidAddr "income receiver address: %s is invalid")
    failIf (msg.name = "" ∨ maxDexNameLength < msg.name.utf8ByteSize) (errInvalidTx "invalid dex name")
  | .editDex msg => do
    failIf (!env.isValidAddr msg.fromAddr) (errInvalidAddr "from address: %s is invalid")
    failIf ((msg.incomeReceiver.map (fun a => !env.isValidAddr a)).getD false)
      (errInvalidAddr "income receiver address: %s is invalid")
    failIf (maxDexNameLength < msg.name.utf8ByteSize) (errInvalidTx "invalid dex name")
  | .createTradingPair msg => do
    failIf (!env.isValidAddr msg.fromAddr) (errInvalidAddr "from address: %s is invalid")
    failIf (msg.dexID = 0) (errInvalidTx "dex id must be larger than 0")
    checkTokenPair env msg.tokenA msg.tokenB
    checkRates (some msg.lpRewardRate) (some msg.refererRewardRate)
  | .editTradingPair msg => do
    failIf (!env.isValidAddr msg.fromAddr) (errInvalidAddr "from address: %s is invalid")
    failIf (msg.dexID = 0) (errInvalidTx "dex id must be larger than 0")
    checkTokenPair env msg.tokenA msg.tokenB
    checkRates msg.lpRewardRate msg.refererRewardRate
  | .addLiquidity msg => do
    failIf (!env.isValidAddr msg.fromAddr) (errInvalidAddr "from address: %s is invalid")
    checkTokenPair env msg.tokenA msg.tokenB
    failIf (msg.maxTokenAAmount ≤ 0 ∨ msg.maxTokenBAmount ≤ 0)
      (errInvalidAmount "token amount should be positive")
  | .removeLiquidity msg => do
    failIf (!env.isValidAddr msg.fromAddr) (errInvalidAddr "From address: %s is invalid")
    checkTokenPair env msg.tokenA msg.tokenB
    failIf (msg.liquidity ≤ 0) (errInvalidAmount "liquidity should be positive")
  | .swapExactIn msg => do
    checkSwap env msg.fromAddr msg.referer msg.receiver msg.swapPath
    failIf (msg.amountIn ≤ 0 ∨ msg.minAmountOut ≤ 0) (errInvalidAmount "token amount should be positive")
  | .swapExactOut msg => do
    checkSwap env msg.fromAddr msg.referer msg.receiver msg.swapPath
    failIf (msg.maxAmountIn ≤ 0 ∨ msg.amountOut ≤ 0) (errInvalidAmount "token amount should be positive")
  | .limitSwap msg => do
    failIf (!env.isValidAddr msg.fromAddr) (errInvalidAddr "from address: %s is invalid")
    failIf (env.isIllegalOrderID msg.orderID) (errInvalidTx "Order id %s is invalid")
    failIf (!env.isValidAddr msg.referer) (errInvalidAddr "referer address: %s is invalid")
    failIf (!env.isValidAddr msg.receiver) (errInvalidAddr "receiver address: %s is invalid")
    failIf (!env.isValidSymbol msg.baseSymbol) (errInvalidSymbol "invalid base symbol")
    failIf (!env.isValidSymbol msg.quoteSymbol) (errInvalidSymbol "invalid quote symbol")
    failIf (msg.amountIn ≤ 0) (errInvalidAmount "token amount should be positive")
    failIf (msg.price.val ≤ 0) (errInvalidAmount "price should be positive")
  | .cancelLimitSwap msg => do
    failIf (!env.isValidAddr msg.fromAddr) (errInvalidAddr "from address: %s is invalid")
    failIf (msg.orderIDs = []) (errInvalidTx "empty order id list")
    failIf (isIllegalOrderIDList env.isIllegalOrderID [] msg.orderIDs) (errInvalidTx "invalid order id list")

/-! ## The handlers -/

/-- **`CheckSymbol`**: a known token that can be sent. -/
def checkSymbol (symbol : Symbol) : Except Failure TokenInfo := do
  let token ← orFail (env.getToken symbol) (errUnSupportToken "token %s does not exist")
  failIf (!token.sendEnabled) (errUnSupportToken "token %s is not enable to send")
  pure token

/-- **`SortTokens`**: the heavier token first; of two of equal weight, the
smaller symbol first. -/
def sortTokens (symbolA symbolB : Symbol) : Except Failure (Symbol × Symbol) := do
  let tokenA ← checkSymbol env symbolA
  let tokenB ← checkSymbol env symbolB
  if tokenA.weight = tokenB.weight then
    pure (if symbolB < symbolA then (symbolB, symbolA) else (symbolA, symbolB))
  else if tokenA.weight < tokenB.weight then pure (symbolB, symbolA)
  else pure (symbolA, symbolB)

/-- `SaveDex`: a dex of ID `0` gets the next ID (`incDexID`). -/
def State.saveDex (s : State) (dex : Dex) : Dex × State :=
  let (dex, s) := if dex.id = 0 then ({ dex with id := s.dexID + 1 }, { s with dexID := s.dexID + 1 })
    else (dex, s)
  (dex, { s with dexes := Function.update s.dexes dex.id (some dex) })

/-- The dex of a message, owned by its sender. -/
def ownedDex (s : State) (dexID : ℕ) (fromAddr : CUAddress) : Except Failure Dex := do
  let dex ← orFail (s.dexes dexID) (errInvalidTx "dex id %d not found")
  failIf (dex.owner ≠ fromAddr) (errInvalidTx "dex %d belongs to %s, not %s")
  pure dex

/-- The rate checks of creating and editing a pair: a public pair's
referer rate at least the module's, and its fees within `MaxFeeRate`, a
public pair's lp rate being the module's. -/
def checkPairRates (isPublic : Bool) (lpRewardRate refererRewardRate : Dec) :
    Except Failure Unit := do
  failIf (isPublic ∧ refererRewardRate.lt env.refererTransactionBonusRate)
    (errInvalidTx "public pair's referer reward rate must be larger than %s")
  let lpRewardRate := if isPublic then env.lpRewardRate else lpRewardRate
  failIf (((lpRewardRate.add refererRewardRate).add env.repurchaseRate).gt env.maxFeeRate)
    (errInvalidTx "sum of lp reward rate and referer reward rate is too large")

/-- The referer of a swap: the dex's income receiver, or for dex `0` the
address's bound referer, binding the message's one if there is none. -/
def swapReferer (s : State) (dexID : ℕ) (fromAddr referer : CUAddress) :
    Except Failure (CUAddress × State) :=
  if dexID ≠ 0 then do
    let dex ← orFail (s.dexes dexID) (errInvalidTx "dex id %d not found")
    pure (dex.incomeReceiver, s)
  else match s.getReferer fromAddr with
    | some referer => pure (referer, s)
    | none => pure (referer, s.bindReferer fromAddr referer)

/-- The expiry check of the transaction messages. -/
def checkExpiredAt (blockTime expiredAt : ℤ) : Except Failure Unit :=
  failIf (0 < expiredAt ∧ expiredAt ≤ blockTime) (errInvalidTx "expired tx")

/-- **`handleMsgCreateTradingPair`**. -/
def handleMsgCreateTradingPair (s : State) (msg : MsgCreateTradingPair) : Except Failure State := do
  let _ ← ownedDex s msg.dexID msg.fromAddr
  let (tokenA, tokenB) ← sortTokens env msg.tokenA msg.tokenB
  failIf (s.getTradingPair msg.dexID tokenA tokenB).isSome
    (errInvalidTx "%s-%s trading pair already exists in dex %d")
  checkPairRates env msg.isPublic msg.lpRewardRate msg.refererRewardRate
  pure (s.saveTradingPair (TradingPair.newCustom msg.dexID tokenA tokenB msg.isPublic
    msg.lpRewardRate msg.refererRewardRate))

/-- **`handleMsgEditTradingPair`**. Whether the pair is public may change
only while it has no liquidity, or when it is public. -/
def handleMsgEditTradingPair (s : State) (msg : MsgEditTradingPair) : Except Failure State := do
  let _ ← ownedDex s msg.dexID msg.fromAddr
  let (tokenA, tokenB) ← sortTokens env msg.tokenA msg.tokenB
  let pair ← orFail (s.getTradingPair msg.dexID tokenA tokenB)
    (errInvalidTx "%s-%s trading pair does not exist in dex %d")
  let pair ← (match msg.isPublic with
    | none => pure pair
    | some isPublic => do
      failIf (!pair.isPublic ∧ 0 < pair.totalLiquidity)
        (errInvalidTx "cannot set pair public after adding liquidity")
      pure { pair with isPublic := isPublic })
  let pair := { pair with lpRewardRate := msg.lpRewardRate.getD pair.lpRewardRate,
                          refererRewardRate := msg.refererRewardRate.getD pair.refererRewardRate }
  checkPairRates env pair.isPublic pair.lpRewardRate pair.refererRewardRate
  pure (s.saveTradingPair pair)

/-- **`handleMsgAddLiquidity`**: the amounts follow the tokens into their
sorted order. -/
def handleMsgAddLiquidity (s : State) (blockTime : ℤ) (msg : MsgAddLiquidity) :
    Except Failure State := do
  let (tokenA, tokenB) ← sortTokens env msg.tokenA msg.tokenB
  checkExpiredAt blockTime msg.expiredAt
  let (maxTokenAAmount, maxTokenBAmount) := if tokenA ≠ msg.tokenA
    then (msg.maxTokenBAmount, msg.maxTokenAAmount) else (msg.maxTokenAAmount, msg.maxTokenBAmount)
  addLiquidity env s msg.fromAddr msg.dexID tokenA tokenB maxTokenAAmount maxTokenBAmount

/-- **`handleMsgRemoveLiquidity`**. -/
def handleMsgRemoveLiquidity (s : State) (blockTime : ℤ) (msg : MsgRemoveLiquidity) :
    Except Failure State := do
  let (tokenA, tokenB) ← sortTokens env msg.tokenA msg.tokenB
  checkExpiredAt blockTime msg.expiredAt
  removeLiquidity s msg.fromAddr msg.dexID tokenA tokenB msg.liquidity

/-- **`handleMsgSwapExactIn`**. -/
def handleMsgSwapExactIn (s : State) (blockTime : ℤ) (msg : MsgSwapExactIn) :
    Except Failure State := do
  let _ ← msg.swapPath.mapM (checkSymbol env)
  checkExpiredAt blockTime msg.expiredAt
  let (referer, s) ← swapReferer s msg.dexID msg.fromAddr msg.referer
  swapExactIn env s msg.dexID msg.fromAddr referer msg.receiver msg.amountIn msg.minAmountOut
    msg.swapPath

/-- **`handleMsgSwapExactOut`**. -/
def handleMsgSwapExactOut (s : State) (blockTime : ℤ) (msg : MsgSwapExactOut) :
    Except Failure State := do
  let _ ← msg.swapPath.mapM (checkSymbol env)
  checkExpiredAt blockTime msg.expiredAt
  let (referer, s) ← swapReferer s msg.dexID msg.fromAddr msg.referer
  swapExactOut env s msg.dexID msg.fromAddr referer msg.receiver msg.amountOut msg.maxAmountIn
    msg.swapPath

/-- **`handleMsgLimitSwap`**: the symbols must come in sorted order. -/
def handleMsgLimitSwap (s : State) (blockTime : ℤ) (msg : MsgLimitSwap) : Except Failure State := do
  let (tokenA, tokenB) ← sortTokens env msg.baseSymbol msg.quoteSymbol
  failIf (tokenA ≠ msg.baseSymbol ∨ tokenB ≠ msg.quoteSymbol) (errInvalidSymbol "wrong symbol sequence")
  checkExpiredAt blockTime msg.expiredAt
  failIf (s.getOrder msg.orderID).isSome (errInvalidTx "order %s already exists")
  let (referer, s) ← swapReferer s msg.dexID msg.fromAddr msg.referer
  limitSwapTx env s blockTime msg.dexID msg.orderID msg.fromAddr referer msg.receiver msg.amountIn
    msg.price msg.baseSymbol msg.quoteSymbol msg.side msg.expiredAt

/-- **The handler** (`NewHandler`). -/
def handle (s : State) (blockTime : ℤ) : Msg → Except Failure State
  | .createDex msg =>
    pure (s.saveDex ⟨0, msg.name, msg.fromAddr, msg.incomeReceiver⟩).2
  | .editDex msg => do
    let dex ← ownedDex s msg.dexID msg.fromAddr
    let dex := { dex with name := if msg.name ≠ "" then msg.name else dex.name,
                          incomeReceiver := msg.incomeReceiver.getD dex.incomeReceiver }
    pure (s.saveDex dex).2
  | .createTradingPair msg => handleMsgCreateTradingPair env s msg
  | .editTradingPair msg => handleMsgEditTradingPair env s msg
  | .addLiquidity msg => handleMsgAddLiquidity env s blockTime msg
  | .removeLiquidity msg => handleMsgRemoveLiquidity env s blockTime msg
  | .swapExactIn msg => handleMsgSwapExactIn env s blockTime msg
  | .swapExactOut msg => handleMsgSwapExactOut env s blockTime msg
  | .limitSwap msg => handleMsgLimitSwap env s blockTime msg
  | .cancelLimitSwap msg => cancelOrders s blockTime msg.fromAddr msg.orderIDs

/-- A transaction of one message: `ValidateBasic`, then the handler. -/
def deliverTx (blockTime : ℤ) (msg : Msg) (s : State) : Except Failure State := do
  msg.validateBasic env
  handle env s blockTime msg

/-! ## The chain -/

/-- What happens to the module: a transaction at a block time, the end of
a block, or a restart of the node, whose first `BeginBlock` rebuilds the
book from the store. -/
inductive Event where
  | tx (blockTime : ℤ) (msg : Msg)
  | endBlock (height blockTime : ℤ)
  | restart

/-- The restart: the book that `Manager.Init` builds. -/
def restartNode (s : State) : Except Failure State := do
  let mgr ← managerInit env s
  pure { s with manager := mgr }

/-- **One event of the chain.** A failed transaction is rolled back; a
panic of an end-blocker or of `Init` keeps the state (section doc). -/
def step (s : State) : Event → State
  | .tx blockTime msg => commit (deliverTx env blockTime msg) s
  | .endBlock height blockTime => commit (endBlock env height blockTime) s
  | .restart => commit (restartNode env) s

/-- The state of an empty store over some balances. -/
def State.init (trk : Balances) : State where
  pairs := fun _ => none
  orders := .empty
  unfinished := .empty
  waitToInsert := []
  waitToRemove := []
  liquidity := fun _ => .empty
  totalShare := fun _ => Dec.zero
  globalMask := fun _ => Dec.zero
  addrMask := fun _ => Dec.zero
  repurchaseFunds := .empty
  referers := fun _ => none
  dexes := fun _ => none
  dexID := 0
  trk := trk
  manager := .empty

end Openswap
