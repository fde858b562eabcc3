import Bhchain.Openswap.Orderbook
import Bhchain.Lib.Transition

/-!
# The swap keeper (`x/openswap/keeper/keeper.go`, `order.go`, `util.go`)

The state of the module is its store and the in-memory order book. The
store keeps the trading pairs, the limit orders and the index of the
unfinished ones, two lists of order IDs waiting to enter and to leave the
book at the next end of block, the liquidity shares of each address in
each pair and their total for mining, the repurchase funds, the referers
and the dexes. The balances are the transfer keeper's.

A transaction that fails leaves the store as it was; the order book is
not in the store, and no transaction writes it.

Every swap, whether asked for directly, filled from a limit order or made
to repurchase, goes through `swap`: the fees are cut from the input, the
rest enters the pair and the constant-product formula, truncated, gives
the output. The lp reward stays in the pair's reserve. Calls whose error
the keeper discards (`_ = ...`) are modelled by `orKeep`: their writes,
or nothing when they fail.

A change of an address's liquidity also moves the mining accounts of
its pair (`onUpdateLiquidity`): the total share, and the address's mask,
which `Mining` reads.

Left out: the receipts, flows and events; the gas consumed; the panics of
`NewCoin` on a negative amount or an invalid symbol, which the modelled
calls reach only with positive amounts of pair tokens.
-/

namespace Openswap

open Sdk Transfer KVStore Transition
open OrderKeeper (Bytes bytesOf)

/-- **The state of the swap module.** -/
structure State where
  pairs : PairKey → Option TradingPair
  orders : Store String Order
  /-- `UnfinishedOrderKey`s, by order ID -/
  unfinished : Store String Unit
  waitToInsert : List String
  waitToRemove : List String
  /-- `LiquidityKey`s: the liquidity of each address, by pair -/
  liquidity : PairKey → Store CUAddress ℤ
  totalShare : PairKey → Dec
  /-- `GlobalMaskKey`s: the mining token one unit of liquidity has earned, by pair -/
  globalMask : PairKey → Dec
  /-- `AddrMaskKey`s: what an address's liquidity of a pair does not earn -/
  addrMask : CUAddress × PairKey → Dec
  repurchaseFunds : Store Symbol ℤ
  referers : CUAddress → Option CUAddress
  dexes : ℕ → Option Dex
  dexID : ℕ
  trk : Balances
  manager : Manager

/-- A call whose error the keeper discards: its writes, or none. -/
def orKeep (r : Except Failure Balances) (b : Balances) : Balances :=
  match r with
  | .ok b' => b'
  | .error _ => b

/-- `mulAndDiv`: `a · b / c`, truncated toward zero. -/
def mulAndDiv (a b c : ℤ) : ℤ := (a * b).tdiv c

variable (env : Env)

namespace State

/-! ## The store -/

/-- **`GetTradingPair`**: the pair under the two tokens in either order. -/
def getTradingPair (s : State) (dexID : ℕ) (tokenA tokenB : Symbol) : Option TradingPair :=
  (s.pairs (dexID, tokenA, tokenB)).or (s.pairs (dexID, tokenB, tokenA))

/-- `SaveTradingPair`. -/
def saveTradingPair (s : State) (pair : TradingPair) : State :=
  { s with pairs := Function.update s.pairs pair.key (some pair) }

/-- `GetOrder`. -/
def getOrder (s : State) (orderID : String) : Option Order := s.orders.get orderID

/-- `GetOrder` of an ID read off a store key, as bytes: the store keys an
order by the bytes of its ID (`OrderKey`), so this is the order whose ID
has those bytes. -/
def getOrderOfBytes (s : State) (orderID : Bytes) : Option Order :=
  (s.orders.entries.find? fun e => bytesOf e.1 = orderID).map Prod.snd

/-- `saveOrder`. -/
def saveOrder (s : State) (order : Order) : State :=
  { s with orders := s.orders.set order.orderID order }

/-- `addUnfinishedOrder`: index the order and queue it for the book. -/
def addUnfinishedOrder (s : State) (order : Order) : State :=
  { s with unfinished := s.unfinished.set order.orderID (),
           waitToInsert := s.waitToInsert ++ [order.orderID] }

/-- `delUnfinishedOrder`. -/
def delUnfinishedOrder (s : State) (order : Order) : State :=
  { s with unfinished := s.unfinished.delete order.orderID }

/-- `addWaitToRemoveFromMatchingOrderID`. -/
def addWaitToRemoveFromMatchingOrderID (s : State) (ids : List String) : State :=
  { s with waitToRemove := s.waitToRemove ++ ids }

/-- `GetLiquidity`. -/
def getLiquidity (s : State) (addr : CUAddress) (dexID : ℕ) (tokenA tokenB : Symbol) : ℤ :=
  ((s.liquidity (dexID, tokenA, tokenB)).get addr).getD 0

/-- `saveLiquidity`. -/
def saveLiquidity (s : State) (addr : CUAddress) (dexID : ℕ) (tokenA tokenB : Symbol)
    (liquidity : ℤ) : State :=
  let key : PairKey := (dexID, tokenA, tokenB)
  { s with liquidity := Function.update s.liquidity key ((s.liquidity key).set addr liquidity) }

/-- `getRepurchaseFund`. -/
def getRepurchaseFund (s : State) (symbol : Symbol) : ℤ := (s.repurchaseFunds.get symbol).getD 0

/-- `addRepurchaseFunds`, coin by coin. -/
def addRepurchaseFunds (s : State) (coins : Coins) : State :=
  coins.foldl (fun s coin =>
    { s with repurchaseFunds := s.repurchaseFunds.set coin.1 (coin.2 + s.getRepurchaseFund coin.1) })
    s

/-- `GetReferer`. -/
def getReferer (s : State) (addr : CUAddress) : Option CUAddress := s.referers addr

/-- `BindReferer`: nothing for a referer equal to the address. -/
def bindReferer (s : State) (addr referer : CUAddress) : State :=
  if referer = addr then s else { s with referers := Function.update s.referers addr (some referer) }

/-- **`onUpdateLiquidity`**: the total share kept for mining follows every
change of an address's liquidity; once the pair has mined, the address's
mask grows by what the change would have earned so far. -/
def onUpdateLiquidity (s : State) (addr : CUAddress) (dexID : ℕ) (tokenA tokenB : Symbol)
    (liquidity : ℤ) : State :=
  let key : PairKey := (dexID, tokenA, tokenB)
  let globalMask := s.globalMask key
  { s with
    totalShare := Function.update s.totalShare key ((s.totalShare key).add (Dec.ofInt liquidity))
    addrMask := if globalMask.isPositive then
        Function.update s.addrMask (addr, key)
          ((s.addrMask (addr, key)).add (globalMask.mul (Dec.ofInt liquidity)))
      else s.addrMask }

@[simp] theorem pairs_saveTradingPair (s : State) (pair : TradingPair) :
    (s.saveTradingPair pair).pairs = Function.update s.pairs pair.key (some pair) := rfl

@[simp] theorem liquidity_saveTradingPair (s : State) (pair : TradingPair) :
    (s.saveTradingPair pair).liquidity = s.liquidity := rfl

@[simp] theorem totalShare_saveTradingPair (s : State) (pair : TradingPair) :
    (s.saveTradingPair pair).totalShare = s.totalShare := rfl

@[simp] theorem globalMask_saveTradingPair (s : State) (pair : TradingPair) :
    (s.saveTradingPair pair).globalMask = s.globalMask := rfl

@[simp] theorem addrMask_saveTradingPair (s : State) (pair : TradingPair) :
    (s.saveTradingPair pair).addrMask = s.addrMask := rfl

@[simp] theorem globalMask_saveLiquidity (s : State) (addr : CUAddress) (dexID : ℕ) (a b : Symbol)
    (v : ℤ) : (s.saveLiquidity addr dexID a b v).globalMask = s.globalMask := rfl

@[simp] theorem addrMask_saveLiquidity (s : State) (addr : CUAddress) (dexID : ℕ) (a b : Symbol)
    (v : ℤ) : (s.saveLiquidity addr dexID a b v).addrMask = s.addrMask := rfl

@[simp] theorem liquidity_onUpdateLiquidity (s : State) (addr : CUAddress) (dexID : ℕ) (a b : Symbol)
    (δ : ℤ) : (s.onUpdateLiquidity addr dexID a b δ).liquidity = s.liquidity := rfl

@[simp] theorem globalMask_onUpdateLiquidity (s : State) (addr : CUAddress) (dexID : ℕ)
    (a b : Symbol) (δ : ℤ) : (s.onUpdateLiquidity addr dexID a b δ).globalMask = s.globalMask := rfl

theorem addrMask_onUpdateLiquidity (s : State) (addr : CUAddress) (dexID : ℕ) (a b : Symbol)
    (δ : ℤ) : (s.onUpdateLiquidity addr dexID a b δ).addrMask =
      if (s.globalMask (dexID, a, b)).isPositive then
        Function.update s.addrMask (addr, (dexID, a, b))
          ((s.addrMask (addr, (dexID, a, b))).add ((s.globalMask (dexID, a, b)).mul (Dec.ofInt δ)))
      else s.addrMask := rfl

@[simp] theorem pairs_saveOrder (s : State) (order : Order) : (s.saveOrder order).pairs = s.pairs :=
  rfl

@[simp] theorem trk_saveOrder (s : State) (order : Order) : (s.saveOrder order).trk = s.trk := rfl

@[simp] theorem manager_saveOrder (s : State) (order : Order) :
    (s.saveOrder order).manager = s.manager := rfl

@[simp] theorem liquidity_saveOrder (s : State) (order : Order) :
    (s.saveOrder order).liquidity = s.liquidity := rfl

@[simp] theorem totalShare_saveOrder (s : State) (order : Order) :
    (s.saveOrder order).totalShare = s.totalShare := rfl

@[simp] theorem pairs_delUnfinishedOrder (s : State) (order : Order) :
    (s.delUnfinishedOrder order).pairs = s.pairs := rfl

/-- `addRepurchaseFunds` writes the repurchase funds and nothing else. -/
theorem addRepurchaseFunds_eq (s : State) (coins : Coins) :
    s.addRepurchaseFunds coins =
      { s with repurchaseFunds := (s.addRepurchaseFunds coins).repurchaseFunds } := by
  unfold addRepurchaseFunds
  induction coins generalizing s with
  | nil => rfl
  | cons coin coins ih => exact ih _

@[simp] theorem pairs_addRepurchaseFunds (s : State) (coins : Coins) :
    (s.addRepurchaseFunds coins).pairs = s.pairs := by
  rw [addRepurchaseFunds_eq]

@[simp] theorem liquidity_addRepurchaseFunds (s : State) (coins : Coins) :
    (s.addRepurchaseFunds coins).liquidity = s.liquidity := by
  rw [addRepurchaseFunds_eq]

@[simp] theorem totalShare_addRepurchaseFunds (s : State) (coins : Coins) :
    (s.addRepurchaseFunds coins).totalShare = s.totalShare := by
  rw [addRepurchaseFunds_eq]

/-- An order read by the bytes of an ID is stored under an ID with those
bytes. -/
theorem getOrder_of_getOrderOfBytes {s : State} {orderID : Bytes} {order : Order}
    (h : s.getOrderOfBytes orderID = some order) :
    ∃ id, bytesOf id = orderID ∧ s.getOrder id = some order := by
  obtain ⟨e, he, rfl⟩ := Option.map_eq_some_iff.mp h
  exact ⟨e.1, by simpa using List.find?_some he, Store.mem_iff_get.mp (List.mem_of_find?_eq_some he)⟩

/-- Reading by the bytes of an ID is reading by the ID. -/
theorem getOrderOfBytes_bytesOf (s : State) (orderID : String) :
    s.getOrderOfBytes (bytesOf orderID) = s.getOrder orderID := by
  simp only [getOrderOfBytes, getOrder, Store.get, KVStore.get_eq_find, OrderKeeper.bytesOf_inj]

end State

/-! ## The unfinished orders -/

/-- **`IteratorAllUnfinishedOrder`**: each key of the unfinished index is
decoded back to an order ID (`GetOrderIDFromUnfinishedOrderKey`, which
panics on a key that does not split in two at its `:`), and the order of
that ID, read from the store, is given to `f`. An ID with no order is
dereferenced. -/
def iteratorAllUnfinishedOrder {β : Type} (s : State) (f : β → Order → β) (init : β) :
    Except Failure β :=
  s.unfinished.entries.foldlM (fun b e => do
    -- the index lists order IDs; the key that `addUnfinishedOrder` wrote for
    -- one is that of the order stored under it, whose owner, dex, pair and ID
    -- never change
    let indexed ← orFail (s.getOrder e.1) nilPointerDereference
    let orderID ← getOrderIDFromUnfinishedOrderKey (unfinishedOrderKey env.addrBytes indexed)
    let order ← orFail (s.getOrderOfBytes orderID) nilPointerDereference
    pure (f b order)) init

/-- **What the iteration keeps**: a property of the accumulator that `f`
keeps for every stored order. -/
theorem iteratorAllUnfinishedOrder_invariant {β : Type} {P : β → Prop} {s : State}
    {f : β → Order → β} (hf : ∀ b id order, P b → s.getOrder id = some order → P (f b order))
    {init b : β} (hinit : P init) (h : iteratorAllUnfinishedOrder env s f init = .ok b) : P b := by
  refine foldlM_invariant (fun b e b' hb hstep => ?_) _ hinit h
  simp only [bind_eq_ok, orFail_eq_ok, pure_eq_ok] at hstep
  -- `f` gets the order of the decoded ID, a stored one
  obtain ⟨-, -, orderID, -, order, hget, rfl⟩ := hstep
  obtain ⟨id, -, hget⟩ := State.getOrder_of_getOrderOfBytes hget
  exact hf b id order hb hget

/-! ## Fees and the swap -/

/-- **`getFeeRates`**: dex `0` takes the module's rates; a public pair of
another dex the module's lp and repurchase rates and its own referer rate;
a private pair its own lp and referer rates. -/
def getFeeRates (pair : TradingPair) : FeeRate :=
  if pair.dexID = 0 then ⟨env.lpRewardRate, env.repurchaseRate, env.refererTransactionBonusRate⟩
  else if pair.isPublic then ⟨env.lpRewardRate, env.repurchaseRate, pair.refererRewardRate⟩
  else ⟨pair.lpRewardRate, env.repurchaseRate, pair.refererRewardRate⟩

/-- `canRepurchase`: there is a repurchase token and a dex-0 pair that
buys it with the input token. -/
def canRepurchase (s : State) (tokenIn : Symbol) : Bool :=
  if env.repurchaseToken = "" then false
  else if tokenIn = env.repurchaseToken then true
  else (s.getTradingPair 0 tokenIn env.repurchaseToken).isSome

/-- The fees of a swap: the lp reward, the referer bonus and the
repurchase fund, each the truncated product of the input and its rate.
A repurchase fund that cannot be used goes to the lp reward, and a
repurchasing swap pays none. -/
def swapFees (s : State) (feeRate : FeeRate) (tokenIn : Symbol) (amountIn : ℤ)
    (isRepurchasing : Bool) : ℤ × ℤ × ℤ :=
  if isRepurchasing then (0, 0, 0)
  else
    let amountInDec := Dec.ofInt amountIn
    let lpReward := (amountInDec.mul feeRate.lpRewardRate).truncateInt
    let repurchaseFund := (amountInDec.mul feeRate.repurchaseRate).truncateInt
    let refererBonus := (amountInDec.mul feeRate.refererRewardRate).truncateInt
    if !canRepurchase env s tokenIn then (lpReward + repurchaseFund, refererBonus, 0)
    else (lpReward, refererBonus, repurchaseFund)

/-- The constant-product step of `swap`: the output for `realAmountIn` of
`tokenIn`, and the pair with the input and the lp reward added to one
reserve and the output taken from the other. -/
def swapPair (pair : TradingPair) (tokenIn : Symbol) (realAmountIn lpReward : ℤ) :
    ℤ × TradingPair :=
  if pair.tokenA = tokenIn then
    let amountOut := mulAndDiv realAmountIn pair.tokenBAmount (realAmountIn + pair.tokenAAmount)
    (amountOut, { pair with tokenAAmount := pair.tokenAAmount + realAmountIn + lpReward,
                            tokenBAmount := pair.tokenBAmount - amountOut })
  else
    let amountOut := mulAndDiv realAmountIn pair.tokenAAmount (realAmountIn + pair.tokenBAmount)
    (amountOut, { pair with tokenBAmount := pair.tokenBAmount + realAmountIn + lpReward,
                            tokenAAmount := pair.tokenAAmount - amountOut })

/-- What `swap` returns besides the state. -/
structure SwapResult where
  amountOut : ℤ
  refererBonus : ℤ
  repurchaseFund : ℤ
  pair : TradingPair

/-- **`Keeper.swap`**: cut the fees, apply the constant-product step,
save the pair. -/
def swap (s : State) (feeRate : FeeRate) (pair : TradingPair) (tokenIn : Symbol) (amountIn : ℤ)
    (isRepurchasing : Bool) : SwapResult × State :=
  let (lpReward, refererBonus, repurchaseFund) := swapFees env s feeRate tokenIn amountIn isRepurchasing
  let realAmountIn := amountIn - lpReward - refererBonus - repurchaseFund
  let (amountOut, pair) := swapPair pair tokenIn realAmountIn lpReward
  (⟨amountOut, refererBonus, repurchaseFund, pair⟩, s.saveTradingPair pair)

/-! ## Limit orders -/

/-- **`calLimitSwapAmount`**: how much of the pair's input token the order
may swap before the pair's price reaches the order's, and whether the
order's price is on the right side of the pair's. A sell order divides by
its price, which panics at a zero price. -/
def calLimitSwapAmount (order : Order) (pair : TradingPair) : Except Failure (ℤ × Bool) :=
  if pair.tokenAAmount ≤ 0 ∨ pair.tokenBAmount ≤ 0 then pure (0, false)
  else do
    let curPrice := pair.price
    let (amount, priceSuitable) ← (
      if order.side = .buy ∧ order.price.gt curPrice then
        pure (((Dec.ofInt pair.tokenAAmount).mul order.price).truncateInt - pair.tokenBAmount, true)
      else if order.side = .sell ∧ order.price.lt curPrice then do
        let q ← (Dec.ofInt pair.tokenBAmount).quo order.price
        pure (q.truncateInt - pair.tokenAAmount, true)
      else pure (0, false))
    pure (if 0 < amount then (amount, priceSuitable) else (0, priceSuitable))

/-- `getOrderLockedCoin`: a sell order locks the base token, a buy order
the quote token. -/
def getOrderLockedCoin (order : Order) : Coin :=
  match order.side with
  | .buy => (order.quoteSymbol, order.lockedFund)
  | .sell => (order.baseSymbol, order.lockedFund)

/-- What `limitSwap` returns besides the state: the order as it mutated
it, the input of the swap event (none when it returned early), the pair
and whether the price suited. -/
structure LimitSwapResult where
  order : Order
  eventAmountIn : Option ℤ
  pair : TradingPair
  priceSuitable : Bool

/-- The bookkeeping of a fill after its swap: spend the input from the
held balance, pay the output and the referer bonus (each discarding its
error), record the repurchase fund, and update and save the order, which
is filled once nothing is left locked. -/
def settleFill (s : State) (blockTime : ℤ) (order : Order) (tokenIn tokenOut : Symbol)
    (realMaxAmountIn : ℤ) (r : SwapResult) : Order × State :=
  let trk := if 0 < realMaxAmountIn then
      orKeep (s.trk.subCoinHold order.fromAddr (tokenIn, realMaxAmountIn)) s.trk
    else s.trk
  let trk := if 0 < r.amountOut then orKeep (trk.addCoin order.receiver (tokenOut, r.amountOut)) trk
    else trk
  let trk := if 0 < r.refererBonus then orKeep (trk.addCoin order.referer (tokenIn, r.refererBonus)) trk
    else trk
  let s := { s with trk := trk }
  let s := if 0 < r.repurchaseFund then s.addRepurchaseFunds (newCoins (tokenIn, r.repurchaseFund))
    else s
  let lockedFund := order.lockedFund - realMaxAmountIn
  let order := if lockedFund = 0 then
      { order with lockedFund := lockedFund, status := .filled, finishedTime := blockTime }
    else { order with lockedFund := lockedFund, status := .partiallyFilled }
  (order, s.saveOrder order)

section settleFill

variable (s : State) (blockTime : ℤ) (order : Order) (tokenIn tokenOut : Symbol)
  (realMaxAmountIn : ℤ) (r : SwapResult)

@[simp] theorem pairs_settleFill :
    (settleFill s blockTime order tokenIn tokenOut realMaxAmountIn r).2.pairs = s.pairs := by
  unfold settleFill
  dsimp only
  split <;> simp

@[simp] theorem liquidity_settleFill :
    (settleFill s blockTime order tokenIn tokenOut realMaxAmountIn r).2.liquidity = s.liquidity := by
  unfold settleFill
  dsimp only
  split <;> simp

@[simp] theorem totalShare_settleFill :
    (settleFill s blockTime order tokenIn tokenOut realMaxAmountIn r).2.totalShare = s.totalShare := by
  unfold settleFill
  dsimp only
  split <;> simp

end settleFill

/-- The fill of `limitSwap` once its amount is known: swap the amount on
the pair, in the direction of the order's side, and settle the order. -/
def fillOrder (s : State) (blockTime : ℤ) (order : Order) (pair : TradingPair) (priceSuitable : Bool)
    (realMaxAmountIn : ℤ) : LimitSwapResult × State :=
  let (tokenIn, tokenOut) :=
    if order.side = .buy then (pair.tokenB, pair.tokenA) else (pair.tokenA, pair.tokenB)
  let (r, s) := swap env s order.feeRate pair tokenIn realMaxAmountIn false
  let (order, s) := settleFill s blockTime order tokenIn tokenOut realMaxAmountIn r
  (⟨order, some realMaxAmountIn, r.pair, priceSuitable⟩, s)

/-- **`Keeper.limitSwap`**: fill as much of the order as the pair takes
at the order's price, within what the order still has locked. The amount
the price allows is divided by the order's fee coefficient, which panics
at a zero coefficient. -/
def limitSwap (s : State) (blockTime : ℤ) (order : Order) (pair : TradingPair) :
    Except Failure (LimitSwapResult × State) := do
  let (maxAmountIn, priceSuitable) ← calLimitSwapAmount order pair
  if maxAmountIn = 0 then pure (⟨order, none, pair, priceSuitable⟩, s)
  else do
    let realAmountInCoeff := Dec.one.sub order.feeRate.totalFeeRate
    let realMaxAmountIn ← (Dec.ofInt maxAmountIn).quo realAmountInCoeff
    let realMaxAmountIn := realMaxAmountIn.truncateInt
    let realMaxAmountIn := if order.lockedFund < realMaxAmountIn then order.lockedFund else realMaxAmountIn
    pure (fillOrder env s blockTime order pair priceSuitable realMaxAmountIn)

/-- **What a `limitSwap` that did not panic did**: the price allowed an
amount; nothing happened when it was zero, and otherwise the division by
the fee coefficient went through and the order filled the quotient,
capped by its locked fund. -/
theorem limitSwap_eq_ok {s : State} {blockTime : ℤ} {order : Order} {pair : TradingPair}
    {res : LimitSwapResult × State} (h : limitSwap env s blockTime order pair = .ok res) :
    ∃ maxAmountIn priceSuitable, calLimitSwapAmount order pair = .ok (maxAmountIn, priceSuitable) ∧
      (maxAmountIn = 0 ∧ res = (⟨order, none, pair, priceSuitable⟩, s) ∨
        maxAmountIn ≠ 0 ∧ ∃ q, (Dec.ofInt maxAmountIn).quo (Dec.one.sub order.feeRate.totalFeeRate) = .ok q ∧
          res = fillOrder env s blockTime order pair priceSuitable
            (if order.lockedFund < q.truncateInt then order.lockedFund else q.truncateInt)) := by
  obtain ⟨⟨maxAmountIn, priceSuitable⟩, hcal, h⟩ := bind_eq_ok.mp h
  refine ⟨maxAmountIn, priceSuitable, hcal, ?_⟩
  dsimp only at h
  split at h
  · exact .inl ⟨‹_›, (pure_eq_ok.mp h).symm⟩
  · obtain ⟨q, hq, h⟩ := bind_eq_ok.mp h
    exact .inr ⟨‹_›, q, hq, (pure_eq_ok.mp h).symm⟩

/-- **`finishOrderWithStatus`**: stamp the finish time and the status,
unlock what the order still has locked (discarding the error), save it
and drop it from the unfinished index. It returns the order as mutated. -/
def finishOrderWithStatus (s : State) (blockTime : ℤ) (order : Order) (status : OrderStatus) :
    Order × State :=
  let order := { order with finishedTime := blockTime, status := status }
  let (order, trk) := if 0 < order.lockedFund then
      ({ order with lockedFund := 0 }, orKeep (s.trk.unlockCoin order.fromAddr (getOrderLockedCoin order)) s.trk)
    else (order, s.trk)
  let s := { s with trk := trk }
  (order, (s.saveOrder order).delUnfinishedOrder order)

/-- One order of `CancelOrders`. -/
def cancelOrder (s : State) (blockTime : ℤ) (fromAddr : CUAddress) (orderID : String) :
    Except Failure State := do
  let order ← orFail (s.getOrder orderID) (errNotFoundOrder "order %s not found")
  failIf order.isFinished (errInvalidTx "order %s has been finished, cannot be canceled")
  failIf (order.fromAddr ≠ fromAddr) (errInvalidTx "no permission to cancel order %s")
  pure (finishOrderWithStatus s blockTime order .canceled).2

/-- The loop of `CancelOrders`. -/
def cancelOrderList (blockTime : ℤ) (fromAddr : CUAddress) : State → List String → Except Failure State
  | s, [] => .ok s
  | s, orderID :: orderIDs => do
    let s ← cancelOrder s blockTime fromAddr orderID
    cancelOrderList blockTime fromAddr s orderIDs

/-- **`CancelOrders`**: cancel every order of the list from the store,
and queue them all to leave the book. -/
def cancelOrders (s : State) (blockTime : ℤ) (fromAddr : CUAddress) (orderIDs : List String) :
    Except Failure State := do
  let s ← cancelOrderList blockTime fromAddr s orderIDs
  pure (s.addWaitToRemoveFromMatchingOrderID orderIDs)

/-- **`Keeper.LimitSwap`**: check the pair has liquidity, lock the input,
save the order, match it once against the pair, and index it as
unfinished unless it filled. -/
def limitSwapTx (s : State) (blockTime : ℤ) (dexID : ℕ) (orderID : String)
    (fromAddr referer receiver : CUAddress) (amountIn : ℤ) (price : Dec)
    (baseSymbol quoteSymbol : Symbol) (side : OrderSide) (expiredAt : ℤ) : Except Failure State := do
  let pair ← orFail (s.getTradingPair dexID baseSymbol quoteSymbol)
    (errInvalidTx "%s-%s trading pair does not exist in dex %d")
  let feeRate := getFeeRates env pair
  let realInCoeff := Dec.one.sub feeRate.totalFeeRate
  let realAmount := ((Dec.ofInt amountIn).mul realInCoeff).truncateDec
  let amountOut ← (match side with
    | .buy => do
      let q ← realAmount.quo price
      pure q.truncateInt
    | .sell => pure (realAmount.mul price).truncateInt)
  failIf (amountOut ≤ 0) (errInvalidTx "limit order amount is too small")
  let pair ← (if pair.isPublic ∧ dexID ≠ 0 then
      orFail (s.getTradingPair 0 baseSymbol quoteSymbol)
        (errInvalidTx "%s-%s trading pair does not have enough liquidity")
    else pure pair)
  failIf (pair.tokenAAmount ≤ 0 ∨ pair.tokenBAmount ≤ 0)
    (errInvalidTx "%s-%s trading pair does not have enough liquidity")
  let symbol := match side with
    | .buy => quoteSymbol
    | .sell => baseSymbol
  let trk ← s.trk.lockCoin fromAddr (symbol, amountIn)
  let order : Order :=
    { orderID := orderID, dexID := pair.dexID, fromAddr := fromAddr, referer := referer,
      receiver := receiver, createdTime := blockTime, expiredTime := expiredAt, finishedTime := 0,
      status := .new, side := side, baseSymbol := baseSymbol, quoteSymbol := quoteSymbol,
      price := price, amountIn := amountIn, lockedFund := amountIn, feeRate := feeRate }
  let s := { s with trk := trk }.saveOrder order
  let (r, s) ← limitSwap env s blockTime order pair
  pure (if r.order.status ≠ .filled then s.addUnfinishedOrder r.order else s)

end Openswap
