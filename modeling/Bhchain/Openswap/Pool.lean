import Bhchain.Openswap.Keeper
import Mathlib.Data.Int.Sqrt

/-!
# Liquidity and direct swaps (`x/openswap/keeper/keeper.go`, `util.go`)

`AddLiquidity` puts both tokens of a pair into its reserves and issues
liquidity shares: on the first deposit the integer square root of the
product of the two amounts, of which `MinimumLiquidity` is locked for
good; afterwards the smaller of the two proportional shares, after taking
of the second token only what the pair's price asks. `RemoveLiquidity`
burns shares and pays out each reserve pro rata, rounded down.

A direct swap runs `swap` along a path of pairs, after `getAmountOut` or
`getAmountIn` has computed the amounts the caller bounds. A public pair
of a dex other than `0` stands for the pair of dex `0`: liquidity, swaps
and reserves all go there.
-/

namespace Openswap

open Sdk Transfer Transition

variable (env : Env)

/-! ## Liquidity -/

/-- The amounts of an `AddLiquidity`: the pair to write, the two amounts
taken and the shares issued. A missing pair, or one with no liquidity,
takes a first deposit; otherwise the amounts follow the pair's price. -/
def addLiquidityAmounts (pair : Option TradingPair) (tokenA tokenB : Symbol)
    (maxTokenAAmount maxTokenBAmount : ℤ) : Except Failure (TradingPair × ℤ × ℤ × ℤ) :=
  match pair with
  | some pair =>
    if pair.totalLiquidity = 0 then do
      let liquidity := Int.sqrt (maxTokenAAmount * maxTokenBAmount) - env.minimumLiquidity
      failIf (liquidity ≤ 0) (errInvalidAmount "insufficient liquidity")
      pure ({ pair with totalLiquidity := env.minimumLiquidity }, maxTokenAAmount, maxTokenBAmount,
        liquidity)
    else do
      let needTokenB := mulAndDiv maxTokenAAmount pair.tokenBAmount pair.tokenAAmount
      let (needTokenA, needTokenB) ← (if maxTokenBAmount < needTokenB then do
          let needTokenA := mulAndDiv maxTokenBAmount pair.tokenAAmount pair.tokenBAmount
          failIf (maxTokenAAmount < needTokenA) (errInvalidAmount "need amount exceeds expectation")
          pure (needTokenA, maxTokenBAmount)
        else pure (maxTokenAAmount, needTokenB))
      let liquidity := min (mulAndDiv needTokenA pair.totalLiquidity pair.tokenAAmount)
        (mulAndDiv needTokenB pair.totalLiquidity pair.tokenBAmount)
      pure (pair, needTokenA, needTokenB, liquidity)
  | none => do
    let liquidity := Int.sqrt (maxTokenAAmount * maxTokenBAmount) - env.minimumLiquidity
    failIf (liquidity ≤ 0) (errInvalidAmount "insufficient liquidity")
    pure (TradingPair.newDefault tokenA tokenB env.minimumLiquidity, maxTokenAAmount,
      maxTokenBAmount, liquidity)

/-- The pair a liquidity call works on: a public pair of a dex other than
`0` is replaced by the pair of dex `0`, which may be missing. -/
def redirectPublic (s : State) (tokenA tokenB : Symbol) (pair : TradingPair) :
    Option TradingPair :=
  if pair.isPublic ∧ pair.dexID ≠ 0 then s.getTradingPair 0 tokenA tokenB else some pair

/-- `NewCoins` of two coins of different symbols. -/
def newCoinPair (a b : Coin) : Coins := (newCoins a).add (newCoins b)

/-- **`Keeper.AddLiquidity`**. -/
def addLiquidity (s : State) (fromAddr : CUAddress) (dexID : ℕ) (tokenA tokenB : Symbol)
    (maxTokenAAmount maxTokenBAmount : ℤ) : Except Failure State := do
  let pair := s.getTradingPair dexID tokenA tokenB
  failIf (pair = none ∧ dexID ≠ 0) (errInvalidTx "%s-%s trading pair does not exist in dex %d")
  let pair := pair.bind (redirectPublic s tokenA tokenB)
  let (pair, needTokenA, needTokenB, liquidity) ←
    addLiquidityAmounts env pair tokenA tokenB maxTokenAAmount maxTokenBAmount
  failIf (needTokenA ≤ 0 ∨ needTokenB ≤ 0)
    (errInvalidTx "amount is too small, %s amount: %v, %s amount: %v")
  failIf (liquidity ≤ 0) (errInvalidTx "liquidity %s is too small")
  let trk ← s.trk.subCoins fromAddr (newCoinPair (tokenA, needTokenA) (tokenB, needTokenB))
  let pair := { pair with tokenAAmount := pair.tokenAAmount + needTokenA,
                          tokenBAmount := pair.tokenBAmount + needTokenB,
                          totalLiquidity := pair.totalLiquidity + liquidity }
  let s := { s with trk := trk }.saveTradingPair pair
  let addrLiquidity := s.getLiquidity fromAddr pair.dexID pair.tokenA pair.tokenB + liquidity
  let s := s.saveLiquidity fromAddr pair.dexID tokenA tokenB addrLiquidity
  pure (s.onUpdateLiquidity fromAddr pair.dexID tokenA tokenB liquidity)

/-- **`Keeper.RemoveLiquidity`**. The pair of dex `0` that a public pair
stands for is dereferenced without a check. -/
def removeLiquidity (s : State) (fromAddr : CUAddress) (dexID : ℕ) (tokenA tokenB : Symbol)
    (liquidity : ℤ) : Except Failure State := do
  let pair ← orFail (s.getTradingPair dexID tokenA tokenB)
    (errInvalidTx "%s-%s trading pair does not exist in dex %d")
  let pair ← orFail (redirectPublic s tokenA tokenB pair) nilPointerDereference
  let addrLiquidity := s.getLiquidity fromAddr pair.dexID pair.tokenA pair.tokenB
  failIf (addrLiquidity < liquidity) (errInsufficientFunds "insufficient liquidity, has %s, need %s")
  failIf (pair.totalLiquidity < liquidity) (errInternal "remove amount is larger than total liquidity")
  let returnTokenA := mulAndDiv liquidity pair.tokenAAmount pair.totalLiquidity
  let returnTokenB := mulAndDiv liquidity pair.tokenBAmount pair.totalLiquidity
  failIf (returnTokenA ≤ 0 ∨ returnTokenB ≤ 0)
    (errInvalidTx "amount is too small, %s amount: %v, %s amount: %v")
  let trk ← s.trk.addCoins fromAddr (newCoinPair (tokenA, returnTokenA) (tokenB, returnTokenB))
  let pair := { pair with tokenAAmount := pair.tokenAAmount - returnTokenA,
                          tokenBAmount := pair.tokenBAmount - returnTokenB,
                          totalLiquidity := pair.totalLiquidity - liquidity }
  let s := { s with trk := trk }.saveTradingPair pair
  let s := s.saveLiquidity fromAddr pair.dexID tokenA tokenB (addrLiquidity - liquidity)
  pure (s.onUpdateLiquidity fromAddr pair.dexID tokenA tokenB (-liquidity))

/-! ## Direct swaps -/

/-- `getReserves`: the reserves of the input and the output token, read
from the pair of dex `0` for a public pair of another dex. -/
def getReserves (s : State) (pair : TradingPair) (tokenA tokenB : Symbol) : ℤ × ℤ :=
  match redirectPublic s tokenA tokenB pair with
  | none => (0, 0)
  | some pair => if tokenA = pair.tokenA then (pair.tokenAAmount, pair.tokenBAmount)
    else (pair.tokenBAmount, pair.tokenAAmount)

/-- `getRealInCoeff`: one minus the pair's total fee rate. -/
def getRealInCoeff (pair : TradingPair) : Dec := Dec.one.sub (getFeeRates env pair).totalFeeRate

/-- **`getAmountOut`**: the output of a swap along the path, hop by hop. -/
def getAmountOut (s : State) (dexID : ℕ) : ℤ → List Symbol → Except Failure ℤ
  | amountOut, tokenIn :: tokenOut :: path => do
    let pair ← orFail (s.getTradingPair dexID tokenIn tokenOut)
      (errInvalidTx "%s-%s trading pair does not exist in dex %d")
    let (reserveIn, reserveOut) := getReserves s pair tokenIn tokenOut
    failIf (reserveIn ≤ 0 ∨ reserveOut ≤ 0)
      (errInvalidTx "%s-%s trading pair does not have enough liquidity")
    let coeff := getRealInCoeff env pair
    let amountOut := ((Dec.ofInt amountOut).mul coeff).truncateInt
    let amountOut := mulAndDiv amountOut reserveOut (reserveIn + amountOut)
    getAmountOut s dexID amountOut (tokenOut :: path)
  | amountOut, _ => .ok amountOut

/-- **`getAmountIn`**: the input a swap along the path needs for a given
output, hop by hop from the end. -/
def getAmountIn (s : State) (dexID : ℕ) (amountOut : ℤ) (path : List Symbol) :
    Except Failure ℤ :=
  go amountOut path.reverse
where
  /-- The hops from the last one; `tokenOut :: tokenIn :: _` is the
  reversed path. -/
  go : ℤ → List Symbol → Except Failure ℤ
  | amountIn, tokenOut :: tokenIn :: rpath => do
    let pair ← orFail (s.getTradingPair dexID tokenIn tokenOut)
      (errInvalidTx "%s-%s trading pair does not exist in dex %d")
    let (reserveIn, reserveOut) := getReserves s pair tokenIn tokenOut
    failIf (reserveIn ≤ 0 ∨ reserveOut ≤ 0)
      (errInvalidTx "%s-%s trading pair does not have enough liquidity")
    failIf (reserveOut ≤ amountIn) (errInvalidTx "insufficient reserve out, have %v, need %v")
    let coeff := getRealInCoeff env pair
    let amountIn := mulAndDiv amountIn reserveIn (reserveOut - amountIn)
    let amountIn ← (Dec.ofInt amountIn).quo coeff
    go (amountIn.truncateInt + 1) (tokenIn :: rpath)
  | amountIn, _ => .ok amountIn

/-- What the hops of `directSwap` carry along: the state, the amount
entering the next hop, the referer bonuses and the repurchase funds. -/
structure HopState where
  s : State
  amountIn : ℤ
  bonusCoins : Coins
  repurchaseFunds : Coins

/-- The hops of `directSwap`. A pair that is missing is dereferenced by
`getFeeRates` or `swap`. -/
def swapHops (dexID : ℕ) : HopState → List Symbol → Except Failure HopState
  | h, tokenIn :: tokenOut :: path => do
    let pair ← orFail (h.s.getTradingPair dexID tokenIn tokenOut) nilPointerDereference
    let feeRate := getFeeRates env pair
    let pair ← orFail (redirectPublic h.s tokenIn tokenOut pair) nilPointerDereference
    let (r, s) := swap env h.s feeRate pair tokenIn h.amountIn false
    let bonusCoins := if 0 < r.refererBonus then h.bonusCoins.add (newCoins (tokenIn, r.refererBonus))
      else h.bonusCoins
    let repurchaseFunds := if 0 < r.repurchaseFund then
        h.repurchaseFunds.add (newCoins (tokenIn, r.repurchaseFund))
      else h.repurchaseFunds
    swapHops dexID ⟨s, r.amountOut, bonusCoins, repurchaseFunds⟩ (tokenOut :: path)
  | h, _ => .ok h

/-- **`Keeper.directSwap`**: take the input, run the hops, pay the output,
the referer bonuses, and record the repurchase funds. -/
def directSwap (s : State) (dexID : ℕ) (fromAddr referer receiver : CUAddress) (amountIn : ℤ)
    (path : List Symbol) : Except Failure State := do
  let tokenIn ← orFail path.head? indexOutOfRange
  let trk ← s.trk.subCoin fromAddr (tokenIn, amountIn)
  let h ← swapHops env dexID ⟨{ s with trk := trk }, amountIn, [], []⟩ path
  let tokenOut ← orFail path.getLast? indexOutOfRange
  let trk ← (if 0 < h.amountIn then h.s.trk.addCoin receiver (tokenOut, h.amountIn)
    else pure h.s.trk)
  let trk ← (if Balances.coinsIsValid h.bonusCoins then trk.addCoins referer h.bonusCoins
    else pure trk)
  pure ({ h.s with trk := trk }.addRepurchaseFunds h.repurchaseFunds)

/-- **`Keeper.SwapExactIn`**. -/
def swapExactIn (s : State) (dexID : ℕ) (fromAddr referer receiver : CUAddress)
    (amountIn minAmountOut : ℤ) (path : List Symbol) : Except Failure State := do
  let amountOut ← getAmountOut env s dexID amountIn path
  failIf (amountOut < minAmountOut) (errInvalidAmount "insufficient amount out, min: %s, got: %s")
  directSwap env s dexID fromAddr referer receiver amountIn path

/-- **`Keeper.SwapExactOut`**. -/
def swapExactOut (s : State) (dexID : ℕ) (fromAddr referer receiver : CUAddress)
    (amountOut maxAmountIn : ℤ) (path : List Symbol) : Except Failure State := do
  let amountIn ← getAmountIn env s dexID amountOut path
  failIf (maxAmountIn < amountIn) (errInvalidAmount "excessive amount in, max: %s, got: %s")
  directSwap env s dexID fromAddr referer receiver amountIn path

end Openswap
