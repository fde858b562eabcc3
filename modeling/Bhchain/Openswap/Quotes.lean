import Bhchain.Openswap.Expiry

/-!
# Swap quotes and their execution

`SwapExactIn` checks the output of a swap along a path with `getAmountOut`
and then makes the swap with `directSwap`. The quote takes the reserves of
every hop from the store as it is before the swap, while the execution
takes them as the earlier hops left them. On a path whose hops use
different pairs each hop of the execution meets the reserves the quote
read; but `ValidateBasic` only forbids a token following itself, and a
path may come back to a pair it already used, in the same direction. The
second visit then meets the reserves the first one moved, and pays less
than quoted.

The chain below has three pairs of dex `0`, without fees, and a swap along
the cycle `btc → usdt → eth → btc` and once more to `usdt`: it pays less
than the quote, which is also the `MinAmountOut` that was checked.

A limit order is sized the same way, from the reserves: `calLimitSwapAmount`
lets a sell order put in the input that brings the pair's reserves to
`reserveB / price`, and at that input the average price of the fill is the
order's price exactly. The quotient is a `Dec`, rounded to eighteen
places, and it may round up to a whole number that the true quotient does
not reach. The fill then goes a little past the order's price, and with
amounts large enough the truncated output falls one unit short of the
input converted at that price.
-/

namespace Openswap

open Sdk Transfer Transition

/-- No fees; three tokens of equal weight. -/
def quoteEnv : Env :=
  { expiryEnv with
    getToken := fun symbol =>
      if symbol = "btc" ∨ symbol = "usdt" ∨ symbol = "eth" then some ⟨1, true⟩ else none }

/-- `bob` has `10000` of each token, `alice` `1000` `btc`. -/
def quoteGenesis : Balances :=
  ⟨fun e => if e.1 = "bob" then 10000 else if e.1 = "alice" ∧ e.2 = "btc" then 1000 else 0,
    fun _ => 0⟩

/-- `bob` opens the three pairs of the tokens at price `1`, `2000` of each
token in each. -/
def cyclePools : State :=
  run (step quoteEnv) (State.init quoteGenesis)
    [.tx 1 (.addLiquidity ⟨"bob", 0, "btc", "usdt", 2000, 2000, 0⟩),
     .tx 1 (.addLiquidity ⟨"bob", 0, "usdt", "eth", 2000, 2000, 0⟩),
     .tx 1 (.addLiquidity ⟨"bob", 0, "eth", "btc", 2000, 2000, 0⟩)]

/-- Around the cycle, and through the `btc`-`usdt` pair a second time. -/
def cyclePath : List Symbol := ["btc", "usdt", "eth", "btc", "usdt"]

/-- `alice` swaps `500` `btc` along the path for `carol`, asking for at
least the quote. -/
def cycleSwap : MsgSwapExactIn := ⟨"alice", 0, "dave", "carol", 500, 249, cyclePath, 0⟩

/-- **A swap pays less than its quote.** The quote of `500` `btc` along
`cyclePath` is `249` `usdt`, which `alice` asks for as `MinAmountOut`; the
swap goes through, taking her `500` `btc`, and `carol` receives `163`
`usdt`. -/
theorem swapExactIn_pays_below_quote :
    getAmountOut quoteEnv cyclePools 0 500 cyclePath = .ok 249 ∧
      (step quoteEnv cyclePools (.tx 1 (.swapExactIn cycleSwap))).trk.getBalance "alice" "btc" = 500 ∧
      (step quoteEnv cyclePools (.tx 1 (.swapExactIn cycleSwap))).trk.getBalance "carol" "usdt" = 163 := by
  decide +kernel

/-! ## Limit prices -/

/-- A pair of dex `0` holding `1` `btc` and `262145 · 8 · 10^12 + 1` `usdt`. -/
def thinPair : TradingPair :=
  { TradingPair.newDefault "btc" "usdt" 1000 with tokenAAmount := 1, tokenBAmount := 2097160000000000001 }

/-- `8 · 10^12` `usdt` per `btc`, and `5^18` units of the last decimal: the
quotient of the pair's `usdt` by it is just below `262145`. -/
def thinPrice : Dec := ⟨8000000000000 * precisionInt + 3814697265625⟩

/-- `alice`'s sell order of `262144` `btc` at `thinPrice`, paid to `carol`,
without fees. -/
def thinOrder : Order :=
  ⟨order1, 0, "alice", "dave", "carol", 1, 0, 0, .new, .sell, "btc", "usdt", thinPrice, 262144,
    262144, ⟨Dec.zero, Dec.zero, Dec.zero⟩⟩

/-- `alice` holds the `btc` her order locks. -/
def thinGenesis : Balances :=
  ⟨fun _ => 0, fun e => if e = ("alice", "btc") then 262144 else 0⟩

/-- **A limit order fills below its price.** The fill of `thinOrder`
against `thinPair` takes all `262144` `btc` and pays `carol`
`2097152 · 10^12` `usdt`, one less than the `262144` `btc` converted at
the order's price. -/
theorem limitSwap_fills_below_limit_price :
    (limitSwap expiryEnv (State.init thinGenesis) 1 thinOrder thinPair).map
        (fun r => (r.1.eventAmountIn, r.2.trk.getBalance "carol" "usdt")) =
      .ok (some 262144, 2097152000000000000) ∧
      (((Dec.ofInt 262144).mul (Dec.one.sub thinOrder.feeRate.totalFeeRate)).mul
        thinOrder.price).truncateInt = 2097152000000000001 := by
  decide +kernel

end Openswap
