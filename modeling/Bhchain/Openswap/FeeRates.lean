import Bhchain.Openswap.Expiry

/-!
# The fee coefficient of a pair

Every swap formula of the module scales its input by `1 - TotalFeeRate`
(`getRealInCoeff`), and `getAmountIn` divides by it. Whether that
coefficient is positive is decided in two places. `Params.Validate` bounds
the module's rates: each nonnegative, their sum at most `MaxFeeRate`, and
`MaxFeeRate` at most `1`. `handleMsgCreateTradingPair` and
`handleMsgEditTradingPair` bound a custom pair's rates by the same sum,
with the repurchase rate and `MaxFeeRate` of the time of the check.

Both bounds allow equality with `1`, and the second is not checked again
when the parameters change. A valid parameter set whose rates add up to
`MaxFeeRate = 1` makes the coefficient of every pair of dex `0` zero, and
raising the repurchase rate pushes a custom pair checked before past `1`
(`feeCoefficient_not_positive_under_valid_params`). What the checks do
give is the bound `TotalFeeRate ≤ MaxFeeRate ≤ 1` under the parameters
they ran with (`totalFeeRate_getFeeRates_dex0`,
`totalFeeRate_le_of_checkPairRates`).
-/

namespace Openswap

open Sdk Transfer Transition

@[simp] theorem val_totalFeeRate (f : FeeRate) :
    f.totalFeeRate.val = f.lpRewardRate.val + f.refererRewardRate.val + f.repurchaseRate.val := rfl

variable {env : Env}

/-- **The rates of dex `0` add up to at most one**: they are the module's
own, which `Params.Validate` bounds by `MaxFeeRate ≤ 1`. -/
theorem totalFeeRate_getFeeRates_dex0 (hv : env.Valid) {pair : TradingPair} (h : pair.dexID = 0) :
    0 ≤ (getFeeRates env pair).totalFeeRate.val ∧
      (getFeeRates env pair).totalFeeRate.val ≤ env.maxFeeRate.val := by
  have hle := hv.sum_le_maxFeeRate
  have hlp := hv.lpRewardRate_nonneg
  have hrep := hv.repurchaseRate_nonneg
  have href := hv.refererTransactionBonusRate_nonneg
  simp only [getFeeRates, h, if_true, val_totalFeeRate]
  omega

/-- What the rate checks of a pair creation or edit accept. -/
theorem checkPairRates_eq_ok {isPublic : Bool} {lpRewardRate refererRewardRate : Dec} {u : Unit}
    (h : checkPairRates env isPublic lpRewardRate refererRewardRate = .ok u) :
    (isPublic = true → env.refererTransactionBonusRate.val ≤ refererRewardRate.val) ∧
      (if isPublic then env.lpRewardRate else lpRewardRate).val + refererRewardRate.val +
        env.repurchaseRate.val ≤ env.maxFeeRate.val := by
  simp only [checkPairRates, bind_eq_ok, failIf_eq_ok] at h
  obtain ⟨-, hpub, hsum⟩ := h
  simp only [Dec.lt, Dec.gt, Dec.add, decide_eq_true_eq, not_and, not_lt] at hpub hsum
  exact ⟨hpub, not_lt.mp fun hlt => hsum (decide_eq_true hlt)⟩

/-- **A custom pair's rates, under the parameters they were checked with,
add up to at most `MaxFeeRate`.** -/
theorem totalFeeRate_le_of_checkPairRates {pair : TradingPair} (hdex : pair.dexID ≠ 0) {u : Unit}
    (h : checkPairRates env pair.isPublic pair.lpRewardRate pair.refererRewardRate = .ok u) :
    (getFeeRates env pair).totalFeeRate.val ≤ env.maxFeeRate.val := by
  obtain ⟨-, hsum⟩ := checkPairRates_eq_ok h
  cases hpub : pair.isPublic with
  | true =>
    simp only [hpub, ↓reduceIte] at hsum
    simp only [getFeeRates, hdex, hpub, ↓reduceIte, val_totalFeeRate]
    omega
  | false =>
    simp only [hpub, Bool.false_eq_true, ↓reduceIte] at hsum
    simp only [getFeeRates, hdex, hpub, Bool.false_eq_true, ↓reduceIte, val_totalFeeRate]
    omega

/-! ## Valid parameters with a coefficient of zero, and below -/

/-- Valid parameters whose rates add up to `MaxFeeRate = 1`: all of it
the lp reward. -/
def fullFeeEnv : Env := { expiryEnv with lpRewardRate := Dec.one }

/-- Valid parameters without fees, under which a custom pair is created. -/
def noFeeEnv : Env := expiryEnv

/-- Valid parameters after a change that raises the repurchase rate to
`0.5`. -/
def raisedRepurchaseEnv : Env := { expiryEnv with repurchaseRate := Dec.withPrec 5 1 }

/-- A private pair of dex `1` with an lp rate of `0.9` and a referer rate
of `0.05`, as `handleMsgCreateTradingPair` saves it. -/
def customPair : TradingPair :=
  TradingPair.newCustom 1 "btc" "usdt" false (Dec.withPrec 9 1) (Dec.withPrec 5 2)

/-- **The fee coefficient is not always positive.** Under `fullFeeEnv`,
which `Params.Validate` accepts, `bob` opens the `btc`-`usdt` pair of dex
`0`; its fee rates add up to `1`, so its coefficient, which `getAmountIn`
divides by, is zero. And a private pair whose rates passed the check under
`noFeeEnv` adds up to `1.45` under `raisedRepurchaseEnv`, also valid: a
swap of `100` through it cuts `145` of fees, leaving an input of `-45`. -/
theorem feeCoefficient_not_positive_under_valid_params :
    fullFeeEnv.Valid ∧
      ((run (step fullFeeEnv) (State.init expiryGenesis)
          [.tx 1 (.addLiquidity ⟨"bob", 0, "btc", "usdt", 2000, 2000, 0⟩)]).pairs (0, "btc", "usdt")).map
        (fun pair => ((getFeeRates fullFeeEnv pair).totalFeeRate, getRealInCoeff fullFeeEnv pair)) =
        some (Dec.one, Dec.zero) ∧
      noFeeEnv.Valid ∧ raisedRepurchaseEnv.Valid ∧
      checkPairRates noFeeEnv customPair.isPublic customPair.lpRewardRate
        customPair.refererRewardRate = .ok () ∧
      (getFeeRates raisedRepurchaseEnv customPair).totalFeeRate = Dec.withPrec 145 2 ∧
      (let fees := swapFees raisedRepurchaseEnv (State.init expiryGenesis)
        (getFeeRates raisedRepurchaseEnv customPair) "btc" 100 false
       100 - fees.1 - fees.2.1 - fees.2.2 = -45) := by
  refine ⟨⟨by decide, by decide, by decide, by decide, by decide, by decide, by decide, by decide⟩,
    by decide +kernel,
    ⟨by decide, by decide, by decide, by decide, by decide, by decide, by decide, by decide⟩,
    ⟨by decide, by decide, by decide, by decide, by decide, by decide, by decide, by decide⟩,
    by decide, by decide, by decide⟩

/- On that pair `SwapExactOut` panics: the input `getAmountIn` asks for is
divided by the zero coefficient. -/
example :
    getAmountIn fullFeeEnv (run (step fullFeeEnv) (State.init expiryGenesis)
        [.tx 1 (.addLiquidity ⟨"bob", 0, "btc", "usdt", 2000, 2000, 0⟩)]) 0 10 ["btc", "usdt"] =
      .error (.panic "division by zero") := by
  decide +kernel

end Openswap
