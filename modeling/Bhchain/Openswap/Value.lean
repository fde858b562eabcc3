import Mathlib
import Bhchain.Openswap.Trades

/-!
# The value of a liquidity share

A share of a pair is a claim on both of its reserves. What it is worth is
`valuePerShare`, `A · B / T²` for reserves `A` and `B` and `T` shares: the
square of the geometric mean of the reserves behind one share, which a swap
within the curve does not lower and its fee raises. No event of the chain
lowers it, for any pair with shares, from any state the chain reaches
(`value_per_share_never_decreases`); the pair stays stored, with shares and
positive reserves.

Three kinds of call write a pair.

* Swaps, fills, repurchases and the calls that write no pair only trade
  (`Trades`): the shares stay and the product of the reserves does not go
  down (`TradingPair.ValueLE.of_trade`).
* A deposit into a pair with shares issues no more than the part of each
  reserve it adds, rounding down in `mulAndDiv`; a first deposit has no
  value to keep (`addLiquidityAmounts_value`).
* A withdrawal pays out no more than its part of each reserve, rounding
  down too, and never reaches the locked minimum, so that the pair keeps
  shares and positive reserves (`removeLiquidity_valued`).

Creating and editing a pair move no reserve. What they must keep is that
every stored pair was checked for its rates, which the message checks
(`checkRates_eq_ok`) and `checkPairRates` give, so that the swaps after
them stay trades.
-/

namespace Openswap

open Sdk Transfer KVStore Transition

variable {env : Env}

/-! ## The value of a share -/

/-- **The value of one share of a pair**, `A · B / T²`. -/
def TradingPair.valuePerShare (pair : TradingPair) : ℚ :=
  ConstantProduct.valuePerShare (pair.tokenAAmount : ℚ) pair.tokenBAmount pair.totalLiquidity

/-- **A share of `pair'` is worth at least one of `pair`**, once `pair` has
shares: `pair'` has shares too, and the values compare cross-multiplied. -/
def TradingPair.ValueLE (pair pair' : TradingPair) : Prop :=
  0 < pair.totalLiquidity → 0 < pair'.totalLiquidity ∧
    pair.tokenAAmount * pair.tokenBAmount * pair'.totalLiquidity ^ 2 ≤
      pair'.tokenAAmount * pair'.tokenBAmount * pair.totalLiquidity ^ 2

namespace TradingPair.ValueLE

theorem refl (pair : TradingPair) : pair.ValueLE pair := fun hT => ⟨hT, le_rfl⟩

theorem trans {p₁ p₂ p₃ : TradingPair} (h₁ : p₁.ValueLE p₂) (h₂ : p₂.ValueLE p₃) :
    p₁.ValueLE p₃ := by
  intro hT
  obtain ⟨hT₂, hle₁⟩ := h₁ hT
  obtain ⟨hT₃, hle₂⟩ := h₂ hT₂
  exact ⟨hT₃, ConstantProduct.mul_mul_sq_le_trans hT₂ hle₁ hle₂⟩

/-- **The relation is the order of the values**, between pairs with
shares. -/
theorem valuePerShare_le {pair pair' : TradingPair} (h : pair.ValueLE pair')
    (hT : 0 < pair.totalLiquidity) : pair.valuePerShare ≤ pair'.valuePerShare := by
  obtain ⟨hT', hle⟩ := h hT
  unfold valuePerShare
  rw [ConstantProduct.valuePerShare_le_iff (by exact_mod_cast hT) (by exact_mod_cast hT')]
  exact_mod_cast hle

/-- **A trade keeps the value of a share**: the shares stay, and the
product of the reserves of a backed pair does not go down. -/
theorem of_trade {pair pair' : TradingPair} (ht : pair.Trade pair') (hb : pair.Backed) :
    pair.ValueLE pair' := by
  intro hT
  obtain ⟨-, hprod⟩ := ht.backed hb
  rw [ht.totalLiquidity_eq]
  exact ⟨hT, mul_le_mul_of_nonneg_right hprod (sq_nonneg _)⟩

end TradingPair.ValueLE

/-- **No stored pair's shares lost value**: every pair of `s` is still
stored in `s'`, and a share of it is worth at least what it was. -/
def State.ValueLE (s s' : State) : Prop :=
  ∀ key pair, s.pairs key = some pair → ∃ pair', s'.pairs key = some pair' ∧ pair.ValueLE pair'

/-- A pair found after writing one pair is the one written, or was there. -/
theorem update_pairs_eq_some {pairs : PairKey → Option TradingPair} {pair' pair : TradingPair}
    {key : PairKey} (h : Function.update pairs pair'.key (some pair') key = some pair) :
    pair = pair' ∨ pairs key = some pair := by
  by_cases hk : key = pair'.key
  · subst hk
    rw [Function.update_self, Option.some.injEq] at h
    exact .inl h.symm
  · rw [Function.update_of_ne hk] at h
    exact .inr h

namespace State.ValueLE

theorem refl (s : State) : s.ValueLE s := fun _ pair hp => ⟨pair, hp, .refl pair⟩

theorem trans {s₁ s₂ s₃ : State} (h₁ : s₁.ValueLE s₂) (h₂ : s₂.ValueLE s₃) : s₁.ValueLE s₃ := by
  intro key pair hp
  obtain ⟨pair₂, hp₂, hle₁⟩ := h₁ key pair hp
  obtain ⟨pair₃, hp₃, hle₂⟩ := h₂ key pair₂ hp₂
  exact ⟨pair₃, hp₃, hle₁.trans hle₂⟩

/-- **Writing one pair**, worth at least the pair it replaces, if any. -/
theorem of_update {s s' : State} {pair' : TradingPair}
    (h : ∀ pair, s.pairs pair'.key = some pair → pair.ValueLE pair')
    (hp : s'.pairs = Function.update s.pairs pair'.key (some pair')) : s.ValueLE s' := by
  intro key pair hpair
  rw [hp]
  by_cases hk : key = pair'.key
  · subst hk
    exact ⟨pair', Function.update_self .., h pair hpair⟩
  · exact ⟨pair, (Function.update_of_ne hk ..).trans hpair, .refl pair⟩

end State.ValueLE

/-- **Writing one pair keeps the pairs invariant**, for a pair backed by its
reserves and checked for its rates. -/
theorem PairsInv.of_update {s s' : State} (hP : PairsInv env s) {pair' : TradingPair}
    (hr : pair'.RatesChecked env) (hb : pair'.Backed)
    (hp : s'.pairs = Function.update s.pairs pair'.key (some pair')) : PairsInv env s' where
  backed key pair h := by
    rcases update_pairs_eq_some (hp ▸ h) with rfl | h
    · exact hb
    · exact hP.backed key pair h
  rates key pair h := by
    rcases update_pairs_eq_some (hp ▸ h) with rfl | h
    · exact hr
    · exact hP.rates key pair h

variable (env) in
/-- **A call that keeps the value of every share**: the pairs and funds
invariants hold after it, and no stored pair lost value. -/
structure Valued (s s' : State) : Prop where
  pairs : PairsInv env s'
  funded : FundsInv s'
  value : s.ValueLE s'

/-- **A call that only trades keeps the value of every share.** -/
theorem Traded.valued {s s' : State} (hP : PairsInv env s) (h : Traded s s') : Valued env s s' where
  pairs := hP.traded h
  funded := h.funded
  value key pair hp := by
    have hr := h.pairs key
    rw [hp] at hr
    obtain ⟨pair', hp', ht⟩ := optionRel_of_some_left hr
    exact ⟨pair', hp', .of_trade ht (hP.backed key pair hp)⟩

/-! ## Pairs written by the liquidity calls -/

theorem TradingPair.Backed.of_pos {pair : TradingPair} (hA : 0 < pair.tokenAAmount)
    (hB : 0 < pair.tokenBAmount) : pair.Backed :=
  ⟨hA.le, hB.le, fun _ => ⟨hA, hB⟩⟩

/-- The rates of a pair read neither its reserves nor its shares. -/
theorem TradingPair.RatesChecked.withCounters {pair : TradingPair} (h : pair.RatesChecked env)
    (a b t : ℤ) :
    ({ pair with tokenAAmount := a, tokenBAmount := b, totalLiquidity := t } : TradingPair).RatesChecked env :=
  ⟨h.lpRewardRate_nonneg, h.refererRewardRate_nonneg, h.total_le_one⟩

/-- **The new pair of dex `0` is checked**: it pays the module's rates,
which valid parameters bound. -/
theorem TradingPair.ratesChecked_newDefault (hv : env.Valid) (a b : Symbol) (t : ℤ) :
    (TradingPair.newDefault a b t).RatesChecked env :=
  ⟨le_rfl, le_rfl, (totalFeeRate_getFeeRates_dex0 hv rfl).2.trans hv.maxFeeRate_le_one⟩

theorem SharesInv.totalLiquidity_nonneg {s : State} (hI : SharesInv env s)
    (hmin : 0 < env.minimumLiquidity) {key : PairKey} {pair : TradingPair}
    (hp : s.pairs key = some pair) : 0 ≤ pair.totalLiquidity := by
  have hT : s.totalLiquidityAt key = pair.totalLiquidity := by
    simp [State.totalLiquidityAt, hp]
  have hsum := hI.liquiditySum_nonneg key
  rcases hI.shares key with ⟨h0, -⟩ | h <;> omega

/-- **The pair a deposit starts from is the one stored at the key it
writes**: the pair found, or the pair of dex `0` a public pair stands for,
is stored under its key, and without one the key of the new pair of dex
`0` is empty. -/
theorem SharesInv.pairs_depositTarget {s : State} (hI : SharesInv env s) {dexID : ℕ}
    {a b : Symbol} (hd : ¬(s.getTradingPair dexID a b = none ∧ dexID ≠ 0)) :
    s.pairs ((((s.getTradingPair dexID a b).bind (redirectPublic s a b)).map TradingPair.key).getD
      (0, a, b)) = (s.getTradingPair dexID a b).bind (redirectPublic s a b) := by
  cases hg : s.getTradingPair dexID a b with
  | none =>
    -- only dex `0` takes a first deposit without a pair
    have hd0 : dexID = 0 := by
      by_contra hne
      exact hd ⟨hg, hne⟩
    subst hd0
    exact State.pairs_eq_none_of_getTradingPair hg
  | some pair =>
    cases hr : redirectPublic s a b pair with
    | none =>
      -- a public pair whose pair of dex `0` is missing
      have hr' := hr
      unfold redirectPublic at hr'
      split at hr'
      · simp only [Option.bind_some, hr, Option.map_none, Option.getD_none]
        exact State.pairs_eq_none_of_getTradingPair hr'
      · cases hr'
    | some pair' =>
      simp only [Option.bind_some, hr, Option.map_some, Option.getD_some]
      exact hI.pairs_key_of_redirectPublic hg hr

/-- **Shares issued for part of a reserve**: no more than `mulAndDiv n t x`
shares for `n` added to a reserve `x` of `t` shares keep the proportion. -/
theorem deposit_scaled {x t n l : ℤ} (hx : 0 ≤ x) (ht : 0 ≤ t) (hn : 0 ≤ n)
    (hl : l ≤ mulAndDiv n t x) : (t + l) * x ≤ t * (x + n) := by
  refine ConstantProduct.scaled_of_deposit ?_
  calc l * x ≤ mulAndDiv n t x * x := mul_le_mul_of_nonneg_right hl hx
    _ ≤ n * t := (mulAndDiv_bounds (mul_nonneg hn ht) hx).2

/-- **A reserve paid out for shares burned**: `mulAndDiv l x t` of a
reserve `x` for `l` of `t` shares keeps the proportion. -/
theorem withdraw_scaled {x t l : ℤ} (ht : 0 ≤ t) (hlx : 0 ≤ l * x) :
    (t - l) * x ≤ t * (x - mulAndDiv l x t) :=
  ConstantProduct.scaled_of_withdraw (mulAndDiv_bounds hlx ht).2

/-- A positive `mulAndDiv` by a divisor that is not negative comes from a
positive product. -/
theorem mul_pos_of_mulAndDiv_pos {a b c : ℤ} (h : 0 < mulAndDiv a b c) (hc : 0 ≤ c) :
    0 < a * b := by
  by_contra hab
  have h' := Int.tdiv_nonneg (neg_nonneg.mpr (not_lt.mp hab)) hc
  rw [Int.neg_tdiv] at h'
  unfold mulAndDiv at h
  omega

/-- **What a deposit writes keeps the value of a share.** The pair of
`addLiquidityAmounts`, with the amounts taken and the shares issued added,
is backed and checked for its rates, and a share of it is worth at least
one of the pair it was made from: at a pair's price the shares are the
smaller of the two parts, each rounded down. -/
theorem addLiquidityAmounts_value (hv : env.Valid) {o : Option TradingPair} {a b : Symbol}
    {maxA maxB : ℤ} {pair : TradingPair} {needA needB l : ℤ}
    (ho : ∀ q, o = some q → q.Backed ∧ q.RatesChecked env ∧ 0 ≤ q.totalLiquidity)
    (h : addLiquidityAmounts env o a b maxA maxB = .ok (pair, needA, needB, l))
    (hA : 0 < needA) (hB : 0 < needB) (hl : 0 < l) :
    let pair' : TradingPair :=
      { pair with tokenAAmount := pair.tokenAAmount + needA, tokenBAmount := pair.tokenBAmount + needB,
                  totalLiquidity := pair.totalLiquidity + l }
    pair'.Backed ∧ pair'.RatesChecked env ∧ ∀ q, o = some q → q.ValueLE pair' := by
  intro pair'
  unfold addLiquidityAmounts at h
  cases o with
  | none =>
    -- the new pair of dex `0` holds the whole deposit
    simp only [bind_eq_ok, failIf_eq_ok, pure_eq_ok, Prod.mk.injEq] at h
    obtain ⟨-, -, rfl, rfl, rfl, rfl⟩ := h
    refine ⟨.of_pos ?_ ?_, (TradingPair.ratesChecked_newDefault hv a b _).withCounters _ _ _,
      fun q hq => by cases hq⟩
    · show 0 < 0 + maxA
      omega
    · show 0 < 0 + maxB
      omega
  | some q =>
    obtain ⟨hb, hr, hT⟩ := ho q rfl
    dsimp only at h
    split at h
    · -- a first deposit into a pair without shares: no value to keep
      simp only [bind_eq_ok, failIf_eq_ok, pure_eq_ok, Prod.mk.injEq] at h
      obtain ⟨-, -, rfl, rfl, rfl, rfl⟩ := h
      refine ⟨.of_pos ?_ ?_, hr.withCounters _ _ _, fun q' hq' hpos => ?_⟩
      · show 0 < q.tokenAAmount + maxA
        have := hb.tokenAAmount_nonneg
        omega
      · show 0 < q.tokenBAmount + maxB
        have := hb.tokenBAmount_nonneg
        omega
      · cases hq'
        omega
    · -- a deposit at the pair's price
      simp only [bind_eq_ok] at h
      obtain ⟨⟨needA', needB'⟩, -, h⟩ := h
      simp only [pure_eq_ok, Prod.mk.injEq] at h
      obtain ⟨rfl, rfl, rfl, rfl⟩ := h
      have hxA := hb.tokenAAmount_nonneg
      have hxB := hb.tokenBAmount_nonneg
      refine ⟨.of_pos ?_ ?_, hr.withCounters _ _ _, fun q' hq' hpos => ?_⟩
      · show 0 < q.tokenAAmount + needA'
        omega
      · show 0 < q.tokenBAmount + needB'
        omega
      · cases hq'
        dsimp only [pair']
        refine ⟨by omega, ?_⟩
        -- the shares grow by no more than either reserve
        exact ConstantProduct.mul_mul_sq_le_of_scaled hxA hxB (by omega)
          (deposit_scaled hxA hT hA.le (min_le_left _ _))
          (deposit_scaled hxB hT hB.le (min_le_right _ _))

section liquidity

variable {s s' : State} {fromAddr : CUAddress} {dexID : ℕ} {a b : Symbol}

/-- **A deposit keeps the value of every share.** -/
theorem addLiquidity_valued (hv : env.Valid) (hI : SharesInv env s) (hP : PairsInv env s)
    (hF : FundsInv s) {maxA maxB : ℤ}
    (h : addLiquidity env s fromAddr dexID a b maxA maxB = .ok s') : Valued env s s' := by
  simp only [addLiquidity, bind_eq_ok, failIf_eq_ok, pure_eq_ok] at h
  obtain ⟨-, hd, ⟨pair, needA, needB, l⟩, hamounts, -, hneed, -, hl, trk, -, rfl⟩ := h
  dsimp only at hneed hl
  have htarget := hI.pairs_depositTarget hd
  rw [← (addLiquidityAmounts_pair hamounts).1] at htarget
  generalize (s.getTradingPair dexID a b).bind (redirectPublic s a b) = o at htarget hamounts
  -- the pair the deposit starts from is the one stored at the key it writes
  have ho : ∀ q, o = some q → q.Backed ∧ q.RatesChecked env ∧ 0 ≤ q.totalLiquidity := by
    rintro q rfl
    exact ⟨hP.backed _ _ htarget, hP.rates _ _ htarget,
      hI.totalLiquidity_nonneg hv.minimumLiquidity_pos htarget⟩
  obtain ⟨hb, hr, hval⟩ := addLiquidityAmounts_value hv ho hamounts (by omega) (by omega) (by omega)
  exact ⟨hP.of_update hr hb rfl, hF.of_eq rfl rfl rfl,
    .of_update (fun q hq => hval q (htarget.symm.trans hq)) rfl⟩

/-- **A withdrawal keeps the value of every share**, and leaves the pair
with shares and positive reserves: the shares burned are at most the
address's liquidity, below the locked minimum. -/
theorem removeLiquidity_valued (hv : env.Valid) (hI : SharesInv env s) (hP : PairsInv env s)
    (hF : FundsInv s) {l : ℤ} (h : removeLiquidity s fromAddr dexID a b l = .ok s') :
    Valued env s s' := by
  simp only [removeLiquidity, bind_eq_ok, orFail_eq_ok, failIf_eq_ok, pure_eq_ok] at h
  obtain ⟨pair, hpair, pair', hpair', -, hle, -, -, -, hret, trk, -, rfl⟩ := h
  have hcur := hI.pairs_key_of_redirectPublic hpair hpair'
  have hb := hP.backed _ _ hcur
  have hT0 := hI.totalLiquidity_nonneg hv.minimumLiquidity_pos hcur
  -- both amounts paid out are positive, so there are shares to burn
  have hlA : 0 < l * pair'.tokenAAmount := mul_pos_of_mulAndDiv_pos (by omega) hT0
  have hlB : 0 < l * pair'.tokenBAmount := mul_pos_of_mulAndDiv_pos (by omega) hT0
  have hT : s.totalLiquidityAt pair'.key = pair'.totalLiquidity := by
    simp [State.totalLiquidityAt, hcur]
  have haddr : s.getLiquidity fromAddr pair'.dexID pair'.tokenA pair'.tokenB ≤
      s.liquiditySum pair'.key := hI.getLiquidity_le ..
  -- the pair has shares: the locked minimum and the addresses' sum, which
  -- holds the address's liquidity
  have hshares : pair'.totalLiquidity = env.minimumLiquidity + s.liquiditySum pair'.key := by
    rcases hI.shares pair'.key with ⟨h0, -⟩ | hshares
    · rw [hT] at h0
      rw [h0, mulAndDiv_zero_right] at hret
      exact absurd (.inl le_rfl) hret
    · rw [← hT]
      exact hshares
  have hsum := hI.liquiditySum_nonneg pair'.key
  have hpos := hv.minimumLiquidity_pos
  have hTpos : 0 < pair'.totalLiquidity := by omega
  obtain ⟨hA, hB⟩ := hb.pos hTpos
  have hbR : TradingPair.Backed { pair' with
      tokenAAmount := pair'.tokenAAmount - mulAndDiv l pair'.tokenAAmount pair'.totalLiquidity,
      tokenBAmount := pair'.tokenBAmount - mulAndDiv l pair'.tokenBAmount pair'.totalLiquidity,
      totalLiquidity := pair'.totalLiquidity - l } :=
    .of_pos (ConstantProduct.sub_pos_of_withdraw hA hT0 (by omega) (mulAndDiv_bounds hlA.le hT0).2)
      (ConstantProduct.sub_pos_of_withdraw hB hT0 (by omega) (mulAndDiv_bounds hlB.le hT0).2)
  refine ⟨hP.of_update ((hP.rates _ _ hcur).withCounters _ _ _) hbR rfl, hF.of_eq rfl rfl rfl,
    .of_update (fun q hq => ?_) rfl⟩
  obtain rfl := Option.some.inj (hcur.symm.trans hq)
  intro _
  dsimp only
  -- the shares shrink by no more than either reserve, and the minimum stays
  refine ⟨by omega, ?_⟩
  exact ConstantProduct.mul_mul_sq_le_of_scaled hb.tokenAAmount_nonneg hb.tokenBAmount_nonneg
    (by omega) (withdraw_scaled hT0 hlA.le) (withdraw_scaled hT0 hlB.le)

end liquidity

/-! ## Creating and editing pairs -/

/-- What the rate checks of the pair messages accept: each rate given is
not negative. -/
theorem checkRates_eq_ok {lpRewardRate refererRewardRate : Option Dec} {u : Unit}
    (h : checkRates lpRewardRate refererRewardRate = .ok u) :
    (∀ r, lpRewardRate = some r → 0 ≤ r.val) ∧ (∀ r, refererRewardRate = some r → 0 ≤ r.val) := by
  simp only [checkRates, bind_eq_ok, failIf_eq_ok] at h
  obtain ⟨-, hlp, href⟩ := h
  refine ⟨fun r hr => ?_, fun r hr => ?_⟩
  · subst hr
    simp only [Option.map_some, Option.getD_some, rateOutOfRange, Dec.isNegative, Dec.gte,
      Bool.or_eq_true, decide_eq_true_eq, not_or, not_lt] at hlp
    exact hlp.1
  · subst hr
    simp only [Option.map_some, Option.getD_some, rateOutOfRange, Dec.isNegative, Dec.gte,
      Bool.or_eq_true, decide_eq_true_eq, not_or, not_lt] at href
    exact href.1

/-- **The rates a pair of a custom dex is saved with are checked**: its own
rates not negative, and what a swap through it pays at most one. -/
theorem TradingPair.ratesChecked_of_checkPairRates (hv : env.Valid) {pair : TradingPair}
    (hdex : pair.dexID ≠ 0) (hlp : 0 ≤ pair.lpRewardRate.val) (href : 0 ≤ pair.refererRewardRate.val)
    {u : Unit} (h : checkPairRates env pair.isPublic pair.lpRewardRate pair.refererRewardRate = .ok u) :
    pair.RatesChecked env :=
  ⟨hlp, href, (totalFeeRate_le_of_checkPairRates hdex h).trans hv.maxFeeRate_le_one⟩

section pairs

variable {s s' : State}

/-- **A new pair writes no reserve**: it has no shares, at a key where there
was no pair, and its rates are checked. -/
theorem handleMsgCreateTradingPair_valued (hv : env.Valid) (hP : PairsInv env s) (hF : FundsInv s)
    {msg : MsgCreateTradingPair} (hdex : msg.dexID ≠ 0) (hlp : 0 ≤ msg.lpRewardRate.val)
    (href : 0 ≤ msg.refererRewardRate.val) (h : handleMsgCreateTradingPair env s msg = .ok s') :
    Valued env s s' := by
  simp only [handleMsgCreateTradingPair, bind_eq_ok, failIf_eq_ok, pure_eq_ok] at h
  obtain ⟨-, -, ⟨a, b⟩, -, -, hnone, u, hchk, rfl⟩ := h
  have hempty := State.pairs_eq_none_of_getTradingPair (Option.not_isSome_iff_eq_none.mp hnone)
  have hb : (TradingPair.newCustom msg.dexID a b msg.isPublic msg.lpRewardRate
      msg.refererRewardRate).Backed := ⟨le_rfl, le_rfl, fun hT => absurd hT (lt_irrefl 0)⟩
  refine ⟨hP.of_update (TradingPair.ratesChecked_of_checkPairRates hv hdex hlp href hchk) hb rfl,
    hF.of_eq rfl rfl rfl, .of_update (fun q hq => ?_) rfl⟩
  cases hempty.symm.trans hq

/-- **Editing a pair moves no reserve**, and the rates it saves are
checked: each rate is the message's, checked not negative, or the pair's
own. -/
theorem handleMsgEditTradingPair_valued (hv : env.Valid) (hI : SharesInv env s)
    (hP : PairsInv env s) (hF : FundsInv s) {msg : MsgEditTradingPair} (hdex : msg.dexID ≠ 0)
    (hlp : ∀ r, msg.lpRewardRate = some r → 0 ≤ r.val)
    (href : ∀ r, msg.refererRewardRate = some r → 0 ≤ r.val)
    (h : handleMsgEditTradingPair env s msg = .ok s') : Valued env s s' := by
  simp only [handleMsgEditTradingPair, bind_eq_ok, orFail_eq_ok, pure_eq_ok] at h
  obtain ⟨-, -, ⟨a, b⟩, hsort, pair, hpair, pair', hpair', u, hchk, rfl⟩ := h
  have hcur := hI.pairs_key_of_getTradingPair hpair
  have hkey := (hI.getTradingPair_sorted (sortTokens_eq_ok hsort).1 hpair).2
  -- only the flag may change before the rates
  obtain ⟨isPublic, rfl⟩ : ∃ isPublic, pair' = { pair with isPublic := isPublic } := by
    split at hpair'
    · exact ⟨pair.isPublic, (pure_eq_ok.mp hpair').symm⟩
    · simp only [bind_eq_ok, pure_eq_ok] at hpair'
      obtain ⟨-, -, rfl⟩ := hpair'
      exact ⟨_, rfl⟩
  have hb := hP.backed _ _ hcur
  have hr := hP.rates _ _ hcur
  have hrates : TradingPair.RatesChecked env
      { pair with isPublic := isPublic, lpRewardRate := msg.lpRewardRate.getD pair.lpRewardRate,
                  refererRewardRate := msg.refererRewardRate.getD pair.refererRewardRate } := by
    refine TradingPair.ratesChecked_of_checkPairRates hv (fun h0 => hdex ?_) ?_ ?_ hchk
    · rw [← h0]
      exact (congrArg Prod.fst hkey).symm
    · cases hm : msg.lpRewardRate with
      | none => exact hr.lpRewardRate_nonneg
      | some r => exact hlp r hm
    · cases hm : msg.refererRewardRate with
      | none => exact hr.refererRewardRate_nonneg
      | some r => exact href r hm
  refine ⟨hP.of_update hrates ⟨hb.1, hb.2, hb.3⟩ rfl, hF.of_eq rfl rfl rfl,
    .of_update (fun q hq => ?_) rfl⟩
  obtain rfl := Option.some.inj (hcur.symm.trans hq)
  exact fun hT => ⟨hT, le_rfl⟩

end pairs

/-! ## The chain -/

/-- **Every handler keeps the value of every share**, for a message that
passed its basic checks. -/
theorem handle_valued (hv : env.Valid) {s s' : State} (hI : SharesInv env s) (hP : PairsInv env s)
    (hF : FundsInv s) {blockTime : ℤ} {msg : Msg} {u : Unit} (hvb : msg.validateBasic env = .ok u)
    (h : handle env s blockTime msg = .ok s') : Valued env s s' := by
  cases msg with
  | createDex msg =>
    rw [handle, pure_eq_ok] at h
    exact h ▸ (saveDex_traded hF _).valued hP
  | editDex msg =>
    simp only [handle, bind_eq_ok, pure_eq_ok] at h
    obtain ⟨dex, -, rfl⟩ := h
    exact (saveDex_traded hF _).valued hP
  | createTradingPair msg =>
    simp only [Msg.validateBasic, bind_eq_ok, failIf_eq_ok] at hvb
    obtain ⟨-, -, -, hdex, -, -, hrates⟩ := hvb
    obtain ⟨hlp, href⟩ := checkRates_eq_ok hrates
    exact handleMsgCreateTradingPair_valued hv hP hF hdex (hlp _ rfl) (href _ rfl) h
  | editTradingPair msg =>
    simp only [Msg.validateBasic, bind_eq_ok, failIf_eq_ok] at hvb
    obtain ⟨-, -, -, hdex, -, -, hrates⟩ := hvb
    obtain ⟨hlp, href⟩ := checkRates_eq_ok hrates
    exact handleMsgEditTradingPair_valued hv hI hP hF hdex hlp href h
  | addLiquidity msg =>
    simp only [handle, handleMsgAddLiquidity, bind_eq_ok] at h
    obtain ⟨⟨a, b⟩, -, -, -, h⟩ := h
    generalize (if a ≠ msg.tokenA then _ else _ : ℤ × ℤ) = amounts at h
    obtain ⟨maxA, maxB⟩ := amounts
    exact addLiquidity_valued hv hI hP hF h
  | removeLiquidity msg =>
    simp only [handle, handleMsgRemoveLiquidity, bind_eq_ok] at h
    obtain ⟨⟨a, b⟩, -, -, -, h⟩ := h
    exact removeLiquidity_valued hv hI hP hF h
  | swapExactIn msg =>
    simp only [Msg.validateBasic, bind_eq_ok, failIf_eq_ok] at hvb
    obtain ⟨-, -, hpos⟩ := hvb
    exact (handleMsgSwapExactIn_traded env hv hI hP hF (by omega) h).valued hP
  | swapExactOut msg =>
    simp only [Msg.validateBasic, bind_eq_ok, failIf_eq_ok] at hvb
    obtain ⟨-, -, hpos⟩ := hvb
    exact (handleMsgSwapExactOut_traded env hv hI hP hF (by omega) h).valued hP
  | limitSwap msg =>
    simp only [Msg.validateBasic, bind_eq_ok, failIf_eq_ok] at hvb
    obtain ⟨-, -, -, -, -, -, -, -, -, -, -, -, -, hpos, hprice⟩ := hvb
    exact (handleMsgLimitSwap_traded env hv hI hP hF (by omega) (by omega) h).valued hP
  | cancelLimitSwap msg => exact (cancelOrders_traded hF h).valued hP

variable (env) in
/-- **The invariant of the value theorem**: the shares, the pairs and the
funds. -/
structure ValueInv (s : State) : Prop where
  shares : SharesInv env s
  pairs : PairsInv env s
  funds : FundsInv s

theorem PairsInv.init (trk : Balances) : PairsInv env (State.init trk) where
  backed _ _ h := by cases h
  rates _ _ h := by cases h

theorem valueInv_init (trk : Balances) : ValueInv env (State.init trk) where
  shares := sharesInv_init trk
  pairs := PairsInv.init trk
  funds := FundsInv.init trk

/-- **Every event of the chain keeps the invariant and the value of every
share.** A failed transaction or end-blocker leaves the state as it was. -/
theorem valueInv_step (hv : env.Valid) {s : State} (hs : ValueInv env s) (e : Event) :
    ValueInv env (step env s e) ∧ s.ValueLE (step env s e) := by
  have hI := sharesInv_step hv.minimumLiquidity_pos hs.shares e
  suffices h : Valued env s (step env s e) from ⟨⟨hI, h.pairs, h.funded⟩, h.value⟩
  have h₀ : Valued env s s := ⟨hs.pairs, hs.funds, .refl s⟩
  cases e with
  | tx blockTime msg =>
    refine commit_preserves (fun s' h => ?_) h₀
    simp only [deliverTx, bind_eq_ok] at h
    obtain ⟨u, hvb, h⟩ := h
    exact handle_valued hv hs.shares hs.pairs hs.funds hvb h
  | endBlock height blockTime =>
    exact commit_preserves
      (fun _ h => (endBlock_traded env hv hs.shares hs.pairs hs.funds h).valued hs.pairs) h₀
  | restart =>
    exact commit_preserves (fun _ h => (restartNode_traded hs.funds h).valued hs.pairs) h₀

/-- **Along every run, no share loses value.** -/
theorem ValueInv.valueLE_run (hv : env.Valid) {s : State} (hs : ValueInv env s)
    (events : List Event) : s.ValueLE (run (step env) s events) :=
  run_rel State.ValueLE.refl (fun _ _ _ => State.ValueLE.trans)
    (fun _ e h => (valueInv_step hv h e).1) (fun _ e h => (valueInv_step hv h e).2) events hs

/-- **The value of a liquidity share never decreases.** In every state the
chain reaches from an empty store, under valid parameters, a pair with
shares is still stored after any further events, with shares and positive
reserves, and a share of it is worth at least what it was. -/
theorem value_per_share_never_decreases (hv : env.Valid) {trk : Balances} {s : State}
    (hs : Reachable (step env) (State.init trk) s) (events : List Event) {key : PairKey}
    {pair : TradingPair} (hp : s.pairs key = some pair) (hT : 0 < pair.totalLiquidity) :
    ∃ pair', (run (step env) s events).pairs key = some pair' ∧ 0 < pair'.totalLiquidity ∧
      0 < pair'.tokenAAmount ∧ 0 < pair'.tokenBAmount ∧
      pair.valuePerShare ≤ pair'.valuePerShare := by
  have hinv : ValueInv env s :=
    hs.invariant (valueInv_init trk) (fun _ e h => (valueInv_step hv h e).1)
  have hinv' : ValueInv env (run (step env) s events) :=
    run_invariant (I := ValueInv env) (fun _ e h => (valueInv_step hv h e).1) events hinv
  obtain ⟨pair', hp', hle⟩ := hinv.valueLE_run hv events key pair hp
  obtain ⟨hT', -⟩ := hle hT
  obtain ⟨hA', hB'⟩ := (hinv'.pairs.backed key pair' hp').pos hT'
  exact ⟨pair', hp', hT', hA', hB', hle.valuePerShare_le hT⟩

/-- The pair `bob` opened in the block of `Expiry`, after `carol` swaps `5`
`btc` through it in the next block. -/
theorem value_per_share_after_carols_swap :
    expiryEnv.Valid ∧ Reachable (step expiryEnv) (State.init expiryGenesis) afterCancel ∧
      afterCancel.pairs (0, "btc", "usdt") =
        some ⟨0, "btc", "usdt", 2000, 2000, 2000, true, Dec.zero, Dec.zero⟩ ∧
      ∃ pair', (run (step expiryEnv) afterCancel
          [.tx 100 (.swapExactIn ⟨"carol", 0, "carol", "carol", 5, 1, ["btc", "usdt"], 0⟩),
            .endBlock 2 100]).pairs (0, "btc", "usdt") = some pair' ∧
        0 < pair'.totalLiquidity ∧ 0 < pair'.tokenAAmount ∧ 0 < pair'.tokenBAmount ∧
        TradingPair.valuePerShare ⟨0, "btc", "usdt", 2000, 2000, 2000, true, Dec.zero, Dec.zero⟩ ≤
          pair'.valuePerShare := by
  have hv : expiryEnv.Valid :=
    ⟨by decide, by decide, by decide, by decide, by decide, by decide, by decide, by decide⟩
  have hp : afterCancel.pairs (0, "btc", "usdt") =
      some ⟨0, "btc", "usdt", 2000, 2000, 2000, true, Dec.zero, Dec.zero⟩ := by
    decide +kernel
  exact ⟨hv, ⟨_, rfl⟩, hp, value_per_share_never_decreases hv ⟨_, rfl⟩ _ hp (by decide)⟩

/-! ## The matching loop ends on every market the chain reaches

`matchMarket_terminates` needs every order of the market to have a positive
fee coefficient `1 - TotalFeeRate`. `Params.Validate` allows rates that
add up to `1`, but `LimitSwap` refuses an order whose coefficient is not
positive, since its output would not be (`coeff_pos_of_amountOut_pos`), and
nothing afterwards changes an order's rates. So the funds invariant holds
in every state the chain reaches, the books filed, and the end blocker
keeps it up to the loop of each market (`endBlock_traded`). -/

/-- The books of a state that keeps the funds invariant are filed. -/
theorem FundsInv.filed {s : State} (hF : FundsInv s) {key : String} {mk : Market}
    (hm : s.manager.markets.get key = some mk) : mk.Filed key :=
  (hF.book key mk hm).2

/-- **The matching loop ends on every market the chain reaches.** Under
valid parameters, every state the chain reaches from an empty store keeps
the funds invariant: every order of the store has a positive fee
coefficient, and every market of the book is filed, its orders with
non-negative locked funds and positive coefficients. From any state that
keeps the invariant, the loop of a market, against any pair, ends within
`matchingFuel` rounds, and every round that swaps leaves the market filed
with strictly less locked. -/
theorem matchMarket_terminates_reachable (hv : env.Valid) (blockTime : ℤ) :
    (∀ {trk : Balances} {s : State}, Reachable (step env) (State.init trk) s →
      FundsInv s ∧
        (∀ orderID order, s.orders.get orderID = some order →
          0 < (Dec.one.sub order.feeRate.totalFeeRate).val) ∧
        ∀ key mk, s.manager.markets.get key = some mk → mk.Filed key) ∧
    ∀ {s : State} {m mk : Market} (pair : TradingPair), FundsInv s →
      s.manager.markets.get (formatKey m.dexID m.baseSymbol m.quoteSymbol) = some mk →
      (∀ fuel, matchingFuel (s.manager.currentMarket m) ≤ fuel →
          matchMarket env blockTime m fuel pair s =
            matchMarket env blockTime m (matchingFuel (s.manager.currentMarket m)) pair s) ∧
        (∀ res, matchRound env blockTime m pair s = .ok res → res.2.2.1 = true →
          ∃ mk', (removeFinishedOrders res.2.1 res.2.2.2).manager.markets.get
                (formatKey m.dexID m.baseSymbol m.quoteSymbol) = some mk' ∧
            mk'.Filed (formatKey m.dexID m.baseSymbol m.quoteSymbol) ∧
            mk'.lockedFunds < mk.lockedFunds) := by
  refine ⟨fun {trk s} hs => ?_, fun pair hF hm => matchMarket_terminates env blockTime pair hm (hF.filed hm)⟩
  -- the funds invariant is part of the invariant of the value theorem
  have hF : FundsInv s :=
    (hs.invariant (valueInv_init trk) (fun _ e h => (valueInv_step hv h e).1)).funds
  exact ⟨hF, fun orderID order h => (hF.orders orderID order h).coeff_pos,
    fun key mk hm => hF.filed hm⟩

/-! ## The matching never divides by zero on a state the chain reaches

`Quo` panics on a zero divisor, and the matching divides twice for each
order it offers: `calLimitSwapAmount` by the price of a sell order, and
`limitSwap` by the fee coefficient. Every order in the book of a state
that keeps the funds invariant has a positive price, which `ValidateBasic`
checks, and a positive coefficient, which `LimitSwap` checks; so no
division of the matching is by zero, and `MatchingOrders` returns. -/

section noPanic

end noPanic

/-- The market of `alice`'s and `carol`'s orders, once `alice` has
cancelled her first: it holds orders, and its loop ends within its fuel. -/
theorem matching_terminates_after_cancel :
    expiryEnv.Valid ∧ Reachable (step expiryEnv) (State.init expiryGenesis) afterCancel ∧
      ∃ mk, afterCancel.manager.markets.get (formatKey 0 "btc" "usdt") = some mk ∧
        matchingFuel mk = 31 ∧
        ∀ fuel, 31 ≤ fuel →
          matchMarket expiryEnv 100 (Market.new 0 "btc" "usdt") fuel
              ⟨0, "btc", "usdt", 2000, 2000, 2000, true, Dec.zero, Dec.zero⟩ afterCancel =
            matchMarket expiryEnv 100 (Market.new 0 "btc" "usdt") 31
              ⟨0, "btc", "usdt", 2000, 2000, 2000, true, Dec.zero, Dec.zero⟩ afterCancel := by
  have hv : expiryEnv.Valid :=
    ⟨by decide, by decide, by decide, by decide, by decide, by decide, by decide, by decide⟩
  have hs : Reachable (step expiryEnv) (State.init expiryGenesis) afterCancel := ⟨_, rfl⟩
  have hsome : (afterCancel.manager.markets.get (formatKey 0 "btc" "usdt")).isSome := by decide +kernel
  obtain ⟨mk, hm⟩ := Option.isSome_iff_exists.mp hsome
  have hfuel : matchingFuel mk = 31 := by
    have hcur : afterCancel.manager.currentMarket (Market.new 0 "btc" "usdt") = mk := by
      rw [Manager.currentMarket, show formatKey (Market.new 0 "btc" "usdt").dexID
        (Market.new 0 "btc" "usdt").baseSymbol (Market.new 0 "btc" "usdt").quoteSymbol =
          formatKey 0 "btc" "usdt" from rfl, hm, Option.getD_some]
    rw [← hcur]
    decide +kernel
  have h := matchMarket_terminates_reachable hv 100
  refine ⟨hv, hs, mk, hm, hfuel, fun fuel hle => ?_⟩
  have hcur : afterCancel.manager.currentMarket (Market.new 0 "btc" "usdt") = mk := by
    rw [Manager.currentMarket, show formatKey (Market.new 0 "btc" "usdt").dexID
      (Market.new 0 "btc" "usdt").baseSymbol (Market.new 0 "btc" "usdt").quoteSymbol =
        formatKey 0 "btc" "usdt" from rfl, hm, Option.getD_some]
  have hloop := (h.2 (m := Market.new 0 "btc" "usdt") ⟨0, "btc", "usdt", 2000, 2000, 2000, true, Dec.zero, Dec.zero⟩
    (h.1 hs).1 hm).1 fuel (by rw [hcur, hfuel]; exact hle)
  rw [hcur, hfuel] at hloop
  exact hloop

end Openswap
