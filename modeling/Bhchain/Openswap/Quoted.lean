import Mathlib
import Bhchain.Openswap.Value
import Bhchain.Openswap.Quotes

/-!
# A swap through distinct pairs pays at least its quote

`SwapExactIn` checks its `MinAmountOut` against `getAmountOut`, which
prices every hop on the reserves of the store before the swap, and then
swaps hop by hop. `Quotes` shows a path that comes back to a pair it
already used and is paid less than the quote. This module proves the
other side: on a path whose hops trade on pairwise different pairs
(`DistinctHops`), every hop pays at least what the quote priced it at, and
the receiver is credited at least `MinAmountOut`
(`swapExactIn_pays_min_amount_out`).

Two roundings meet at each hop. The quote takes the input after the fee,
rounded down once; the swap rounds each of its three fees down by itself,
so that what it puts into the curve is never less (`quoteIn_le_realAmountIn`).
The output `x · y / (x + r)` of the curve grows with its input
(`ConstantProduct.ediv_le_ediv_of_input_le`). Between the hops the pairs of
the store differ from those the quote read by trades only, so that each
hop finds a pair with the rates the quote used, and the pair it trades on
is still as the quote read it (`hop_agrees`).
-/

namespace Openswap

open Sdk Transfer KVStore Transition

variable {env : Env}

/-! ## The pairs of a path -/

/-- **The pairs a swap along a path trades on**, by key, as a store holds
them: for each hop, the pair its two tokens find in the dex, or the pair of
dex `0` that a public pair of another dex stands for. -/
def hopKeys (s : State) (dexID : ℕ) : List Symbol → Option (List PairKey)
  | tokenIn :: tokenOut :: path => do
    let pair ← s.getTradingPair dexID tokenIn tokenOut
    let pair ← redirectPublic s tokenIn tokenOut pair
    let keys ← hopKeys s dexID (tokenOut :: path)
    pure (pair.key :: keys)
  | _ => some []

/-- **A path through distinct pairs**: no two of its hops trade on the same
pair. -/
def DistinctHops (s : State) (dexID : ℕ) (path : List Symbol) : Prop :=
  ∀ keys ∈ hopKeys s dexID path, keys.Nodup

instance (s : State) (dexID : ℕ) (path : List Symbol) : Decidable (DistinctHops s dexID path) :=
  inferInstanceAs (Decidable (∀ keys ∈ hopKeys s dexID path, keys.Nodup))

/-- The pairs of a path read only the pairs of the store. -/
theorem hopKeys_congr {s t : State} (h : t.pairs = s.pairs) (dexID : ℕ) :
    ∀ path, hopKeys t dexID path = hopKeys s dexID path
  | tokenIn :: tokenOut :: path => by
    have hg : ∀ d a b, t.getTradingPair d a b = s.getTradingPair d a b := fun d a b => by
      simp only [State.getTradingPair, h]
    have hr : ∀ a b p, redirectPublic t a b p = redirectPublic s a b p := fun a b p => by
      simp only [redirectPublic, hg]
    simp only [hopKeys, hg, hr, hopKeys_congr h dexID (tokenOut :: path)]
  | [] => rfl
  | [_] => rfl

/-- **A path the quote prices has its pairs**: every hop finds a pair, and
the pair of dex `0` it may stand for, since the quote reads positive
reserves from it. -/
theorem hopKeys_of_getAmountOut {s : State} {dexID : ℕ} :
    ∀ (path : List Symbol) {q out : ℤ}, getAmountOut env s dexID q path = .ok out →
      ∃ keys, hopKeys s dexID path = some keys
  | tokenIn :: tokenOut :: path, q, out, h => by
    simp only [getAmountOut, bind_eq_ok, orFail_eq_ok, failIf_eq_ok] at h
    obtain ⟨pair, hpair, -, hres, h⟩ := h
    obtain ⟨keys, hkeys⟩ := hopKeys_of_getAmountOut (tokenOut :: path) h
    cases hr : redirectPublic s tokenIn tokenOut pair with
    | none =>
      -- without a pair to trade on, the reserves read are zero
      simp [getReserves, hr] at hres
    | some pair' => exact ⟨pair'.key :: keys, by simp [hopKeys, hpair, hr, hkeys]⟩
  | [], _, _, _ => ⟨[], rfl⟩
  | [_], _, _, _ => ⟨[], rfl⟩

/-! ## Stores whose pairs differ by trades -/

/-- Looking a pair up in two stores whose pairs differ by trades finds two
pairs that differ by a trade. -/
theorem getTradingPair_rel {s t : State}
    (hR : ∀ key, Option.Rel TradingPair.Trade (s.pairs key) (t.pairs key)) (dexID : ℕ)
    (a b : Symbol) :
    Option.Rel TradingPair.Trade (s.getTradingPair dexID a b) (t.getTradingPair dexID a b) := by
  have h₁ := hR (dexID, a, b)
  have h₂ := hR (dexID, b, a)
  unfold State.getTradingPair
  generalize s.pairs (dexID, a, b) = o at h₁ ⊢
  generalize t.pairs (dexID, a, b) = o' at h₁ ⊢
  cases h₁ with
  | none => exact h₂
  | some h => exact .some h

/-- A trade keeps the rates a pair pays. -/
theorem getFeeRates_of_trade {pair pair' : TradingPair} (ht : pair.Trade pair') :
    getFeeRates env pair' = getFeeRates env pair := by
  rw [ht.eq]
  rfl

/-- **A later hop finds what the quote found.** When the pairs of `t` differ
from those of `s` by trades, and the pair a hop trades on in `s` is stored
in `t` as it was, the hop finds in `t` a pair with the same rates, and
trades on the same pair. -/
theorem hop_agrees {s t : State} (hIs : SharesInv env s) (hIt : SharesInv env t)
    (hR : ∀ key, Option.Rel TradingPair.Trade (s.pairs key) (t.pairs key)) {dexID : ℕ}
    {tokenIn tokenOut : Symbol} {pair pair' : TradingPair}
    (hp : s.getTradingPair dexID tokenIn tokenOut = some pair)
    (hr : redirectPublic s tokenIn tokenOut pair = some pair')
    (hsame : t.pairs pair'.key = s.pairs pair'.key) :
    ∃ q, t.getTradingPair dexID tokenIn tokenOut = some q ∧
      getFeeRates env q = getFeeRates env pair ∧ redirectPublic t tokenIn tokenOut q = some pair' := by
  have hrel := getTradingPair_rel hR
  have hg := hrel dexID tokenIn tokenOut
  rw [hp] at hg
  obtain ⟨q, hq, ht⟩ := optionRel_of_some_left hg
  refine ⟨q, hq, getFeeRates_of_trade ht, ?_⟩
  have hcur := hIs.pairs_key_of_redirectPublic hp hr
  -- a trade keeps whether the pair stands for one of dex `0`
  have hflag : (q.isPublic = true ∧ q.dexID ≠ 0) ↔ (pair.isPublic = true ∧ pair.dexID ≠ 0) := by
    rw [ht.eq]
  unfold redirectPublic at hr ⊢
  by_cases hpub : pair.isPublic = true ∧ pair.dexID ≠ 0
  · rw [if_pos hpub] at hr
    rw [if_pos (hflag.mpr hpub)]
    have h0 := hrel 0 tokenIn tokenOut
    rw [hr] at h0
    obtain ⟨r, hr', htr⟩ := optionRel_of_some_left h0
    -- the pair found in `t` is stored at the key of the one found in `s`
    have hstored := hIt.pairs_key_of_getTradingPair hr'
    rw [htr.key_eq, hsame, hcur, Option.some.injEq] at hstored
    rw [hr', hstored]
  · rw [if_neg hpub, Option.some.injEq] at hr
    subst hr
    rw [if_neg (mt hflag.mp hpub)]
    have hstored := hIt.pairs_key_of_getTradingPair hq
    rw [ht.key_eq, hsame, hcur, Option.some.injEq] at hstored
    rw [hstored]

/-! ## One hop -/

variable (env) in
/-- **The swap puts at least the quoted input into the curve.** The quote
takes the input after the fee, rounded down once; the swap rounds each of
its three fees down by itself, and keeps or moves the repurchase fund
without changing their sum. -/
theorem quoteIn_le_realAmountIn (s : State) {f : FeeRate} (hf : f.Bounded) (tokenIn : Symbol)
    {a : ℤ} (ha : 0 ≤ a) :
    let fees := swapFees env s f tokenIn a false
    ((Dec.ofInt a).mul (Dec.one.sub f.totalFeeRate)).truncateInt ≤
      a - fees.1 - fees.2.1 - fees.2.2 := by
  obtain ⟨-, hq⟩ := Dec.truncateInt_mul_bounds ha hf.coeff_nonneg
  obtain ⟨-, hlp⟩ := Dec.truncateInt_mul_bounds ha hf.lpRewardRate_nonneg
  obtain ⟨-, hrep⟩ := Dec.truncateInt_mul_bounds ha hf.repurchaseRate_nonneg
  obtain ⟨-, href⟩ := Dec.truncateInt_mul_bounds ha hf.refererRewardRate_nonneg
  simp only [swapFees, Bool.false_eq_true, ↓reduceIte]
  generalize ((Dec.ofInt a).mul (Dec.one.sub f.totalFeeRate)).truncateInt = q at hq ⊢
  simp only [Dec.sub, Dec.one, val_totalFeeRate] at hq
  generalize ((Dec.ofInt a).mul f.lpRewardRate).truncateInt = lp at hlp ⊢
  generalize ((Dec.ofInt a).mul f.repurchaseRate).truncateInt = rep at hrep ⊢
  generalize ((Dec.ofInt a).mul f.refererRewardRate).truncateInt = ref at href ⊢
  -- the quoted input and the three fees together are at most the input
  have hsum : (q + lp + rep + ref) * precisionInt ≤ a * precisionInt := by
    linear_combination hq + hlp + hrep + href
  have hle := le_of_mul_le_mul_right hsum precisionInt_pos
  split <;> dsimp only <;> omega

/-- **The curve pays more for more**: its output `mulAndDiv x y (x + r)`
grows with the input `x`. -/
theorem mulAndDiv_le_of_input_le {x x' y r : ℤ} (hx : 0 ≤ x) (hxx' : x ≤ x') (hy : 0 ≤ y)
    (hr : 0 < r) : mulAndDiv x y (r + x) ≤ mulAndDiv x' y (x' + r) := by
  unfold mulAndDiv
  rw [Int.tdiv_eq_ediv_of_nonneg (Int.mul_nonneg hx hy),
    Int.tdiv_eq_ediv_of_nonneg (Int.mul_nonneg (hx.trans hxx') hy), add_comm r x]
  exact ConstantProduct.ediv_le_ediv_of_input_le hx hxx' hy hr

/-- The constant-product step pays at least the quote's output at the same
reserves, for an input at least the quote's. -/
theorem quoteOut_le_swapPair {pair : TradingPair} {tokenIn : Symbol} {rIn rOut : ℤ}
    (hrs : (if tokenIn = pair.tokenA then (pair.tokenAAmount, pair.tokenBAmount)
      else (pair.tokenBAmount, pair.tokenAAmount)) = (rIn, rOut))
    (hIn : 0 < rIn) (hOut : 0 < rOut) {x realAmountIn : ℤ} (lpReward : ℤ) (hx : 0 ≤ x)
    (hle : x ≤ realAmountIn) :
    mulAndDiv x rOut (rIn + x) ≤ (swapPair pair tokenIn realAmountIn lpReward).1 := by
  unfold swapPair
  by_cases h : tokenIn = pair.tokenA
  · rw [if_pos h, Prod.mk.injEq] at hrs
    obtain ⟨rfl, rfl⟩ := hrs
    rw [if_pos h.symm]
    exact mulAndDiv_le_of_input_le hx hle hOut.le hIn
  · rw [if_neg h, Prod.mk.injEq] at hrs
    obtain ⟨rfl, rfl⟩ := hrs
    rw [if_neg (Ne.symm h)]
    exact mulAndDiv_le_of_input_le hx hle hOut.le hIn

/-- What a swap pays out: the constant-product step on the input after the
fees. -/
theorem swap_amountOut (s : State) (f : FeeRate) (pair : TradingPair) (tokenIn : Symbol)
    (amountIn : ℤ) (isRepurchasing : Bool) :
    let fees := swapFees env s f tokenIn amountIn isRepurchasing
    (swap env s f pair tokenIn amountIn isRepurchasing).1.amountOut =
      (swapPair pair tokenIn (amountIn - fees.1 - fees.2.1 - fees.2.2) fees.1).1 := by
  unfold swap
  generalize swapFees env s f tokenIn amountIn isRepurchasing = fees
  obtain ⟨lp, ref, rep⟩ := fees
  dsimp only

/-! ## The hops -/

/-- The hops of a swap write pairs only: the balances stay as they were. -/
theorem swapHops_trk (dexID : ℕ) : ∀ (path : List Symbol) {h h' : HopState},
    swapHops env dexID h path = .ok h' → h'.s.trk = h.s.trk
  | tokenIn :: tokenOut :: path, h, h', hs => by
    simp only [swapHops, bind_eq_ok, orFail_eq_ok] at hs
    obtain ⟨pair, -, pair', -, hs⟩ := hs
    exact (swapHops_trk dexID (tokenOut :: path) hs).trans (by rw [swap_state]; rfl)
  | [], _, _, hs => by
    cases hs
    rfl
  | [_], _, _, hs => by
    cases hs
    rfl

section hops

variable (env) (hv : env.Valid) (dexID : ℕ)

include hv in
/-- **Hops on distinct pairs pay at least the quote.** The quote reads the
store `s`; the hops run from a store whose pairs differ from those of `s`
by trades, and whose pairs still to be traded on are those of `s`. For an
input at least the quoted one, the hops end with an amount at least the
quote's: each hop finds the rates the quote used, trades on the pair the
quote read, and, paying more for more, keeps the order. -/
theorem swapHops_pays_quote {s : State} (hIs : SharesInv env s) (hPs : PairsInv env s) :
    ∀ (path : List Symbol) (keys : List PairKey) {h h' : HopState} {q out : ℤ},
      hopKeys s dexID path = some keys → keys.Nodup →
      SharesInv env h.s → PairsInv env h.s → Traded s h.s →
      (∀ key ∈ keys, h.s.pairs key = s.pairs key) → 0 ≤ q → q ≤ h.amountIn →
      getAmountOut env s dexID q path = .ok out → swapHops env dexID h path = .ok h' →
      out ≤ h'.amountIn
  | tokenIn :: tokenOut :: path, keys, h, h', q, out, hk, hnd, hI, hP, ht, hsame, hq, hqa, hout, hs => by
    -- the pair of the hop, as the quote read it
    simp only [hopKeys, Option.bind_eq_bind, Option.bind_eq_some_iff, Option.pure_def,
      Option.some.injEq] at hk
    obtain ⟨pair, hpair, pair', hpair', keys', hk', rfl⟩ := hk
    have hcur := hIs.pairs_key_of_redirectPublic hpair hpair'
    have hsame' : h.s.pairs pair'.key = s.pairs pair'.key := hsame _ List.mem_cons_self
    have hf := (hPs.rates _ _ (hIs.pairs_key_of_getTradingPair hpair)).bounded hv
    -- the quote's hop
    simp only [getAmountOut, bind_eq_ok, orFail_eq_ok, failIf_eq_ok, hpair, Option.some.injEq,
      exists_eq_left'] at hout
    obtain ⟨-, hres, hout⟩ := hout
    simp only [getReserves, hpair'] at hres hout
    generalize hrs : (if tokenIn = pair'.tokenA then (pair'.tokenAAmount, pair'.tokenBAmount)
      else (pair'.tokenBAmount, pair'.tokenAAmount)) = reserves at hres hout
    obtain ⟨rIn, rOut⟩ := reserves
    dsimp only at hres hout
    -- the swap's hop finds the same rates and the same pair
    obtain ⟨p, hp, hfee, hp'⟩ := hop_agrees hIs hI ht.pairs hpair hpair' hsame'
    simp only [swapHops, bind_eq_ok, orFail_eq_ok, hp, hp', Option.some.injEq, exists_eq_left',
      hfee] at hs
    have hcur' : h.s.pairs pair'.key = some pair' := hsame'.trans hcur
    obtain ⟨h₁, -, -, -, -⟩ := swap_traded env hcur' ht.funded hf tokenIn (hq.trans hqa) false
    have hsh := swap_sameShares env hcur' (getFeeRates env pair) tokenIn h.amountIn false
    have hkey : (swap env h.s (getFeeRates env pair) pair' tokenIn h.amountIn false).1.pair.key =
        pair'.key := (swap_pair_sameShares ..).1
    have hstate : (swap env h.s (getFeeRates env pair) pair' tokenIn h.amountIn false).2.pairs =
        Function.update h.s.pairs pair'.key
          (some (swap env h.s (getFeeRates env pair) pair' tokenIn h.amountIn false).1.pair) := by
      rw [swap_state, State.pairs_saveTradingPair, hkey]
    -- what the quote puts into the curve is at most what the swap puts in
    have hx : 0 ≤ ((Dec.ofInt q).mul (getRealInCoeff env pair)).truncateInt :=
      (Dec.truncateInt_mul_bounds hq hf.coeff_nonneg).1
    have hxle : ((Dec.ofInt q).mul (getRealInCoeff env pair)).truncateInt ≤
        h.amountIn - (swapFees env h.s (getFeeRates env pair) tokenIn h.amountIn false).1 -
          (swapFees env h.s (getFeeRates env pair) tokenIn h.amountIn false).2.1 -
          (swapFees env h.s (getFeeRates env pair) tokenIn h.amountIn false).2.2 :=
      (Dec.truncateInt_mul_mono hq hqa hf.coeff_nonneg).trans
        (quoteIn_le_realAmountIn env h.s hf tokenIn (hq.trans hqa))
    -- so the hop pays at least the quote's output
    have hstep := quoteOut_le_swapPair hrs (by omega) (by omega)
      (swapFees env h.s (getFeeRates env pair) tokenIn h.amountIn false).1 hx hxle
    rw [← swap_amountOut] at hstep
    have hx₁ : 0 ≤ mulAndDiv ((Dec.ofInt q).mul (getRealInCoeff env pair)).truncateInt rOut
        (rIn + ((Dec.ofInt q).mul (getRealInCoeff env pair)).truncateInt) :=
      (mulAndDiv_bounds (Int.mul_nonneg hx (by omega)) (by omega)).1
    generalize swap env h.s (getFeeRates env pair) pair' tokenIn h.amountIn false = r
      at h₁ hsh hs hstate hstep
    -- the pairs still to be traded on are those the quote read
    have hsame₁ : ∀ key ∈ keys', r.2.pairs key = s.pairs key := by
      intro key hkey'
      have hne : key ≠ pair'.key := fun he => (List.nodup_cons.mp hnd).1 (he ▸ hkey')
      rw [hstate, Function.update_of_ne hne]
      exact hsame key (List.mem_cons_of_mem _ hkey')
    exact swapHops_pays_quote hIs hPs (tokenOut :: path) keys' hk' (List.nodup_cons.mp hnd).2
      (hI.sameShares hsh.1) (hP.traded h₁) (ht.trans h₁) hsame₁ hx₁ hstep hout hs
  | [], _, _, _, _, _, _, _, _, _, _, _, _, hqa, hout, hs => by
    cases hout
    cases hs
    exact hqa
  | [_], _, _, _, _, _, _, _, _, _, _, _, _, hqa, hout, hs => by
    cases hout
    cases hs
    exact hqa

include hv in
/-- **A direct swap along distinct pairs credits the receiver at least the
quote**, when the receiver is not the sender: the hops end with at least
the quote, which the receiver is paid, and the referer's bonus takes from
no one. -/
theorem directSwap_pays_quote {s s' : State} (hI : SharesInv env s) (hP : PairsInv env s)
    (hF : FundsInv s) {fromAddr referer receiver : CUAddress} (hrecv : receiver ≠ fromAddr)
    {amountIn out : ℤ} (ha : 0 ≤ amountIn) {path : List Symbol} {tokenOut : Symbol}
    (hlast : path.getLast? = some tokenOut) (hd : DistinctHops s dexID path)
    (hq : getAmountOut env s dexID amountIn path = .ok out) (hpos : 0 < out)
    (h : directSwap env s dexID fromAddr referer receiver amountIn path = .ok s') :
    s.trk.getBalance receiver tokenOut + out ≤ s'.trk.getBalance receiver tokenOut := by
  simp only [directSwap, bind_eq_ok, orFail_eq_ok, pure_eq_ok] at h
  obtain ⟨tokenIn, -, trk, htrk, hops, hhops, tokenOut', hlast', trk', htrk', trk'', htrk'', rfl⟩ := h
  rw [hlast, Option.some.injEq] at hlast'
  subst hlast'
  -- the hops pay at least the quote
  obtain ⟨keys, hkeys⟩ := hopKeys_of_getAmountOut path hq
  have h₀ : Traded s { s with trk := trk } := .of_pairs_eq rfl (hF.of_eq rfl rfl rfl)
  have hout := swapHops_pays_quote env hv dexID hI hP path keys hkeys (hd keys hkeys)
    (hI.sameShares (.of_eq rfl rfl rfl)) (hP.traded h₀) h₀ (fun _ _ => rfl) ha le_rfl hq hhops
  -- the receiver's balance: untouched by the sender's payment and the hops, then credited
  have hrecv₀ : trk.getBalance receiver tokenOut = s.trk.getBalance receiver tokenOut :=
    Balances.getBalance_of_subCoin_of_ne htrk hrecv tokenOut
  have htrk₁ := swapHops_trk dexID path hhops
  rw [if_pos (by omega : 0 < hops.amountIn)] at htrk'
  have hcredit := Balances.getBalance_of_addCoin htrk'
  have hbonus : trk'.getBalance receiver tokenOut ≤ trk''.getBalance receiver tokenOut := by
    split at htrk''
    · exact Balances.getBalance_le_of_addCoins htrk'' receiver tokenOut
    · rw [pure_eq_ok] at htrk''
      rw [htrk'']
  rw [htrk₁] at hcredit
  rw [State.addRepurchaseFunds_eq]
  dsimp only at hcredit ⊢
  omega

end hops

/-! ## The transaction -/

/-- **A swap through distinct pairs pays at least `MinAmountOut`.** In
every state the chain reaches under valid parameters, a `MsgSwapExactIn`
that goes through, along a path whose hops trade on pairwise different
pairs, credits its receiver, when that is not the sender, with at least
`MinAmountOut` of the last token of the path. -/
theorem swapExactIn_pays_min_amount_out (hv : env.Valid) {trk : Balances} {s : State}
    (hs : Reachable (step env) (State.init trk) s) {blockTime : ℤ} {msg : MsgSwapExactIn}
    {tokenOut : Symbol} (hlast : msg.swapPath.getLast? = some tokenOut)
    (hd : DistinctHops s msg.dexID msg.swapPath) (hrecv : msg.receiver ≠ msg.fromAddr)
    (hok : (deliverTx env blockTime (.swapExactIn msg) s).isOk) :
    s.trk.getBalance msg.receiver tokenOut + msg.minAmountOut ≤
      (step env s (.tx blockTime (.swapExactIn msg))).trk.getBalance msg.receiver tokenOut := by
  have hinv : ValueInv env s :=
    hs.invariant (valueInv_init trk) (fun _ e h => (valueInv_step hv h e).1)
  obtain ⟨s', hs'⟩ : ∃ s', deliverTx env blockTime (.swapExactIn msg) s = .ok s' := by
    revert hok
    cases deliverTx env blockTime (.swapExactIn msg) s with
    | ok s' => exact fun _ => ⟨s', rfl⟩
    | error e => exact fun h => absurd h Bool.false_ne_true
  rw [show step env s (.tx blockTime (.swapExactIn msg)) = s' from commit_of_ok hs']
  simp only [deliverTx, bind_eq_ok] at hs'
  obtain ⟨u, hvb, h⟩ := hs'
  simp only [Msg.validateBasic, bind_eq_ok, failIf_eq_ok] at hvb
  obtain ⟨-, -, hpos⟩ := hvb
  simp only [handle, handleMsgSwapExactIn, bind_eq_ok] at h
  obtain ⟨-, -, -, -, ⟨referer, s₁⟩, hs₁, h⟩ := h
  -- binding a referer writes neither a pair nor a balance
  have hkeep : s₁.pairs = s.pairs ∧ s₁.trk = s.trk := by
    rcases swapReferer_state hs₁ with rfl | rfl
    · exact ⟨rfl, rfl⟩
    · unfold State.bindReferer
      split <;> exact ⟨rfl, rfl⟩
  have ht₁ := swapReferer_traded hinv.funds hs₁
  have hd₁ : DistinctHops s₁ msg.dexID msg.swapPath := by
    unfold DistinctHops
    rw [hopKeys_congr hkeep.1]
    exact hd
  simp only [swapExactIn, bind_eq_ok, failIf_eq_ok] at h
  obtain ⟨out, hq, -, hmin, h⟩ := h
  have hpay := directSwap_pays_quote env hv msg.dexID
    (hinv.shares.sameShares (swapReferer_sameShares hs₁)) (hinv.pairs.traded ht₁) ht₁.funded hrecv
    (by omega) hlast hd₁ hq (by omega) h
  rw [hkeep.2] at hpay
  omega

/-- `alice`'s swap of `500` `btc` to `eth` through the pairs `bob` opened,
asking for its quote of `333`, which `carol` receives. -/
theorem swapExactIn_pays_min_amount_out_on_cycle_pools :
    quoteEnv.Valid ∧ Reachable (step quoteEnv) (State.init quoteGenesis) cyclePools ∧
      DistinctHops cyclePools 0 ["btc", "usdt", "eth"] ∧
      (deliverTx quoteEnv 1 (.swapExactIn ⟨"alice", 0, "dave", "carol", 500, 333,
        ["btc", "usdt", "eth"], 0⟩) cyclePools).isOk ∧
      cyclePools.trk.getBalance "carol" "eth" + 333 ≤
        (step quoteEnv cyclePools (.tx 1 (.swapExactIn ⟨"alice", 0, "dave", "carol", 500, 333,
          ["btc", "usdt", "eth"], 0⟩))).trk.getBalance "carol" "eth" := by
  have hv : quoteEnv.Valid :=
    ⟨by decide, by decide, by decide, by decide, by decide, by decide, by decide, by decide⟩
  have hd : DistinctHops cyclePools 0 ["btc", "usdt", "eth"] := by decide +kernel
  have hok : (deliverTx quoteEnv 1 (.swapExactIn ⟨"alice", 0, "dave", "carol", 500, 333,
      ["btc", "usdt", "eth"], 0⟩) cyclePools).isOk := by decide +kernel
  exact ⟨hv, ⟨_, rfl⟩, hd, hok,
    swapExactIn_pays_min_amount_out hv ⟨_, rfl⟩ rfl hd (by decide) hok⟩

end Openswap
