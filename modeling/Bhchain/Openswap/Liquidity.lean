import Bhchain.Openswap.Expiry
import Bhchain.Openswap.Shares

/-!
# The calls that issue and burn shares

`CreateTradingPair`, `AddLiquidity` and `RemoveLiquidity` are the only
calls that write a share counter. A new pair starts with no liquidity, at
a key where there was none. A deposit or a withdrawal writes the pair, the
address's liquidity and the mining total share, each moved by the same
amount (`SharesInv.saveShares`); the first deposit also locks the minimum
liquidity in the pair's total, which no withdrawal can reach, since an
address holds at most the sum of all addresses.

The handlers pass the tokens sorted; the pair a deposit or withdrawal
works on, whether the one looked up or the pair of dex `0` that a public
pair stands for, is then stored under those tokens (`liquidityTarget`),
so that the key under which the pair is written is the one under which
its liquidity is.

With the calls of `Shares`, every event of the chain keeps the invariant
(`sharesInv_step`), and so does every run from an empty store
(`liquidity_shares_balance`).
-/

namespace Openswap

open Sdk Transfer KVStore Transition

variable {env : Env}

/-! ## The counters at one key -/

theorem State.pairs_eq_none_of_getTradingPair {s : State} {dexID : ℕ} {a b : Symbol}
    (h : s.getTradingPair dexID a b = none) : s.pairs (dexID, a, b) = none := by
  unfold State.getTradingPair at h
  cases hk : s.pairs (dexID, a, b) with
  | none => rfl
  | some p =>
    rw [hk, Option.some_or] at h
    cases h

/-- **Setting an address's liquidity replaces its part of the sum.** -/
theorem State.liquiditySum_saveLiquidity (s : State) (addr : CUAddress) (dexID : ℕ)
    (a b : Symbol) (v : ℤ) :
    (s.saveLiquidity addr dexID a b v).liquiditySum (dexID, a, b) =
      s.liquiditySum (dexID, a, b) - s.getLiquidity addr dexID a b + v := by
  unfold State.liquiditySum State.saveLiquidity State.getLiquidity
  dsimp only
  rw [Function.update_self, Store.total_set]
  -- an address's part of the total is its liquidity, `0` when it has none
  congr 2

namespace SharesInv

variable {s : State}

/-- **The three counters move together.** Saving a pair whose total is
the minimum, the addresses' sum and `δ`, while one address's liquidity and
the mining total share of its key move by the same `δ`, keeps the
invariant. -/
theorem saveShares (hI : SharesInv env s) (trk : Balances) {pair : TradingPair} {a b : Symbol}
    (ha : pair.tokenA = a) (hb : pair.tokenB = b) (hsorted : SortedPair env a b)
    (addr : CUAddress) (δ : ℤ) (hv : 0 ≤ s.getLiquidity addr pair.dexID a b + δ)
    (hT : pair.totalLiquidity = env.minimumLiquidity + s.liquiditySum (pair.dexID, a, b) + δ) :
    SharesInv env ((({ s with trk := trk }.saveTradingPair pair).saveLiquidity addr pair.dexID a b
      (s.getLiquidity addr pair.dexID a b + δ)).onUpdateLiquidity addr pair.dexID a b δ) := by
  subst ha hb
  -- the pair's key is the one key whose counters change
  generalize hs' : ((({ s with trk := trk }.saveTradingPair pair).saveLiquidity addr pair.dexID
    pair.tokenA pair.tokenB (s.getLiquidity addr pair.dexID pair.tokenA pair.tokenB + δ)).onUpdateLiquidity
    addr pair.dexID pair.tokenA pair.tokenB δ) = s'
  have hpairs : s'.pairs = Function.update s.pairs pair.key (some pair) := by
    rw [← hs']
    rfl
  have hliq : s'.liquidity = Function.update s.liquidity pair.key
      ((s.liquidity pair.key).set addr (s.getLiquidity addr pair.dexID pair.tokenA pair.tokenB + δ)) := by
    rw [← hs']
    rfl
  have hshare : s'.totalShare =
      Function.update s.totalShare pair.key ((s.totalShare pair.key).add (Dec.ofInt δ)) := by
    rw [← hs']
    rfl
  have hsum : s'.liquiditySum pair.key = s.liquiditySum pair.key + δ := by
    have h := State.liquiditySum_saveLiquidity ({ s with trk := trk }.saveTradingPair pair) addr
      pair.dexID pair.tokenA pair.tokenB (s.getLiquidity addr pair.dexID pair.tokenA pair.tokenB + δ)
    -- saving the pair and the balances leaves the liquidity as it was
    change _ = s.liquiditySum pair.key - s.getLiquidity addr pair.dexID pair.tokenA pair.tokenB + _ at h
    rw [← hs']
    exact h.trans (by omega)
  -- away from the key nothing changes
  have hother : ∀ key, key ≠ pair.key →
      s'.pairs key = s.pairs key ∧ s'.liquidity key = s.liquidity key ∧
        s'.totalShare key = s.totalShare key := fun key hk => by
    rw [hpairs, hliq, hshare]
    exact ⟨Function.update_of_ne hk .., Function.update_of_ne hk .., Function.update_of_ne hk ..⟩
  refine ⟨fun key p hp => ?_, fun key p hp => ?_, fun key => ?_, fun key => ?_, fun key a' v hv' => ?_⟩
  · by_cases hk : key = pair.key
    · subst hk
      rw [hpairs, Function.update_self, Option.some.injEq] at hp
      exact hp ▸ rfl
    · exact hI.key_eq key p ((hother key hk).1 ▸ hp)
  · by_cases hk : key = pair.key
    · subst hk
      rw [hpairs, Function.update_self, Option.some.injEq] at hp
      exact hp ▸ hsorted
    · exact hI.sorted key p ((hother key hk).1 ▸ hp)
  · by_cases hk : key = pair.key
    · subst hk
      right
      have hT' : s'.totalLiquidityAt pair.key = pair.totalLiquidity := by
        simp only [State.totalLiquidityAt, hpairs, Function.update_self, Option.map_some,
          Option.getD_some]
      rw [hT', hsum, hT]
      exact (Int.add_assoc _ _ _)
    · have hT' : s'.totalLiquidityAt key = s.totalLiquidityAt key := by
        simp only [State.totalLiquidityAt, (hother key hk).1]
      have hS' : s'.liquiditySum key = s.liquiditySum key := by
        simp only [State.liquiditySum, (hother key hk).2.1]
      rw [hT', hS']
      exact hI.shares key
  · by_cases hk : key = pair.key
    · subst hk
      rw [hshare, Function.update_self, hsum, hI.totalShare, Dec.ofInt_add_ofInt]
    · have hS' : s'.liquiditySum key = s.liquiditySum key := by
        simp only [State.liquiditySum, (hother key hk).2.1]
      rw [(hother key hk).2.2, hS']
      exact hI.totalShare key
  · by_cases hk : key = pair.key
    · subst hk
      rw [hliq, Function.update_self, Store.get_set] at hv'
      split at hv'
      · -- the address written
        rw [Option.some.injEq] at hv'
        exact hv' ▸ hv
      · exact hI.nonneg _ a' v hv'
    · exact hI.nonneg key a' v ((hother key hk).2.1 ▸ hv')

/-- A new pair without liquidity, at a key that had none. -/
theorem saveNewPair (hI : SharesInv env s) (hmin : 0 < env.minimumLiquidity) {pair : TradingPair}
    (hnone : s.pairs pair.key = none) (hT : pair.totalLiquidity = 0)
    (hsorted : SortedPair env pair.tokenA pair.tokenB) : SharesInv env (s.saveTradingPair pair) := by
  -- no liquidity was there to match
  have hsum : s.liquiditySum pair.key = 0 :=
    hI.liquiditySum_eq_zero hmin (by simp [State.totalLiquidityAt, hnone])
  refine ⟨fun key p hp => ?_, fun key p hp => ?_, fun key => ?_, hI.totalShare, hI.nonneg⟩
  · by_cases hk : key = pair.key
    · subst hk
      rw [State.pairs_saveTradingPair, Function.update_self, Option.some.injEq] at hp
      exact hp ▸ rfl
    · rw [State.pairs_saveTradingPair, Function.update_of_ne hk] at hp
      exact hI.key_eq key p hp
  · by_cases hk : key = pair.key
    · subst hk
      rw [State.pairs_saveTradingPair, Function.update_self, Option.some.injEq] at hp
      exact hp ▸ hsorted
    · rw [State.pairs_saveTradingPair, Function.update_of_ne hk] at hp
      exact hI.sorted key p hp
  · by_cases hk : key = pair.key
    · subst hk
      left
      simp [State.totalLiquidityAt, hT, State.liquiditySum, ← hsum]
    · have hT' : (s.saveTradingPair pair).totalLiquidityAt key = s.totalLiquidityAt key := by
        simp only [State.totalLiquidityAt, State.pairs_saveTradingPair, Function.update_of_ne hk]
      rw [hT']
      exact hI.shares key

/-! ## The pair a deposit or a withdrawal works on -/

/-- The pair a public pair stands for has the tokens it was looked up by. -/
theorem redirectPublic_key (hI : SharesInv env s) {a b : Symbol} (hab : SortedPair env a b)
    {dexID : ℕ} {pair pair' : TradingPair} (hp : s.getTradingPair dexID a b = some pair)
    (hr : redirectPublic s a b pair = some pair') : pair'.key.2 = (a, b) := by
  unfold redirectPublic at hr
  split at hr
  · rw [(hI.getTradingPair_sorted hab hr).2]
  · cases hr
    rw [(hI.getTradingPair_sorted hab hp).2]

/-- **The key a deposit writes.** The pair found (or, for a public pair of
another dex, the pair of dex `0`), or else the new pair of dex `0`, has the
sorted tokens, and the store holds at its key the total it starts from. -/
theorem liquidityTarget (hI : SharesInv env s) {a b : Symbol} (hab : SortedPair env a b)
    {dexID : ℕ} (hd : ¬(s.getTradingPair dexID a b = none ∧ dexID ≠ 0)) :
    let o := (s.getTradingPair dexID a b).bind (redirectPublic s a b)
    s.totalLiquidityAt ((o.map TradingPair.key).getD (0, a, b)) =
        (o.map TradingPair.totalLiquidity).getD 0 ∧
      ((o.map TradingPair.key).getD (0, a, b)).2 = (a, b) := by
  intro o
  cases hg : s.getTradingPair dexID a b with
  | none =>
    -- only dex `0` takes a first deposit without a pair
    have hd0 : dexID = 0 := by
      by_contra hne
      exact hd ⟨hg, hne⟩
    subst hd0
    simp [o, hg, State.totalLiquidityAt, State.pairs_eq_none_of_getTradingPair hg]
  | some pair =>
    cases hr : redirectPublic s a b pair with
    | none =>
      -- a public pair whose pair of dex `0` is missing
      unfold redirectPublic at hr
      split at hr
      · simp [o, State.totalLiquidityAt, State.pairs_eq_none_of_getTradingPair hr, redirectPublic, *]
      · cases hr
    | some pair' =>
      have hcur := hI.pairs_key_of_redirectPublic hg hr
      simp [o, hg, hr, State.totalLiquidityAt, hcur, hI.redirectPublic_key hab hg hr]

end SharesInv

/-- **What `addLiquidityAmounts` writes**: the key of the pair it was
given, or the new pair of dex `0`, with the minimum liquidity as total on a
first deposit. -/
theorem addLiquidityAmounts_pair {o : Option TradingPair} {a b : Symbol} {maxA maxB : ℤ}
    {pair : TradingPair} {needA needB l : ℤ}
    (h : addLiquidityAmounts env o a b maxA maxB = .ok (pair, needA, needB, l)) :
    pair.key = (o.map TradingPair.key).getD (0, a, b) ∧
      pair.totalLiquidity = if (o.map TradingPair.totalLiquidity).getD 0 = 0 then
        env.minimumLiquidity else (o.map TradingPair.totalLiquidity).getD 0 := by
  unfold addLiquidityAmounts at h
  cases o with
  | none =>
    simp only [bind_eq_ok, pure_eq_ok, Prod.mk.injEq] at h
    obtain ⟨-, -, rfl, -⟩ := h
    exact ⟨rfl, rfl⟩
  | some q =>
    dsimp only at h
    split at h
    · -- a pair with no liquidity takes a first deposit
      simp only [bind_eq_ok, pure_eq_ok, Prod.mk.injEq] at h
      obtain ⟨-, -, rfl, -⟩ := h
      simp [TradingPair.key, *]
    · simp only [bind_eq_ok, pure_eq_ok, Prod.mk.injEq] at h
      obtain ⟨-, -, rfl, -⟩ := h
      simp [*]

/-! ## Deposits and withdrawals -/

section writes

variable {s s' : State} {fromAddr : CUAddress} {dexID : ℕ} {a b : Symbol}

/-- **What a deposit writes**: a pair with the sorted tokens, whose total is
the minimum, the addresses' sum and the shares issued; the depositor's
liquidity, moved by those shares and not negative; and, by the same shares,
the mining accounts of the pair's key. -/
theorem addLiquidity_eq_ok (hmin : 0 < env.minimumLiquidity) (hI : SharesInv env s)
    (hab : SortedPair env a b) {maxA maxB : ℤ}
    (h : addLiquidity env s fromAddr dexID a b maxA maxB = .ok s') :
    ∃ trk pair l, pair.tokenA = a ∧ pair.tokenB = b ∧
      0 ≤ s.getLiquidity fromAddr pair.dexID a b + l ∧
      pair.totalLiquidity = env.minimumLiquidity + s.liquiditySum (pair.dexID, a, b) + l ∧
      s' = (({ s with trk := trk }.saveTradingPair pair).saveLiquidity fromAddr pair.dexID a b
        (s.getLiquidity fromAddr pair.dexID a b + l)).onUpdateLiquidity fromAddr pair.dexID a b l := by
  simp only [addLiquidity, bind_eq_ok, failIf_eq_ok, pure_eq_ok] at h
  obtain ⟨-, hd, ⟨pair, needA, needB, l⟩, hamounts, -, -, -, hl, trk, -, rfl⟩ := h
  obtain ⟨hkey, hT⟩ := addLiquidityAmounts_pair hamounts
  obtain ⟨hT₀, htokens⟩ := hI.liquidityTarget hab hd
  rw [← hkey] at hT₀ htokens
  have ha : pair.tokenA = a := congrArg Prod.fst htokens
  have hb : pair.tokenB = b := congrArg Prod.snd htokens
  subst ha hb
  -- the pair written is the one the last equation names
  refine ⟨trk, _, l, ?_, ?_, ?_, ?_, rfl⟩
  · rfl
  · rfl
  · have := hI.getLiquidity_nonneg fromAddr pair.dexID pair.tokenA pair.tokenB
    dsimp only at hl ⊢
    omega
  · -- the total the deposit starts from: none yet, or the minimum and the sum
    show pair.totalLiquidity + l = env.minimumLiquidity + s.liquiditySum pair.key + l
    split at hT
    · have hsum := hI.liquiditySum_eq_zero hmin (hT₀.trans ‹_›)
      omega
    · rcases hI.shares pair.key with ⟨h0, -⟩ | hshares
      · exact absurd (hT₀.symm.trans h0) ‹_›
      · omega

/-- **A deposit keeps the invariant.** -/
theorem addLiquidity_sharesInv (hmin : 0 < env.minimumLiquidity) (hI : SharesInv env s)
    (hab : SortedPair env a b) {maxA maxB : ℤ}
    (h : addLiquidity env s fromAddr dexID a b maxA maxB = .ok s') : SharesInv env s' := by
  obtain ⟨trk, pair, l, ha, hb, hv, hT, rfl⟩ := addLiquidity_eq_ok hmin hI hab h
  exact hI.saveShares trk ha hb hab fromAddr l hv hT

/-- `mulAndDiv` by a zero total gives nothing. -/
theorem mulAndDiv_zero_right (a b : ℤ) : mulAndDiv a b 0 = 0 := Int.tdiv_zero _

/-- **What a withdrawal writes**, as for a deposit with the shares burned
taken away. The total cannot be `0`: the returned amounts would be `0`,
which the call refuses. -/
theorem removeLiquidity_eq_ok (hI : SharesInv env s) (hab : SortedPair env a b) {l : ℤ}
    (h : removeLiquidity s fromAddr dexID a b l = .ok s') :
    ∃ trk pair, pair.tokenA = a ∧ pair.tokenB = b ∧
      0 ≤ s.getLiquidity fromAddr pair.dexID a b + -l ∧
      pair.totalLiquidity = env.minimumLiquidity + s.liquiditySum (pair.dexID, a, b) + -l ∧
      s' = (({ s with trk := trk }.saveTradingPair pair).saveLiquidity fromAddr pair.dexID a b
        (s.getLiquidity fromAddr pair.dexID a b + -l)).onUpdateLiquidity fromAddr pair.dexID a b (-l) := by
  simp only [removeLiquidity, bind_eq_ok, orFail_eq_ok, failIf_eq_ok, pure_eq_ok] at h
  obtain ⟨pair, hpair, pair', hpair', -, hle, -, -, -, hret, trk, -, rfl⟩ := h
  have htokens := hI.redirectPublic_key hab hpair hpair'
  have ha : pair'.tokenA = a := congrArg Prod.fst htokens
  have hb : pair'.tokenB = b := congrArg Prod.snd htokens
  subst ha hb
  have hcur := hI.pairs_key_of_redirectPublic hpair hpair'
  have hT₀ : s.totalLiquidityAt pair'.key = pair'.totalLiquidity := by
    simp [State.totalLiquidityAt, hcur]
  have hT0 : pair'.totalLiquidity ≠ 0 := by
    intro h0
    rw [h0, mulAndDiv_zero_right, mulAndDiv_zero_right] at hret
    exact hret (.inl le_rfl)
  rw [show s.getLiquidity fromAddr pair'.dexID pair'.tokenA pair'.tokenB - l =
    s.getLiquidity fromAddr pair'.dexID pair'.tokenA pair'.tokenB + -l by omega]
  refine ⟨trk, _, ?_, ?_, ?_, ?_, rfl⟩
  · rfl
  · rfl
  · dsimp only
    omega
  show pair'.totalLiquidity - l = env.minimumLiquidity + s.liquiditySum pair'.key + -l
  rcases hI.shares pair'.key with ⟨h0, -⟩ | hshares
  · exact absurd (hT₀.symm.trans h0) hT0
  · omega

/-- **A withdrawal keeps the invariant.** -/
theorem removeLiquidity_sharesInv (hI : SharesInv env s) (hab : SortedPair env a b) {l : ℤ}
    (h : removeLiquidity s fromAddr dexID a b l = .ok s') : SharesInv env s' := by
  obtain ⟨trk, pair, ha, hb, hv, hT, rfl⟩ := removeLiquidity_eq_ok hI hab h
  exact hI.saveShares trk ha hb hab fromAddr (-l) hv hT

/-- **A new pair keeps the invariant.** -/
theorem handleMsgCreateTradingPair_sharesInv (hmin : 0 < env.minimumLiquidity)
    (hI : SharesInv env s) {msg : MsgCreateTradingPair}
    (h : handleMsgCreateTradingPair env s msg = .ok s') : SharesInv env s' := by
  simp only [handleMsgCreateTradingPair, bind_eq_ok, failIf_eq_ok, pure_eq_ok] at h
  obtain ⟨-, -, ⟨a, b⟩, hsort, -, hnone, -, -, rfl⟩ := h
  have hab := (sortTokens_eq_ok hsort).1
  refine hI.saveNewPair hmin ?_ rfl hab
  exact State.pairs_eq_none_of_getTradingPair (Option.not_isSome_iff_eq_none.mp hnone)

theorem handleMsgAddLiquidity_sharesInv (hmin : 0 < env.minimumLiquidity) (hI : SharesInv env s)
    {blockTime : ℤ} {msg : MsgAddLiquidity} (h : handleMsgAddLiquidity env s blockTime msg = .ok s') :
    SharesInv env s' := by
  simp only [handleMsgAddLiquidity, bind_eq_ok] at h
  obtain ⟨⟨a, b⟩, hsort, -, -, h⟩ := h
  -- the amounts follow the tokens into their order
  generalize (if a ≠ msg.tokenA then _ else _ : ℤ × ℤ) = amounts at h
  obtain ⟨maxA, maxB⟩ := amounts
  exact addLiquidity_sharesInv hmin hI (sortTokens_eq_ok hsort).1 h

theorem handleMsgRemoveLiquidity_sharesInv (hI : SharesInv env s) {blockTime : ℤ}
    {msg : MsgRemoveLiquidity} (h : handleMsgRemoveLiquidity env s blockTime msg = .ok s') :
    SharesInv env s' := by
  simp only [handleMsgRemoveLiquidity, bind_eq_ok] at h
  obtain ⟨⟨a, b⟩, hsort, -, -, h⟩ := h
  exact removeLiquidity_sharesInv hI (sortTokens_eq_ok hsort).1 h

end writes

/-! ## The chain -/

/-- **Every handler keeps the invariant.** -/
theorem handle_sharesInv (hmin : 0 < env.minimumLiquidity) {s s' : State} (hI : SharesInv env s)
    {blockTime : ℤ} {msg : Msg} (h : handle env s blockTime msg = .ok s') : SharesInv env s' := by
  cases msg with
  | createDex msg =>
    rw [handle, pure_eq_ok] at h
    exact h ▸ hI.sameShares (saveDex_sameShares ..)
  | editDex msg =>
    simp only [handle, bind_eq_ok, pure_eq_ok] at h
    obtain ⟨dex, -, rfl⟩ := h
    exact hI.sameShares (saveDex_sameShares ..)
  | createTradingPair msg => exact handleMsgCreateTradingPair_sharesInv hmin hI h
  | editTradingPair msg => exact hI.sameShares (editTradingPair_sameShares hI h)
  | addLiquidity msg => exact handleMsgAddLiquidity_sharesInv hmin hI h
  | removeLiquidity msg => exact handleMsgRemoveLiquidity_sharesInv hI h
  | swapExactIn msg => exact hI.sameShares (handleMsgSwapExactIn_sameShares hI h)
  | swapExactOut msg => exact hI.sameShares (handleMsgSwapExactOut_sameShares hI h)
  | limitSwap msg => exact hI.sameShares (handleMsgLimitSwap_sameShares hI h)
  | cancelLimitSwap msg => exact hI.sameShares (cancelOrders_sameShares h)

/-- **Every event of the chain keeps the invariant.** -/
theorem sharesInv_step (hmin : 0 < env.minimumLiquidity) {s : State} (hI : SharesInv env s)
    (e : Event) : SharesInv env (step env s e) := by
  cases e with
  | tx blockTime msg =>
    refine commit_preserves (fun s' h => ?_) hI
    simp only [deliverTx, bind_eq_ok] at h
    obtain ⟨-, -, h⟩ := h
    exact handle_sharesInv hmin hI h
  | endBlock height blockTime =>
    exact commit_preserves (fun _ h => hI.sameShares (endBlock_sameShares hI h)) hI
  | restart =>
    exact commit_preserves (fun _ h => hI.sameShares (restartNode_sameShares h)) hI

/-- **Liquidity share accounting.** In every state the chain reaches from
an empty store, at every key: the total liquidity of the pair (`0` with no
pair) is `0` with no liquidity anywhere, or the locked minimum plus the sum
of the liquidity of all addresses; the mining total share is that sum; and
no address's liquidity is negative. -/
theorem liquidity_shares_balance (hmin : 0 < env.minimumLiquidity) {trk : Balances} {s : State}
    (h : Reachable (step env) (State.init trk) s) (key : PairKey) :
    (s.totalLiquidityAt key = 0 ∧ s.liquiditySum key = 0 ∨
        s.totalLiquidityAt key = env.minimumLiquidity + s.liquiditySum key) ∧
      s.totalShare key = Dec.ofInt (s.liquiditySum key) ∧
      ∀ addr, 0 ≤ s.getLiquidity addr key.1 key.2.1 key.2.2 := by
  have hI : SharesInv env s :=
    h.invariant (sharesInv_init trk) (fun _ e hs => sharesInv_step hmin hs e)
  exact ⟨hI.shares key, hI.totalShare key, fun addr => hI.getLiquidity_nonneg addr _ _ _⟩

/-- The accounting after the block of `Expiry`, at the pair `bob` opened. -/
theorem liquidity_shares_balance_after_placing :
    0 < expiryEnv.minimumLiquidity ∧
      Reachable (step expiryEnv) (State.init expiryGenesis) afterCancel ∧
      ((afterCancel.totalLiquidityAt (0, "btc", "usdt") = 0 ∧
          afterCancel.liquiditySum (0, "btc", "usdt") = 0 ∨
        afterCancel.totalLiquidityAt (0, "btc", "usdt") =
          expiryEnv.minimumLiquidity + afterCancel.liquiditySum (0, "btc", "usdt")) ∧
        afterCancel.totalShare (0, "btc", "usdt") =
          Dec.ofInt (afterCancel.liquiditySum (0, "btc", "usdt")) ∧
        ∀ addr, 0 ≤ afterCancel.getLiquidity addr 0 "btc" "usdt") :=
  ⟨by decide, ⟨_, rfl⟩, liquidity_shares_balance (by decide) ⟨_, rfl⟩ (0, "btc", "usdt")⟩

end Openswap
