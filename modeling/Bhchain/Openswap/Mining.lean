import Bhchain.Openswap.Liquidity

/-!
# Mining (`x/openswap/keeper/mining.go`)

Each block mints the mining token and distributes it over the pairs of
the mining weights. A pair does not pay its liquidity providers at once:
it adds the amount per unit of its total share to its global mask, and an
address's earning is its liquidity times the global mask, less its own
mask (`CalculateEarning`). A change of liquidity moves the address's mask
by the global mask times the change (`onUpdateLiquidity`), so that the new
liquidity earns nothing of the past; a claim pays the earning, truncated
to a whole number, and adds it to the mask.

In units of `10^-18`, what an address has earned at a pair and not
claimed (`State.unclaimed`) moves as a ledger of the blocks would: a
mining block adds the amount per share times the address's liquidity
(`unclaimed_onMining`), a change of liquidity adds nothing
(`unclaimed_updateLiquidity`), and a claim takes away the whole units it
pays (`unclaimed_claimEarning`). So it is never negative, and neither is
`CalculateEarning`, over every run of the chain (`calculateEarning_nonneg`).

The amount per share is `amount.Quo(totalShare)`, rounded half to even at
the eighteenth place, and the rounding may go up: the providers of a pair
are together credited up to half a unit of the eighteenth place per share
more than the pair was given (`onMining_increment_bounds`), which for a
pair of `10^20` shares is `50` whole tokens in one block. The module
account pays the excess out of what the other pairs were given
(`claim_pays_more_than_mined`), whose own claims it then cannot pay.

Left out: the receipts, flows and events; the panic of `distribute`'s
division by a total weight of `0`, which `Params.Validate` excludes by
keeping every weight positive; the sends that a `SendCoins` of several
coins keeps before a failing one, since `NewCoins` of one coin has one coin
at most.
-/

namespace Openswap

open Sdk Transfer KVStore Transition

/-! ## The mining keeper -/

/-- `sdk.NativeDefiToken`, the token mined. -/
def nativeDefiToken : Denom := "hdt"

/-- **`MiningWeight`**: a pair's weight in each block's distribution. -/
structure MiningWeight where
  dexID : ℕ
  tokenA : Symbol
  tokenB : Symbol
  weight : ℤ

/-- **`MiningPlan`**: from its start height on, the amount mined per block. -/
structure MiningPlan where
  startHeight : ℕ
  miningPerBlock : ℤ

/-- The mining parameters, and what `Mining` reads of the token keeper. -/
structure MiningParams where
  refererMiningBonusRate : Dec
  miningWeights : List MiningWeight
  miningPlans : List MiningPlan
  /-- `GetTotalSupply` of the mining token; `none` when `GetToken` finds no token -/
  defiTotalSupply : Option ℤ

/-- The check of `Params.Validate` on the mining weights. -/
def MiningParams.WeightsPositive (params : MiningParams) : Prop :=
  ∀ w ∈ params.miningWeights, 0 < w.weight

/-- What the supply keeper records of the mining token. -/
structure DefiSupply where
  total : ℤ
  burned : ℤ

/-- **The chain of the mining calls**: the swap module's state and the
supply of the mining token. -/
structure MiningChain where
  swap : State
  supply : DefiSupply

variable (env : Env) (params : MiningParams)

/-- `SortTokens` with its error discarded (`tokenA, tokenB, _ =`): the
tokens as given when a check fails. -/
def sortTokensOrKeep (tokenA tokenB : Symbol) : Symbol × Symbol :=
  match sortTokens env tokenA tokenB with
  | .ok tokens => tokens
  | .error _ => (tokenA, tokenB)

/-- **`CalculateEarning`**: the liquidity times the pair's mask, less the
address's mask, truncated to a whole number. -/
def calculateEarning (s : State) (addr : CUAddress) (dexID : ℕ) (tokenA tokenB : Symbol) : ℤ :=
  let (tokenA, tokenB) := sortTokensOrKeep env tokenA tokenB
  let liquidity := s.getLiquidity addr dexID tokenA tokenB
  let key : PairKey := (dexID, tokenA, tokenB)
  (((s.globalMask key).mul (Dec.ofInt liquidity)).sub (s.addrMask (addr, key))).truncateInt

/-- `SendCoinsFromModuleToAccount`: from the module account. -/
def sendCoinsFromModuleToAccount (trk : Balances) (addr : CUAddress) (coins : Coins) :
    Except Failure Balances :=
  trk.sendCoins env.moduleCUAddress addr coins

/-- **`getFlowFromResult`** of a send whose error the caller discards: the
flows of the receipt in the send's result. A failed send returns
`err.Result()`, which carries no data; `GetReceiptFromResult` then returns
`nil`, and reading its `Flows` panics. The model keeps the send's writes,
of which the flows are the record. -/
def getFlowFromResult (r : Except Failure Balances) : Except Failure Balances :=
  match r with
  | .ok trk => .ok trk
  | .error _ => .error (.panic "runtime error: invalid memory address or nil pointer dereference")

/-- **`ClaimEarning`**: a positive earning is sent from the module account
to the address, less the referer's share when it has a referer, and the
address's mask takes the earning. The sends' errors are discarded, but a
failed send's flows are read (`getFlowFromResult`), which panics: a claim
the module account cannot pay fails as a whole. `NewCoin` panics on a
negative share. -/
def claimEarning (s : State) (addr : CUAddress) (dexID : ℕ) (tokenA tokenB : Symbol) :
    Except Failure State :=
  let (tokenA, tokenB) := sortTokensOrKeep env tokenA tokenB
  let earning := calculateEarning env s addr dexID tokenA tokenB
  if earning ≤ 0 then pure s
  else do
    let trk ← match s.getReferer addr with
      | none => do
        let coin ← newCoin nativeDefiToken earning
        getFlowFromResult (sendCoinsFromModuleToAccount env s.trk addr (newCoins coin))
      | some referer => do
        let refererShare := ((Dec.ofInt earning).mul params.refererMiningBonusRate).truncateInt
        let selfShare := earning - refererShare
        let coin ← newCoin nativeDefiToken refererShare
        let trk ← getFlowFromResult (sendCoinsFromModuleToAccount env s.trk referer (newCoins coin))
        let coin ← newCoin nativeDefiToken selfShare
        getFlowFromResult (sendCoinsFromModuleToAccount env trk addr (newCoins coin))
    let key : PairKey := (dexID, tokenA, tokenB)
    pure { s with trk := trk,
                  addrMask := Function.update s.addrMask (addr, key)
                    ((s.addrMask (addr, key)).add (Dec.ofInt earning)) }

/-- `getMiningAmount`: the amount of the last plan started by the height,
the plans being in ascending order of their start; `0` before the first. -/
def getMiningAmount (height : ℕ) : List MiningPlan → ℤ → ℤ
  | [], amount => amount
  | plan :: plans, amount =>
    if height < plan.startHeight then amount
    else getMiningAmount height plans plan.miningPerBlock

/-- **`onMining`**: a pair with shares adds the amount per share to its
global mask. -/
def onMining (s : State) (dexID : ℕ) (tokenA tokenB : Symbol) (amount : ℤ) : State :=
  let key : PairKey := (dexID, tokenA, tokenB)
  let totalShare := s.totalShare key
  if h : totalShare.isPositive then
    { s with
      globalMask := Function.update s.globalMask key
        ((s.globalMask key).add
          ((Dec.ofInt amount).quoNonzero totalShare (Dec.val_ne_zero_of_isPositive h))) }
  else s

/-- The loop of `distribute`: each weight but the last takes its part of
the amount, rounded toward zero, and the last what remains. -/
def distributeLoop (amount totalWeight : ℤ) : List MiningWeight → ℤ → State → State
  | [], _, s => s
  | w :: ws, remaining, s =>
    let (distribution, remaining) := if ws.isEmpty then (remaining, remaining)
      else ((amount * w.weight).tdiv totalWeight, remaining - (amount * w.weight).tdiv totalWeight)
    let (tokenA, tokenB) := sortTokensOrKeep env w.tokenA w.tokenB
    distributeLoop amount totalWeight ws remaining (onMining s w.dexID tokenA tokenB distribution)

/-- **`distribute`**: the amount over the mining weights. -/
def distribute (s : State) (amount : ℤ) : State :=
  let totalWeight := (params.miningWeights.map MiningWeight.weight).sum
  distributeLoop env amount totalWeight params.miningWeights amount s

/-- **`Mining`**, the first call of the module's `EndBlock`: the amount of
the plan in force, capped by what the mining token's total supply leaves,
is minted to the module account and distributed. `MintCoins` panics when
its `AddCoins` fails. -/
def mining (height : ℕ) (c : MiningChain) : Except Failure MiningChain :=
  let amount := getMiningAmount height params.miningPlans 0
  if amount ≤ 0 then pure c
  else match params.defiTotalSupply with
    | none => pure c
    | some totalSupply =>
      let amount := min amount (totalSupply - c.supply.total - c.supply.burned)
      if amount ≤ 0 then pure c
      else match c.swap.trk.addCoins env.moduleCUAddress (newCoins (nativeDefiToken, amount)) with
        | .ok trk =>
          pure ⟨distribute env params { c.swap with trk := trk } amount,
            { c.supply with total := c.supply.total + amount }⟩
        | .error (.error _ msg) => .error (.panic msg)
        | .error e => .error e

/-! ## The chain of the mining calls -/

/-- `MsgClaimEarning`. -/
structure MsgClaimEarning where
  fromAddr : CUAddress
  dexID : ℕ
  tokenA : Symbol
  tokenB : Symbol

/-- `MsgClaimEarning.ValidateBasic`. -/
def MsgClaimEarning.validateBasic (msg : MsgClaimEarning) : Except Failure Unit := do
  failIf (!env.isValidAddr msg.fromAddr) (errInvalidAddr "from address: %s is invalid")
  checkTokenPair env msg.tokenA msg.tokenB

/-- **`handleMsgClaimEarning`**. -/
def handleMsgClaimEarning (s : State) (msg : MsgClaimEarning) : Except Failure State := do
  let (tokenA, tokenB) ← sortTokens env msg.tokenA msg.tokenB
  claimEarning env params s msg.fromAddr msg.dexID tokenA tokenB

/-- **The events of the mining chain**: deposits and withdrawals of
liquidity, the `Mining` of a block, and claims. -/
inductive MiningEvent where
  | addLiquidity (blockTime : ℤ) (msg : MsgAddLiquidity)
  | removeLiquidity (blockTime : ℤ) (msg : MsgRemoveLiquidity)
  | mining (height : ℕ)
  | claimEarning (msg : MsgClaimEarning)

/-- **One event of the mining chain.** A failed transaction is rolled
back; a panic of `Mining` stops the node, and the state is kept. -/
def miningStep (c : MiningChain) : MiningEvent → MiningChain
  | .addLiquidity blockTime msg =>
    { c with swap := commit (deliverTx env blockTime (.addLiquidity msg)) c.swap }
  | .removeLiquidity blockTime msg =>
    { c with swap := commit (deliverTx env blockTime (.removeLiquidity msg)) c.swap }
  | .mining height => commit (mining env params height) c
  | .claimEarning msg =>
    { c with swap := commit (fun s => do
        msg.validateBasic env
        handleMsgClaimEarning env params s msg) c.swap }

/-- The chain over an empty store of the swap module. -/
def MiningChain.init (trk : Balances) (supply : DefiSupply) : MiningChain := ⟨State.init trk, supply⟩

/-! ## Sorting twice -/

variable {env}

/-- Tokens in sorted order stay as they are. -/
theorem sortTokens_of_sortedPair {x y : Symbol} (h : SortedPair env x y) :
    sortTokens env x y = .ok (x, y) := by
  obtain ⟨tx, ty, hx, hy, hord⟩ := h
  rw [sortTokens, hx, hy]
  change (if tx.weight = ty.weight then pure (if y < x then (y, x) else (x, y))
    else if tx.weight < ty.weight then pure (y, x) else pure (x, y)) = Except.ok (x, y)
  rcases hord with hlt | ⟨heq, hyx⟩
  · rw [if_neg (by omega), if_neg (by omega)]
    rfl
  · rw [if_pos heq, if_neg hyx]
    rfl

/-- **Sorting sorted tokens changes nothing**, whether the first sort
succeeded or kept the tokens as given. -/
theorem sortTokensOrKeep_idem (a b : Symbol) :
    sortTokensOrKeep env (sortTokensOrKeep env a b).1 (sortTokensOrKeep env a b).2 =
      sortTokensOrKeep env a b := by
  unfold sortTokensOrKeep
  cases h : sortTokens env a b with
  | ok p =>
    obtain ⟨x, y⟩ := p
    simp only [sortTokens_of_sortedPair (sortTokens_eq_ok h).1]
  | error e => simp only [h]

/-! ## Unclaimed earnings -/

namespace State

/-- **What an address has earned at a pair and not claimed**, in units of
`10^-18` of the mining token: its liquidity times the pair's mask, less
its own mask. -/
def unclaimed (s : State) (addr : CUAddress) (key : PairKey) : ℤ :=
  (s.globalMask key).val * ((s.liquidity key).get addr).getD 0 - (s.addrMask (addr, key)).val

/-- What `saveLiquidity` does to one address's liquidity. -/
theorem get_saveLiquidity (s : State) (addr : CUAddress) (dexID : ℕ) (a b : Symbol) (v : ℤ)
    (addr' : CUAddress) (key : PairKey) :
    ((s.saveLiquidity addr dexID a b v).liquidity key).get addr' =
      if (addr', key) = (addr, (dexID, a, b)) then some v else (s.liquidity key).get addr' := by
  unfold saveLiquidity
  by_cases hk : key = (dexID, a, b)
  · subst hk
    simp
  · simp [hk]

end State

/-- `CalculateEarning` truncates the unclaimed earning at the sorted key. -/
theorem calculateEarning_eq (s : State) (addr : CUAddress) (dexID : ℕ) (a b : Symbol) :
    calculateEarning env s addr dexID a b =
      (s.unclaimed addr (dexID, sortTokensOrKeep env a b)).tdiv precisionInt := by
  unfold calculateEarning
  generalize sortTokensOrKeep env a b = p
  obtain ⟨x, y⟩ := p
  simp only [Dec.mul_ofInt, Dec.sub, Dec.truncateInt, State.unclaimed, State.getLiquidity]

/-- **A change of liquidity earns nothing of the past.** Saving an
address's liquidity moved by `δ` and calling `onUpdateLiquidity` with `δ`
at the same key leaves every unclaimed earning as it was, the pair's mask
being nonnegative. -/
theorem unclaimed_updateLiquidity (s : State) (addr : CUAddress) (dexID : ℕ) (a b : Symbol)
    (δ v : ℤ) (hv : v = s.getLiquidity addr dexID a b + δ)
    (hmask : 0 ≤ (s.globalMask (dexID, a, b)).val) (addr' : CUAddress) (key : PairKey) :
    ((s.saveLiquidity addr dexID a b v).onUpdateLiquidity addr dexID a b δ).unclaimed addr' key =
      s.unclaimed addr' key := by
  unfold State.unclaimed
  rw [State.liquidity_onUpdateLiquidity, State.get_saveLiquidity, State.globalMask_onUpdateLiquidity,
    State.globalMask_saveLiquidity, State.addrMask_onUpdateLiquidity, State.globalMask_saveLiquidity,
    State.addrMask_saveLiquidity]
  by_cases hk : (addr', key) = (addr, (dexID, a, b))
  · -- the address and pair written: the mask takes what the change would have earned
    obtain ⟨rfl, rfl⟩ := Prod.mk.inj hk
    rw [if_pos rfl, Option.getD_some, hv]
    split
    · rw [Function.update_self]
      simp only [Dec.add, Dec.mul_ofInt, State.getLiquidity]
      ring
    · -- a mask that is not positive is `0`: the change would have earned nothing
      rename_i hpos
      have hzero : (s.globalMask (dexID, a, b)).val = 0 := by
        simp only [Dec.isPositive, decide_eq_true_eq] at hpos
        omega
      simp only [hzero, State.getLiquidity, Int.zero_mul]
  · rw [if_neg hk]
    split
    · rw [Function.update_of_ne hk]
    · rfl

/-! ## What a mining block credits -/

/-- `onMining` writes the global mask and nothing else. -/
theorem onMining_eq (s : State) (dexID : ℕ) (a b : Symbol) (amount : ℤ) :
    onMining s dexID a b amount =
      { s with
        globalMask := if h : (s.totalShare (dexID, a, b)).isPositive then
            Function.update s.globalMask (dexID, a, b)
              ((s.globalMask (dexID, a, b)).add ((Dec.ofInt amount).quoNonzero (s.totalShare (dexID, a, b))
                (Dec.val_ne_zero_of_isPositive h)))
          else s.globalMask } := by
  unfold onMining
  dsimp only
  by_cases hp : (s.totalShare (dexID, a, b)).isPositive = true
  · rw [dif_pos hp, dif_pos hp]
  · rw [dif_neg hp, dif_neg hp]

/-- **A mining block credits each address of the pair its liquidity times
the amount per share**, when the pair has shares. -/
theorem unclaimed_onMining (s : State) (dexID : ℕ) (a b : Symbol) (amount : ℤ) (addr : CUAddress)
    (key : PairKey) :
    (onMining s dexID a b amount).unclaimed addr key =
      s.unclaimed addr key +
        if h : key = (dexID, a, b) ∧ 0 < (s.totalShare key).val then
          ((Dec.ofInt amount).quoNonzero (s.totalShare key) h.2.ne').val * ((s.liquidity key).get addr).getD 0
        else 0 := by
  rw [onMining_eq]
  unfold State.unclaimed
  dsimp only
  by_cases hk : key = (dexID, a, b)
  · subst hk
    by_cases hpos : 0 < (s.totalShare (dexID, a, b)).val
    · have hp : (s.totalShare (dexID, a, b)).isPositive = true := by simp [Dec.isPositive, hpos]
      rw [dif_pos hp, dif_pos ⟨rfl, hpos⟩, Function.update_self]
      simp only [Dec.add]
      ring
    · have hp : ¬(s.totalShare (dexID, a, b)).isPositive = true := by simp [Dec.isPositive, hpos]
      rw [dif_neg hp, dif_neg (fun h => hpos h.2), Int.add_zero]
  · rw [dif_neg (show ¬(key = (dexID, a, b) ∧ _) from fun h => hk h.1), Int.add_zero]
    split
    · rw [Function.update_of_ne hk]
    · rfl

/-- **The amount per share is off by half a unit of the eighteenth place**,
over or under: for a whole total share `T`, the pair's providers are
credited `Δ · T` units of `10^-18` for an amount `a`, within `T / 2` of
`a · 10^18` (under, also by the truncation of the quotient). -/
theorem onMining_increment_bounds {amount T : ℤ} (hamount : 0 ≤ amount) (hT : 0 < T) :
    2 * ((Dec.ofInt amount).quoNonzero (Dec.ofInt T) (Dec.ofInt_val_ne_zero hT.ne')).val * T ≤
        2 * amount * precisionInt + T ∧
      2 * amount * precisionInt * precisionInt <
        (2 * ((Dec.ofInt amount).quoNonzero (Dec.ofInt T) (Dec.ofInt_val_ne_zero hT.ne')).val * T + T) *
          precisionInt + 2 * T := by
  have hP := precisionInt_pos
  obtain ⟨hup, hdown⟩ := Dec.quoNonzero_bounds (d := Dec.ofInt amount) (e := Dec.ofInt T)
    (Int.mul_nonneg hamount hP.le) (Int.mul_pos hT hP)
  generalize ((Dec.ofInt amount).quoNonzero (Dec.ofInt T) (Dec.ofInt_val_ne_zero hT.ne')).val = r
    at hup hdown ⊢
  -- both bounds of `Quo` carry a factor `10^18` for each decimal read as a whole number
  constructor
  · refine Int.le_of_mul_le_mul_right ?_ (Int.mul_pos hP hP)
    calc 2 * r * T * (precisionInt * precisionInt)
        = 2 * (r * precisionInt) * (T * precisionInt) := by ring
      _ ≤ 2 * (amount * precisionInt * precisionInt * precisionInt) +
          precisionInt * (T * precisionInt) := hup
      _ = (2 * amount * precisionInt + T) * (precisionInt * precisionInt) := by ring
  · refine Int.lt_of_mul_lt_mul_right ?_ hP.le
    calc 2 * amount * precisionInt * precisionInt * precisionInt
        = 2 * (amount * precisionInt * precisionInt * precisionInt) := by ring
      _ < 2 * (r * precisionInt) * (T * precisionInt) + precisionInt * (T * precisionInt) +
          2 * (T * precisionInt) := hdown
      _ = ((2 * r * T + T) * precisionInt + 2 * T) * precisionInt := by ring

/-! ## What a claim takes -/

/-- **What a claim writes**: the balances, and the address's mask at the
sorted key, moved by the earning when it is positive. -/
theorem claimEarning_eq_ok {s s' : State} {addr : CUAddress} {dexID : ℕ} {a b x y : Symbol}
    (hxy : sortTokensOrKeep env a b = (x, y))
    (h : claimEarning env params s addr dexID a b = .ok s') :
    ∃ trk, s' = { s with
      trk := trk,
      addrMask := Function.update s.addrMask (addr, (dexID, x, y))
        ((s.addrMask (addr, (dexID, x, y))).add
          (Dec.ofInt (max 0 (calculateEarning env s addr dexID x y)))) } := by
  unfold claimEarning at h
  rw [hxy] at h
  dsimp only at h
  split at h
  · -- nothing earned: nothing written
    rename_i hle
    rw [pure_eq_ok] at h
    subst h
    refine ⟨s.trk, ?_⟩
    have hzero : (s.addrMask (addr, (dexID, x, y))).add (Dec.ofInt 0) = s.addrMask (addr, (dexID, x, y)) := by
      show (⟨(s.addrMask (addr, (dexID, x, y))).val + 0 * precisionInt⟩ : Dec) = _
      rw [Int.zero_mul, Int.add_zero]
    rw [max_eq_left hle, hzero, Function.update_eq_self]
  · rename_i hpos
    rw [max_eq_right (by omega)]
    -- with a referer or without, the balances the sends leave and the mask
    split at h
    · simp only [bind_eq_ok, pure_eq_ok] at h
      obtain ⟨-, -, trk, -, rfl⟩ := h
      exact ⟨trk, rfl⟩
    · simp only [bind_eq_ok, pure_eq_ok] at h
      obtain ⟨-, -, -, -, -, -, trk, -, rfl⟩ := h
      exact ⟨trk, rfl⟩

/-- **A claim takes away what it pays**, in units of `10^-18`, at the
address and the sorted key. -/
theorem unclaimed_claimEarning {s s' : State} {addr : CUAddress} {dexID : ℕ} {a b x y : Symbol}
    (hxy : sortTokensOrKeep env a b = (x, y))
    (h : claimEarning env params s addr dexID a b = .ok s') (addr' : CUAddress) (key : PairKey) :
    s'.unclaimed addr' key =
      if (addr', key) = (addr, (dexID, x, y)) then
        s.unclaimed addr (dexID, x, y) - max 0 (calculateEarning env s addr dexID x y) * precisionInt
      else s.unclaimed addr' key := by
  obtain ⟨trk, rfl⟩ := claimEarning_eq_ok params hxy h
  unfold State.unclaimed
  dsimp only
  split_ifs with hk
  · obtain ⟨rfl, rfl⟩ := Prod.mk.inj hk
    rw [Function.update_self]
    simp only [Dec.add, Dec.ofInt]
    ring
  · rw [Function.update_of_ne hk]

/-! ## No negative earning -/

variable (env) in
/-- **The mining invariant**: the share invariant, and no global mask and
no unclaimed earning is negative. -/
structure MiningInv (s : State) : Prop where
  shares : SharesInv env s
  globalMask_nonneg : ∀ key, 0 ≤ (s.globalMask key).val
  unclaimed_nonneg : ∀ addr key, 0 ≤ s.unclaimed addr key

theorem miningInv_init (trk : Balances) : MiningInv env (State.init trk) where
  shares := sharesInv_init trk
  globalMask_nonneg _ := le_rfl
  unclaimed_nonneg _ _ := by simp [State.unclaimed, State.init, Dec.zero]

namespace MiningInv

variable {s : State}

/-- Moving balances keeps the invariant. -/
theorem withTrk (hI : MiningInv env s) (trk : Balances) : MiningInv env { s with trk := trk } where
  shares := hI.shares.sameShares (State.SameShares.of_eq rfl rfl rfl)
  globalMask_nonneg := hI.globalMask_nonneg
  unclaimed_nonneg := hI.unclaimed_nonneg

/-- **A deposit or a withdrawal keeps the invariant**, in the form that
`addLiquidity_eq_ok` and `removeLiquidity_eq_ok` give. -/
theorem saveShares (hI : MiningInv env s) (trk : Balances) {pair : TradingPair} {a b : Symbol}
    (ha : pair.tokenA = a) (hb : pair.tokenB = b) (hsorted : SortedPair env a b) (addr : CUAddress)
    (δ : ℤ) (hv : 0 ≤ s.getLiquidity addr pair.dexID a b + δ)
    (hT : pair.totalLiquidity = env.minimumLiquidity + s.liquiditySum (pair.dexID, a, b) + δ) :
    MiningInv env ((({ s with trk := trk }.saveTradingPair pair).saveLiquidity addr pair.dexID a b
      (s.getLiquidity addr pair.dexID a b + δ)).onUpdateLiquidity addr pair.dexID a b δ) where
  shares := hI.shares.saveShares trk ha hb hsorted addr δ hv hT
  globalMask_nonneg := hI.globalMask_nonneg
  unclaimed_nonneg addr' key := by
    rw [unclaimed_updateLiquidity (State.saveTradingPair { s with trk := trk } pair) addr pair.dexID
      a b δ (s.getLiquidity addr pair.dexID a b + δ) rfl (hI.globalMask_nonneg _)]
    exact hI.unclaimed_nonneg addr' key

end MiningInv

variable {s : State}

/-- **A mining block of a nonnegative amount keeps the invariant.** -/
theorem onMining_miningInv (hI : MiningInv env s) (dexID : ℕ) (a b : Symbol) {amount : ℤ}
    (hamount : 0 ≤ amount) : MiningInv env (onMining s dexID a b amount) := by
  have hd : 0 ≤ (Dec.ofInt amount).val := Int.mul_nonneg hamount precisionInt_pos.le
  refine ⟨?_, fun key => ?_, fun addr key => ?_⟩
  · rw [onMining_eq]
    exact hI.shares.sameShares (State.SameShares.of_eq rfl rfl rfl)
  · rw [onMining_eq]
    dsimp only
    split
    · rename_i hpos
      have hT : 0 < (s.totalShare (dexID, a, b)).val := by simpa [Dec.isPositive] using hpos
      by_cases hk : key = (dexID, a, b)
      · subst hk
        rw [Function.update_self]
        exact Int.add_nonneg (hI.globalMask_nonneg _) (Dec.quoNonzero_nonneg hd hT)
      · rw [Function.update_of_ne hk]
        exact hI.globalMask_nonneg key
    · exact hI.globalMask_nonneg key
  · rw [unclaimed_onMining]
    have hu := hI.unclaimed_nonneg addr key
    split
    · rename_i hk
      have hL : 0 ≤ ((s.liquidity key).get addr).getD 0 :=
        hI.shares.getLiquidity_nonneg addr key.1 key.2.1 key.2.2
      exact Int.add_nonneg hu (Int.mul_nonneg (Dec.quoNonzero_nonneg hd hk.2) hL)
    · omega

/-- **Every distribution of the loop is nonnegative**, so the loop keeps
the invariant: what remains covers the parts of the weights still to
come, `amount · Σ weights ≤ remaining · totalWeight`, and what the last
weight takes is not negative. -/
theorem distributeLoop_miningInv {amount totalWeight : ℤ} (hamount : 0 ≤ amount)
    (hW : 0 < totalWeight) :
    ∀ (ws : List MiningWeight) (remaining : ℤ) (s : State), MiningInv env s →
      (∀ w ∈ ws, 0 < w.weight) →
      amount * (ws.map MiningWeight.weight).sum ≤ remaining * totalWeight →
      MiningInv env (distributeLoop env amount totalWeight ws remaining s)
  | [], _, _, hI, _, _ => hI
  | w :: ws, remaining, s, hI, hpos, hcover => by
    have hw := hpos w List.mem_cons_self
    have hrest : ∀ w ∈ ws, 0 < w.weight := fun w' hw' => hpos w' (List.mem_cons_of_mem w hw')
    have hpart : 0 ≤ amount * w.weight := Int.mul_nonneg hamount hw.le
    have hcover' : amount * w.weight + amount * (ws.map MiningWeight.weight).sum ≤
        remaining * totalWeight := by
      simpa [Int.mul_add] using hcover
    have hsum : 0 ≤ amount * (ws.map MiningWeight.weight).sum :=
      Int.mul_nonneg hamount (List.sum_nonneg fun x hx => by
        obtain ⟨w', hw', rfl⟩ := List.mem_map.mp hx
        exact (hrest w' hw').le)
    unfold distributeLoop
    generalize sortTokensOrKeep env w.tokenA w.tokenB = tokens
    obtain ⟨x, y⟩ := tokens
    by_cases hlast : ws.isEmpty = true
    · -- the last weight takes what remains
      rw [if_pos hlast]
      have hrem : 0 ≤ remaining :=
        Int.le_of_mul_le_mul_right (by rw [Int.zero_mul]; omega) hW
      exact distributeLoop_miningInv hamount hW ws remaining _ (onMining_miningInv hI _ _ _ hrem) hrest
        (by omega)
    · -- another weight takes its part, rounded toward zero
      rw [if_neg hlast]
      have hdist : 0 ≤ (amount * w.weight).tdiv totalWeight := Int.tdiv_nonneg hpart hW.le
      have hmul : (amount * w.weight).tdiv totalWeight * totalWeight ≤ amount * w.weight := by
        rw [Int.tdiv_eq_ediv_of_nonneg hpart]
        exact Int.ediv_mul_le _ hW.ne'
      refine distributeLoop_miningInv hamount hW ws _ _ (onMining_miningInv hI _ _ _ hdist) hrest ?_
      rw [Int.sub_mul]
      omega

/-- **`distribute` keeps the invariant**, for a nonnegative amount and
positive weights. -/
theorem distribute_miningInv (hvalid : params.WeightsPositive) (hI : MiningInv env s) {amount : ℤ}
    (hamount : 0 ≤ amount) : MiningInv env (distribute env params s amount) := by
  unfold distribute
  dsimp only
  unfold MiningParams.WeightsPositive at hvalid
  cases hws : params.miningWeights with
  | nil => exact hI
  | cons w ws =>
    rw [hws] at hvalid
    have hW : 0 < ((w :: ws).map MiningWeight.weight).sum :=
      List.sum_pos _ (fun x hx => by
        obtain ⟨w', hw', rfl⟩ := List.mem_map.mp hx
        exact hvalid w' hw') (by simp)
    exact distributeLoop_miningInv hamount hW (w :: ws) amount s hI hvalid le_rfl

/-- **`Mining` keeps the invariant.** -/
theorem mining_miningInv (hvalid : params.WeightsPositive) {c c' : MiningChain} {height : ℕ}
    (hI : MiningInv env c.swap) (h : mining env params height c = .ok c') : MiningInv env c'.swap := by
  unfold mining at h
  dsimp only at h
  split at h
  · rw [pure_eq_ok] at h
    exact h ▸ hI
  · split at h
    · rw [pure_eq_ok] at h
      exact h ▸ hI
    · split at h
      · rw [pure_eq_ok] at h
        exact h ▸ hI
      · rename_i hpos
        -- the mint moved the balances, then the amount was distributed
        split at h
        · rw [pure_eq_ok] at h
          subst h
          exact distribute_miningInv params hvalid (hI.withTrk _) (by omega)
        · cases h
        · cases h

/-- **A claim keeps the invariant**: it takes the whole units of a
nonnegative earning, and leaves the rest. -/
theorem claimEarning_miningInv (hI : MiningInv env s) {s' : State} {addr : CUAddress} {dexID : ℕ}
    {a b : Symbol} (h : claimEarning env params s addr dexID a b = .ok s') : MiningInv env s' := by
  rcases hxy : sortTokensOrKeep env a b with ⟨x, y⟩
  have hsorted : sortTokensOrKeep env x y = (x, y) := by
    have hidem : sortTokensOrKeep env (sortTokensOrKeep env a b).1 (sortTokensOrKeep env a b).2 =
        sortTokensOrKeep env a b := sortTokensOrKeep_idem a b
    rwa [hxy] at hidem
  have hunclaimed := unclaimed_claimEarning params hxy h
  obtain ⟨trk, rfl⟩ := claimEarning_eq_ok params hxy h
  refine ⟨hI.shares.sameShares (State.SameShares.of_eq rfl rfl rfl), hI.globalMask_nonneg,
    fun addr' key => ?_⟩
  rw [hunclaimed addr' key]
  split_ifs with hk
  · -- the earning is the whole units of what was unclaimed, at the key sorted once more
    have hu := hI.unclaimed_nonneg addr (dexID, x, y)
    have hearn : calculateEarning env s addr dexID x y = s.unclaimed addr (dexID, x, y) / precisionInt := by
      rw [calculateEarning_eq, hsorted, Int.tdiv_eq_ediv_of_nonneg hu]
    have hmul := Int.ediv_mul_le (s.unclaimed addr (dexID, x, y)) precisionInt_pos.ne'
    rw [hearn, max_eq_right (Int.ediv_nonneg hu precisionInt_pos.le)]
    omega
  · exact hI.unclaimed_nonneg addr' key

/-- **Every event of the mining chain keeps the invariant**, under positive
weights. -/
theorem miningInv_step (hmin : 0 < env.minimumLiquidity) (hvalid : params.WeightsPositive)
    {c : MiningChain} (hI : MiningInv env c.swap) (e : MiningEvent) :
    MiningInv env (miningStep env params c e).swap := by
  cases e with
  | addLiquidity blockTime msg =>
    refine commit_preserves (fun s' h => ?_) hI
    simp only [deliverTx, handle, handleMsgAddLiquidity, bind_eq_ok] at h
    obtain ⟨-, -, ⟨a, b⟩, hsort, -, -, h⟩ := h
    -- the amounts follow the tokens into their order
    generalize (if a ≠ msg.tokenA then _ else _ : ℤ × ℤ) = amounts at h
    obtain ⟨maxA, maxB⟩ := amounts
    have hab := (sortTokens_eq_ok hsort).1
    obtain ⟨trk, pair, l, ha, hb, hv, hT, rfl⟩ := addLiquidity_eq_ok hmin hI.shares hab h
    exact hI.saveShares trk ha hb hab msg.fromAddr l hv hT
  | removeLiquidity blockTime msg =>
    refine commit_preserves (fun s' h => ?_) hI
    simp only [deliverTx, handle, handleMsgRemoveLiquidity, bind_eq_ok] at h
    obtain ⟨-, -, ⟨a, b⟩, hsort, -, -, h⟩ := h
    have hab := (sortTokens_eq_ok hsort).1
    obtain ⟨trk, pair, ha, hb, hv, hT, rfl⟩ := removeLiquidity_eq_ok hI.shares hab h
    exact hI.saveShares trk ha hb hab msg.fromAddr (-msg.liquidity) hv hT
  | mining height =>
    exact commit_preserves (I := fun c => MiningInv env c.swap)
      (fun _ h => mining_miningInv params hvalid hI h) hI
  | claimEarning msg =>
    dsimp only [miningStep]
    refine commit_preserves (fun s' h => ?_) hI
    simp only [handleMsgClaimEarning, bind_eq_ok] at h
    obtain ⟨-, -, ⟨a, b⟩, -, h⟩ := h
    exact claimEarning_miningInv params hI h

/-- **`CalculateEarning` is never negative** on a run of the mining chain
from an empty store, under the positive weights `Params.Validate` asks
for. -/
theorem calculateEarning_nonneg (hmin : 0 < env.minimumLiquidity) (hvalid : params.WeightsPositive)
    {trk : Balances} {supply : DefiSupply} {c : MiningChain}
    (h : Reachable (miningStep env params) (MiningChain.init trk supply) c) (addr : CUAddress)
    (dexID : ℕ) (a b : Symbol) : 0 ≤ calculateEarning env c.swap addr dexID a b := by
  have hI : MiningInv env c.swap :=
    h.invariant (I := fun c => MiningInv env c.swap) (miningInv_init trk)
      fun _ e hc => miningInv_step params hmin hvalid hc e
  rw [calculateEarning_eq]
  exact Int.tdiv_nonneg (hI.unclaimed_nonneg _ _) precisionInt_pos.le

/-! ## A pair that pays out more than it was given

`alice` opens the `btc`-`usdt` pair of dex `0` with `10^20 + 1000` of each
token and holds all its `10^20` shares; `bob` opens the `eth`-`usdt` pair
with `10^19 + 1000` of each and holds its `10^19` shares. The two pairs
weigh the same and `300` tokens are mined per block from height `1`, so
the block at height `1` gives each pair `150`. -/

/-- `btc`, `eth` and `usdt`, of equal weight: a pair's tokens are in
alphabetical order. -/
def miningEnv : Env :=
  { expiryEnv with
    getToken := fun symbol =>
      if symbol = "btc" ∨ symbol = "eth" ∨ symbol = "usdt" then some ⟨1, true⟩ else none }

/-- Two pairs of equal weight, `300` per block from height `1`. -/
def twoPairParams : MiningParams where
  refererMiningBonusRate := Dec.zero
  miningWeights := [⟨0, "btc", "usdt", 1⟩, ⟨0, "eth", "usdt", 1⟩]
  miningPlans := [⟨1, 300⟩]
  defiTotalSupply := some (10 ^ 30)

/-- `alice` has `10^20 + 1000` `btc` and `usdt`, `bob` `10^19 + 1000` `eth`
and `usdt`. -/
def miningGenesis : Balances :=
  ⟨fun e => if e.1 = "alice" ∧ (e.2 = "btc" ∨ e.2 = "usdt") then 10 ^ 20 + 1000
    else if e.1 = "bob" ∧ (e.2 = "eth" ∨ e.2 = "usdt") then 10 ^ 19 + 1000 else 0, fun _ => 0⟩

/-- The chain after the two deposits and the block at height `1`. -/
def afterFirstBlock : MiningChain :=
  run (miningStep miningEnv twoPairParams) (MiningChain.init miningGenesis ⟨0, 0⟩)
    [.addLiquidity 1 ⟨"alice", 0, "btc", "usdt", 10 ^ 20 + 1000, 10 ^ 20 + 1000, 0⟩,
     .addLiquidity 1 ⟨"bob", 0, "eth", "usdt", 10 ^ 19 + 1000, 10 ^ 19 + 1000, 0⟩,
     .mining 1]

/-- The chain after `alice`'s claim. -/
def afterAliceClaim : MiningChain :=
  run (miningStep miningEnv twoPairParams) afterFirstBlock [.claimEarning ⟨"alice", 0, "btc", "usdt"⟩]

/-- **A pair pays out more than it was given.** The block mints `300` and
gives `150` to `alice`'s pair, whose amount per share, `1.5` units of the
eighteenth place, rounds up to `2`; so `alice` claims `200`, and the module
account keeps `100` of the `300`, though `bob`'s pair was given `150`. -/
theorem claim_pays_more_than_mined :
    afterFirstBlock.supply.total = 300 ∧
      (Dec.ofInt 150).quo (Dec.ofInt (10 ^ 20)) = .ok (afterFirstBlock.swap.globalMask (0, "btc", "usdt")) ∧
      calculateEarning miningEnv afterFirstBlock.swap "alice" 0 "btc" "usdt" = 200 ∧
      afterAliceClaim.swap.trk.getBalance "alice" nativeDefiToken = 200 ∧
      afterAliceClaim.swap.trk.getBalance miningEnv.moduleCUAddress nativeDefiToken = 100 := by
  decide +kernel

/- `bob`'s claim of `150` then finds `100`: the send fails, and reading
its flows panics. -/
example : (claimEarning miningEnv twoPairParams afterAliceClaim.swap "bob" 0 "eth" "usdt").isOk = false := by
  decide +kernel

end Openswap
