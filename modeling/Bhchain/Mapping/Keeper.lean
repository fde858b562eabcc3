import Bhchain.Transfer.Balance
import Bhchain.Lib.KVStore

/-!
# The swap orders of the mapping module (`x/mapping/keeper.go`)

An owner puts tokens of a source symbol up for swap against a target
symbol. A *free* swap order is filled by anyone, in parts between a
minimum and a maximum, at a fixed price; a *direct* swap order is filled
at once and only by its named receiver. The tokens on offer leave the
owner's balance when the order is created and wait in one pool shared by
all orders (`swapPoolKey`); a fill pays them out of the pool to the taker,
a cancellation back to the owner.

The keeper's store holds the orders of each kind under their order ID and
the pool; the transfer keeper's balances are part of the state, since
every operation moves money. A read of the store decodes what an earlier
write encoded, so the codec is left out: the store holds the values
themselves.

Each operation is an `Except Failure State`: an error or a panic leaves
the state to the transaction's rollback. The two branches of `SwapSymbol`
and of `CancelSwap` (free and direct) are given their own definitions,
`swapSymbolFree` and so on, and the pool write that closes each of them
is `saveSwapPool`.
-/

namespace Mapping

open Sdk Transfer KVStore Transition

/-- `SwapTypeFree`. -/
def swapTypeFree : ℤ := 0

/-- `SwapTypeDirect`. -/
def swapTypeDirect : ℤ := 1

/-- **`FreeSwapInfo`**: what a free swap order offers. -/
structure FreeSwapInfo where
  srcSymbol : Denom
  targetSymbol : Denom
  totalAmount : ℤ
  maxSwapAmount : ℤ
  minSwapAmount : ℤ
  swapPrice : ℤ
  expiredTime : ℤ
  desc : String
  deriving DecidableEq, Repr

/-- **`DirectSwapInfo`**: what a direct swap order offers, and to whom. -/
structure DirectSwapInfo where
  srcSymbol : Denom
  targetSymbol : Denom
  amount : ℤ
  swapAmount : ℤ
  expiredTime : ℤ
  receiveAddr : String
  desc : String
  deriving DecidableEq, Repr

/-- **`FreeSwapOrder`**. -/
structure FreeSwapOrder where
  orderId : String
  owner : CUAddress
  swapInfo : FreeSwapInfo
  remainAmount : ℤ
  deriving DecidableEq, Repr

/-- **`DirectSwapOrder`**. -/
structure DirectSwapOrder where
  orderId : String
  owner : CUAddress
  swapInfo : DirectSwapInfo
  deriving DecidableEq, Repr

/-- **The state the mapping handlers read and write**: the orders under
`freeSwapOrderStoreKey` and `directSwapOrderStoreKey`, the pool under
`swapPoolKey` (`none` when the key is absent), and the transfer keeper's
balances. -/
structure State where
  freeSwapOrders : Store String FreeSwapOrder
  directSwapOrders : Store String DirectSwapOrder
  swapPool : Option Coins
  trk : Balances

/-- **What the other keepers answer.** `GetDecimals` of the token keeper's
token, `none` where `GetToken` returns nil. -/
structure Env where
  isValidAddr : String → Bool
  isIllegalOrderID : String → Bool
  cuAddressFromBase58 : String → Option CUAddress
  getCU : CUAddress → Bool
  getDecimals : Denom → Option ℕ

namespace State

/-- `IsSwapOrderExist`: a type other than free reads the direct orders. -/
def isSwapOrderExist (s : State) (orderID : String) (swapType : ℤ) : Bool :=
  if swapType = swapTypeFree then s.freeSwapOrders.has orderID
  else s.directSwapOrders.has orderID

/-- The pool the create calls start from: the stored one, or
`NewCoins(NewCoin(NativeToken, 0))` when the key is absent. -/
def swapPoolOrNew (s : State) : Except Failure Coins :=
  match s.swapPool with
  | some swapPool => pure swapPool
  | none => do
    let zero ← newCoin nativeToken 0
    pure (newCoins zero)

/-- The pool `SwapSymbol` and `CancelSwap` start from: they fail without
one. -/
def getSwapPool (s : State) : Except Failure Coins :=
  orFail s.swapPool (errInvalidTx "Get Swap Pool Err")

/-- The pool write that closes a fill or a cancellation: an empty pool
deletes the key. -/
def saveSwapPool (s : State) (swapPool : Coins) : State :=
  { s with swapPool := if swapPool.empty then none else some swapPool }

@[simp] theorem freeSwapOrders_saveSwapPool (s : State) (p : Coins) :
    (s.saveSwapPool p).freeSwapOrders = s.freeSwapOrders := rfl

@[simp] theorem directSwapOrders_saveSwapPool (s : State) (p : Coins) :
    (s.saveSwapPool p).directSwapOrders = s.directSwapOrders := rfl

@[simp] theorem trk_saveSwapPool (s : State) (p : Coins) :
    (s.saveSwapPool p).trk = s.trk := rfl

theorem swapPoolOrNew_eq_ok {s : State} {p : Coins} (h : s.swapPoolOrNew = .ok p) :
    p = s.swapPool.getD [] := by
  unfold swapPoolOrNew at h
  cases hp : s.swapPool with
  | some q =>
    simp only [hp] at h
    exact (Transition.pure_eq_ok.mp h).symm
  | none =>
    -- the native token's zero coin is dropped by `NewCoins`
    have hzero : newCoin nativeToken 0 = .ok (nativeToken, 0) :=
      newCoin_eq_ok.mpr ⟨by decide, Int.le_refl 0, rfl⟩
    simp only [hp, hzero] at h
    exact (Transition.pure_eq_ok.mp h).symm

theorem getSwapPool_eq_ok {s : State} {p : Coins} :
    s.getSwapPool = .ok p ↔ s.swapPool = some p :=
  orFail_eq_ok

end State

open State

/-- **`CreateFreeSwapOrder`**: the owner pays `TotalAmount` into the pool;
a `MaxSwapAmount` of zero means the whole amount. -/
def createFreeSwapOrder (s : State) (owner : CUAddress) (swapInfo : FreeSwapInfo)
    (orderID : String) : Except Failure State := do
  let swapPool ← s.swapPoolOrNew
  let swapInfo :=
    if swapInfo.maxSwapAmount = 0 then { swapInfo with maxSwapAmount := swapInfo.totalAmount }
    else swapInfo
  let needCoin ← newCoin swapInfo.srcSymbol swapInfo.totalAmount
  let trk ← s.trk.subCoin owner needCoin
  let swapPool := swapPool.add (newCoins needCoin)
  let freeSwapOrder : FreeSwapOrder := ⟨orderID, owner, swapInfo, swapInfo.totalAmount⟩
  pure { s with
    freeSwapOrders := s.freeSwapOrders.set orderID freeSwapOrder
    swapPool := some swapPool
    trk := trk }

/-- **`CreateDirectSwapOrder`**: the owner pays `Amount` into the pool. -/
def createDirectSwapOrder (s : State) (owner : CUAddress) (swapInfo : DirectSwapInfo)
    (orderID : String) : Except Failure State := do
  let swapPool ← s.swapPoolOrNew
  let needCoin ← newCoin swapInfo.srcSymbol swapInfo.amount
  let trk ← s.trk.subCoin owner needCoin
  let swapPool := swapPool.add (newCoins needCoin)
  let directSwapOrder : DirectSwapOrder := ⟨orderID, owner, swapInfo⟩
  pure { s with
    directSwapOrders := s.directSwapOrders.set orderID directSwapOrder
    swapPool := some swapPool
    trk := trk }

/-- The free branch of `SwapSymbol`: the taker pays the owner
`swapAmount * SwapPrice / 10^decimals` of the target symbol and receives
`swapAmount` of the source symbol from the pool. -/
def swapSymbolFree (env : Env) (s : State) (blockTime : ℤ) (swapPool : Coins)
    (fromCUAddr : CUAddress) (orderID : String) (swapAmount : ℤ) : Except Failure State := do
  let order ← orFail (s.freeSwapOrders.get orderID) (errInvalidOrder "swap order not exitst:%v")
  failIf (order.swapInfo.expiredTime ≠ 0 ∧ blockTime > order.swapInfo.expiredTime)
    (errInvalidTx "swap time is expired")
  failIf (swapAmount < order.swapInfo.minSwapAmount ∨ swapAmount > order.swapInfo.maxSwapAmount)
    (errInvalidTx "swap amount not fit")
  failIf (order.remainAmount < swapAmount)
    (errInvalidAmount "reamain coin amount not enough:%v, %v")
  -- `GetDecimals` on the nil token that `GetToken` returns for an unknown symbol
  let decimals ← orFail (env.getDecimals order.swapInfo.srcSymbol) nilPointerDereference
  -- `big.Int` division truncates toward zero; `NewDecFromInt(..).TruncateInt()` gives it back
  let needCoinAmt := (swapAmount * order.swapInfo.swapPrice).tdiv (10 ^ decimals)
  let needCoin ← newCoin order.swapInfo.targetSymbol needCoinAmt
  let swapCoin ← newCoin order.swapInfo.srcSymbol swapAmount
  let trk ← s.trk.sendCoin fromCUAddr order.owner needCoin
  let trk ← trk.addCoin fromCUAddr swapCoin
  let swapPool ← swapPool.sub (newCoins swapCoin)
  let order := { order with remainAmount := order.remainAmount - swapAmount }
  let freeSwapOrders :=
    if order.remainAmount = 0 then s.freeSwapOrders.delete orderID
    else s.freeSwapOrders.set orderID order
  pure (saveSwapPool { s with freeSwapOrders := freeSwapOrders, trk := trk } swapPool)

/-- The direct branch of `SwapSymbol`: only the receiver fills, and fills
the whole order. -/
def swapSymbolDirect (s : State) (blockTime : ℤ) (swapPool : Coins) (fromCUAddr : CUAddress)
    (orderID : String) : Except Failure State := do
  let order ← orFail (s.directSwapOrders.get orderID) (errInvalidOrder "swap order not exitst:%v")
  failIf (order.swapInfo.expiredTime ≠ 0 ∧ blockTime > order.swapInfo.expiredTime)
    (errInvalidTx "swap time is expired")
  failIf (order.swapInfo.receiveAddr ≠ fromCUAddr)
    (errInvalidAddr "swap addr is not expected:%v, %v")
  let needCoin ← newCoin order.swapInfo.targetSymbol order.swapInfo.swapAmount
  let swapCoin ← newCoin order.swapInfo.srcSymbol order.swapInfo.amount
  let trk ← s.trk.sendCoin fromCUAddr order.owner needCoin
  let trk ← trk.addCoin fromCUAddr swapCoin
  let swapPool ← swapPool.sub (newCoins swapCoin)
  pure (saveSwapPool
    { s with directSwapOrders := s.directSwapOrders.delete orderID, trk := trk } swapPool)

/-- **`SwapSymbol`**: a swap type other than free is read as direct. -/
def swapSymbol (env : Env) (s : State) (blockTime : ℤ) (fromCUAddr : CUAddress) (swapType : ℤ)
    (orderID : String) (swapAmount : ℤ) : Except Failure State := do
  let swapPool ← s.getSwapPool
  if swapType = swapTypeFree then
    swapSymbolFree env s blockTime swapPool fromCUAddr orderID swapAmount
  else
    swapSymbolDirect s blockTime swapPool fromCUAddr orderID

/-- The free branch of `CancelSwap`: what remains goes back to the owner;
the pool is written only when something remained. -/
def cancelSwapFree (s : State) (swapPool : Coins) (fromCUAddr : CUAddress) (orderID : String) :
    Except Failure State := do
  let order ← orFail (s.freeSwapOrders.get orderID) (errInvalidOrder "swap order not exitst:%v")
  failIf (order.owner ≠ fromCUAddr) (errInvalidAddr "swap order addr err:%v, %v")
  let s ← if 0 < order.remainAmount then do
      let cancelCoin ← newCoin order.swapInfo.srcSymbol order.remainAmount
      let trk ← s.trk.addCoin order.owner cancelCoin
      let swapPool ← swapPool.sub (newCoins cancelCoin)
      pure (saveSwapPool { s with trk := trk } swapPool)
    else pure s
  pure { s with freeSwapOrders := s.freeSwapOrders.delete orderID }

/-- The direct branch of `CancelSwap`: the whole amount goes back to the
owner. -/
def cancelSwapDirect (s : State) (swapPool : Coins) (fromCUAddr : CUAddress) (orderID : String) :
    Except Failure State := do
  let order ← orFail (s.directSwapOrders.get orderID) (errInvalidOrder "swap order not exitst:%v")
  failIf (order.owner ≠ fromCUAddr) (errInvalidAddr "swap order addr err:%v, %v")
  let cancelCoin ← newCoin order.swapInfo.srcSymbol order.swapInfo.amount
  let trk ← s.trk.addCoin order.owner cancelCoin
  let swapPool ← swapPool.sub (newCoins cancelCoin)
  let s := saveSwapPool { s with trk := trk } swapPool
  pure { s with directSwapOrders := s.directSwapOrders.delete orderID }

/-- **`CancelSwap`**: a swap type other than free is read as direct. -/
def cancelSwap (s : State) (fromCUAddr : CUAddress) (swapType : ℤ) (orderID : String) :
    Except Failure State := do
  let swapPool ← s.getSwapPool
  if swapType = swapTypeFree then cancelSwapFree s swapPool fromCUAddr orderID
  else cancelSwapDirect s swapPool fromCUAddr orderID

/-! ### What a successful call did

One lemma per operation, saying every guard it passed and the whole state
it returns; the invariants of `Mapping.Pool` are proved from these alone. -/

section spec

variable {env : Env} {s s' : State} {blockTime : ℤ} {swapPool : Coins} {fromCUAddr : CUAddress}
  {orderID : String}

theorem createFreeSwapOrder_eq_ok {owner : CUAddress} {swapInfo : FreeSwapInfo}
    (h : createFreeSwapOrder s owner swapInfo orderID = .ok s') :
    ∃ trk, 0 ≤ swapInfo.totalAmount ∧
      s.trk.subCoin owner (swapInfo.srcSymbol, swapInfo.totalAmount) = .ok trk ∧
      s' = { s with
        freeSwapOrders := s.freeSwapOrders.set orderID
          ⟨orderID, owner,
            if swapInfo.maxSwapAmount = 0 then { swapInfo with maxSwapAmount := swapInfo.totalAmount }
            else swapInfo, swapInfo.totalAmount⟩
        swapPool := some ((s.swapPool.getD []).add (newCoins (swapInfo.srcSymbol, swapInfo.totalAmount)))
        trk := trk } := by
  unfold createFreeSwapOrder at h
  simp only [bind_eq_ok, pure_eq_ok] at h
  obtain ⟨pool, hpool, needCoin, hneed, trk, hsub, rfl⟩ := h
  rw [swapPoolOrNew_eq_ok hpool]
  -- the default for `MaxSwapAmount` changes neither the symbol nor the amount
  have hinfo : ∀ i : FreeSwapInfo, (if i.maxSwapAmount = 0 then
      { i with maxSwapAmount := i.totalAmount } else i).srcSymbol = i.srcSymbol ∧
      (if i.maxSwapAmount = 0 then { i with maxSwapAmount := i.totalAmount } else i).totalAmount =
        i.totalAmount := by
    intro i
    split <;> exact ⟨rfl, rfl⟩
  rw [hinfo swapInfo |>.1, hinfo swapInfo |>.2] at hneed
  obtain ⟨-, hnn, rfl⟩ := newCoin_eq_ok.mp hneed
  refine ⟨trk, hnn, hsub, ?_⟩
  rw [hinfo swapInfo |>.2]

theorem createDirectSwapOrder_eq_ok {owner : CUAddress} {swapInfo : DirectSwapInfo}
    (h : createDirectSwapOrder s owner swapInfo orderID = .ok s') :
    ∃ trk, 0 ≤ swapInfo.amount ∧
      s.trk.subCoin owner (swapInfo.srcSymbol, swapInfo.amount) = .ok trk ∧
      s' = { s with
        directSwapOrders := s.directSwapOrders.set orderID ⟨orderID, owner, swapInfo⟩
        swapPool := some ((s.swapPool.getD []).add (newCoins (swapInfo.srcSymbol, swapInfo.amount)))
        trk := trk } := by
  unfold createDirectSwapOrder at h
  simp only [bind_eq_ok, pure_eq_ok] at h
  obtain ⟨pool, hpool, needCoin, hneed, trk, hsub, rfl⟩ := h
  rw [swapPoolOrNew_eq_ok hpool]
  obtain ⟨-, hnn, rfl⟩ := newCoin_eq_ok.mp hneed
  exact ⟨trk, hnn, hsub, rfl⟩

theorem swapSymbolFree_eq_ok {swapAmount : ℤ}
    (h : swapSymbolFree env s blockTime swapPool fromCUAddr orderID swapAmount = .ok s') :
    ∃ order needCoin trk₁ trk₂ pool',
      s.freeSwapOrders.get orderID = some order ∧
      0 ≤ swapAmount ∧ swapAmount ≤ order.remainAmount ∧
      s.trk.sendCoin fromCUAddr order.owner needCoin = .ok trk₁ ∧
      trk₁.addCoin fromCUAddr (order.swapInfo.srcSymbol, swapAmount) = .ok trk₂ ∧
      swapPool.sub (newCoins (order.swapInfo.srcSymbol, swapAmount)) = .ok pool' ∧
      s' = saveSwapPool { s with
        freeSwapOrders :=
          if order.remainAmount - swapAmount = 0 then s.freeSwapOrders.delete orderID
          else s.freeSwapOrders.set orderID
            { order with remainAmount := order.remainAmount - swapAmount }
        trk := trk₂ } pool' := by
  unfold swapSymbolFree at h
  simp only [bind_eq_ok, pure_eq_ok, orFail_eq_ok, failIf_eq_ok] at h
  obtain ⟨order, hget, -, -, -, -, -, hrem, -, -, needCoin, -, swapCoin, hswap, trk₁, hsend, trk₂,
    hadd, pool', hsub, rfl⟩ := h
  obtain ⟨-, hnn, rfl⟩ := newCoin_eq_ok.mp hswap
  exact ⟨order, needCoin, trk₁, trk₂, pool', hget, hnn, not_lt.mp hrem, hsend, hadd, hsub, rfl⟩

theorem swapSymbolDirect_eq_ok
    (h : swapSymbolDirect s blockTime swapPool fromCUAddr orderID = .ok s') :
    ∃ order needCoin trk₁ trk₂ pool',
      s.directSwapOrders.get orderID = some order ∧ 0 ≤ order.swapInfo.amount ∧
      s.trk.sendCoin fromCUAddr order.owner needCoin = .ok trk₁ ∧
      trk₁.addCoin fromCUAddr (order.swapInfo.srcSymbol, order.swapInfo.amount) = .ok trk₂ ∧
      swapPool.sub (newCoins (order.swapInfo.srcSymbol, order.swapInfo.amount)) = .ok pool' ∧
      s' = saveSwapPool
        { s with directSwapOrders := s.directSwapOrders.delete orderID, trk := trk₂ } pool' := by
  unfold swapSymbolDirect at h
  simp only [bind_eq_ok, pure_eq_ok, orFail_eq_ok, failIf_eq_ok] at h
  obtain ⟨order, hget, -, -, -, -, needCoin, -, swapCoin, hswap, trk₁, hsend, trk₂, hadd,
    pool', hsub, rfl⟩ := h
  obtain ⟨-, hnn, rfl⟩ := newCoin_eq_ok.mp hswap
  exact ⟨order, needCoin, trk₁, trk₂, pool', hget, hnn, hsend, hadd, hsub, rfl⟩

theorem cancelSwapFree_eq_ok (h : cancelSwapFree s swapPool fromCUAddr orderID = .ok s') :
    ∃ order, s.freeSwapOrders.get orderID = some order ∧
      ((order.remainAmount ≤ 0 ∧
          s' = { s with freeSwapOrders := s.freeSwapOrders.delete orderID }) ∨
        (0 < order.remainAmount ∧ ∃ trk pool',
          s.trk.addCoin order.owner (order.swapInfo.srcSymbol, order.remainAmount) = .ok trk ∧
          swapPool.sub (newCoins (order.swapInfo.srcSymbol, order.remainAmount)) = .ok pool' ∧
          s' = { saveSwapPool { s with trk := trk } pool' with
            freeSwapOrders := s.freeSwapOrders.delete orderID })) := by
  unfold cancelSwapFree at h
  simp only [bind_eq_ok, orFail_eq_ok, failIf_eq_ok] at h
  obtain ⟨order, hget, -, -, h⟩ := h
  refine ⟨order, hget, ?_⟩
  split at h
  · -- something remained: it is paid back out of the pool
    rename_i hpos
    simp only [bind_eq_ok, pure_eq_ok] at h
    obtain ⟨cancelCoin, hcancel, trk, hadd, pool', hsub, s₁, rfl, rfl⟩ := h
    obtain ⟨-, -, rfl⟩ := newCoin_eq_ok.mp hcancel
    exact .inr ⟨hpos, trk, pool', hadd, hsub, rfl⟩
  · rename_i hpos
    simp only [bind_eq_ok, pure_eq_ok] at h
    obtain ⟨s₁, rfl, rfl⟩ := h
    exact .inl ⟨not_lt.mp hpos, rfl⟩

theorem cancelSwapDirect_eq_ok (h : cancelSwapDirect s swapPool fromCUAddr orderID = .ok s') :
    ∃ order trk pool', s.directSwapOrders.get orderID = some order ∧ 0 ≤ order.swapInfo.amount ∧
      s.trk.addCoin order.owner (order.swapInfo.srcSymbol, order.swapInfo.amount) = .ok trk ∧
      swapPool.sub (newCoins (order.swapInfo.srcSymbol, order.swapInfo.amount)) = .ok pool' ∧
      s' = { saveSwapPool { s with trk := trk } pool' with
        directSwapOrders := s.directSwapOrders.delete orderID } := by
  unfold cancelSwapDirect at h
  simp only [bind_eq_ok, pure_eq_ok, orFail_eq_ok, failIf_eq_ok] at h
  obtain ⟨order, hget, -, -, cancelCoin, hcancel, trk, hadd, pool', hsub, rfl⟩ := h
  obtain ⟨-, hnn, rfl⟩ := newCoin_eq_ok.mp hcancel
  exact ⟨order, trk, pool', hget, hnn, hadd, hsub, rfl⟩

/-- `SwapSymbol` reads the pool, then runs the branch of the swap type. -/
theorem swapSymbol_eq_ok {swapType : ℤ} {swapAmount : ℤ}
    (h : swapSymbol env s blockTime fromCUAddr swapType orderID swapAmount = .ok s') :
    ∃ p, s.swapPool = some p ∧
      ((swapType = swapTypeFree ∧
          swapSymbolFree env s blockTime p fromCUAddr orderID swapAmount = .ok s') ∨
        (swapType ≠ swapTypeFree ∧ swapSymbolDirect s blockTime p fromCUAddr orderID = .ok s')) := by
  unfold swapSymbol at h
  obtain ⟨p, hp, h⟩ := bind_eq_ok.mp h
  refine ⟨p, getSwapPool_eq_ok.mp hp, ?_⟩
  by_cases ht : swapType = swapTypeFree
  · rw [if_pos ht] at h
    exact .inl ⟨ht, h⟩
  · rw [if_neg ht] at h
    exact .inr ⟨ht, h⟩

/-- `CancelSwap` reads the pool, then runs the branch of the swap type. -/
theorem cancelSwap_eq_ok {swapType : ℤ}
    (h : cancelSwap s fromCUAddr swapType orderID = .ok s') :
    ∃ p, s.swapPool = some p ∧
      ((swapType = swapTypeFree ∧ cancelSwapFree s p fromCUAddr orderID = .ok s') ∨
        (swapType ≠ swapTypeFree ∧ cancelSwapDirect s p fromCUAddr orderID = .ok s')) := by
  unfold cancelSwap at h
  obtain ⟨p, hp, h⟩ := bind_eq_ok.mp h
  refine ⟨p, getSwapPool_eq_ok.mp hp, ?_⟩
  by_cases ht : swapType = swapTypeFree
  · rw [if_pos ht] at h
    exact .inl ⟨ht, h⟩
  · rw [if_neg ht] at h
    exact .inr ⟨ht, h⟩

end spec

/-! ### Where the panic of `Sub` comes from

Every other failure of the keeper is an `sdk.Error` or another panic. A call
that panics with `negativeCoinAmount` therefore ran its `Sub`, on the
arguments these lemmas name. -/

section subPanic

variable {env : Env} {s : State} {blockTime : ℤ} {swapPool : Coins} {fromCUAddr : CUAddress}
  {orderID : String}

theorem swapSymbolFree_eq_negativeCoinAmount {swapAmount : ℤ}
    (h : swapSymbolFree env s blockTime swapPool fromCUAddr orderID swapAmount =
      .error negativeCoinAmount) :
    ∃ order, s.freeSwapOrders.get orderID = some order ∧ swapAmount ≤ order.remainAmount ∧
      swapPool.sub (newCoins (order.swapInfo.srcSymbol, swapAmount)) = .error negativeCoinAmount := by
  unfold swapSymbolFree at h
  simp only [bind_eq_error, orFail_eq_error, orFail_eq_ok, failIf_eq_error, failIf_eq_ok,
    pure_eq_error, errInvalidOrder, errInvalidTx, errInvalidAmount, error_ne_negativeCoinAmount,
    nilPointerDereference_ne_negativeCoinAmount, newCoin_ne_negativeCoinAmount,
    Balances.sendCoin_ne_negativeCoinAmount, Balances.addCoin_ne_negativeCoinAmount, and_false,
    false_or, or_false, exists_false] at h
  obtain ⟨order, hget, -, -, -, -, -, hrem, -, -, -, -, swapCoin, hswap, -, -, -, -, hsub⟩ := h
  obtain ⟨-, -, rfl⟩ := newCoin_eq_ok.mp hswap
  exact ⟨order, hget, not_lt.mp hrem, hsub⟩

theorem swapSymbolDirect_eq_negativeCoinAmount
    (h : swapSymbolDirect s blockTime swapPool fromCUAddr orderID = .error negativeCoinAmount) :
    ∃ order, s.directSwapOrders.get orderID = some order ∧
      swapPool.sub (newCoins (order.swapInfo.srcSymbol, order.swapInfo.amount)) =
        .error negativeCoinAmount := by
  unfold swapSymbolDirect at h
  simp only [bind_eq_error, orFail_eq_error, orFail_eq_ok, failIf_eq_error, failIf_eq_ok,
    pure_eq_error, errInvalidOrder, errInvalidTx, errInvalidAddr, error_ne_negativeCoinAmount,
    newCoin_ne_negativeCoinAmount, Balances.sendCoin_ne_negativeCoinAmount,
    Balances.addCoin_ne_negativeCoinAmount, and_false, false_or, or_false, exists_false] at h
  obtain ⟨order, hget, -, -, -, -, -, -, swapCoin, hswap, -, -, -, -, hsub⟩ := h
  obtain ⟨-, -, rfl⟩ := newCoin_eq_ok.mp hswap
  exact ⟨order, hget, hsub⟩

theorem cancelSwapFree_eq_negativeCoinAmount
    (h : cancelSwapFree s swapPool fromCUAddr orderID = .error negativeCoinAmount) :
    ∃ order, s.freeSwapOrders.get orderID = some order ∧
      swapPool.sub (newCoins (order.swapInfo.srcSymbol, order.remainAmount)) =
        .error negativeCoinAmount := by
  unfold cancelSwapFree at h
  simp only [bind_eq_error, orFail_eq_error, orFail_eq_ok, failIf_eq_error, failIf_eq_ok,
    errInvalidOrder, errInvalidAddr, error_ne_negativeCoinAmount, and_false, false_or] at h
  obtain ⟨order, hget, -, -, h⟩ := h
  refine ⟨order, hget, ?_⟩
  split at h
  · -- the refund runs the `Sub`
    simp only [bind_eq_error, pure_eq_error, newCoin_ne_negativeCoinAmount,
      Balances.addCoin_ne_negativeCoinAmount, false_or, or_false, and_false, exists_false] at h
    obtain ⟨cancelCoin, hcancel, -, -, hsub⟩ := h
    obtain ⟨-, -, rfl⟩ := newCoin_eq_ok.mp hcancel
    exact hsub
  · simp only [bind_eq_error, pure_eq_error, false_or, and_false, exists_false] at h

theorem cancelSwapDirect_eq_negativeCoinAmount
    (h : cancelSwapDirect s swapPool fromCUAddr orderID = .error negativeCoinAmount) :
    ∃ order, s.directSwapOrders.get orderID = some order ∧
      swapPool.sub (newCoins (order.swapInfo.srcSymbol, order.swapInfo.amount)) =
        .error negativeCoinAmount := by
  unfold cancelSwapDirect at h
  simp only [bind_eq_error, orFail_eq_error, orFail_eq_ok, failIf_eq_error, failIf_eq_ok,
    pure_eq_error, errInvalidOrder, errInvalidAddr, error_ne_negativeCoinAmount,
    newCoin_ne_negativeCoinAmount, Balances.addCoin_ne_negativeCoinAmount, and_false, false_or,
    or_false, exists_false] at h
  obtain ⟨order, hget, -, -, cancelCoin, hcancel, -, -, hsub⟩ := h
  obtain ⟨-, -, rfl⟩ := newCoin_eq_ok.mp hcancel
  exact ⟨order, hget, hsub⟩

/-- The create calls never run a `Sub`. -/
theorem createFreeSwapOrder_ne_negativeCoinAmount (owner : CUAddress) (swapInfo : FreeSwapInfo) :
    createFreeSwapOrder s owner swapInfo orderID ≠ .error negativeCoinAmount := by
  intro h
  unfold createFreeSwapOrder swapPoolOrNew at h
  split at h <;> simp only [bind_eq_error, pure_eq_error, newCoin_ne_negativeCoinAmount,
    Balances.subCoin_ne_negativeCoinAmount, and_false, or_false, exists_false] at h

theorem createDirectSwapOrder_ne_negativeCoinAmount (owner : CUAddress)
    (swapInfo : DirectSwapInfo) :
    createDirectSwapOrder s owner swapInfo orderID ≠ .error negativeCoinAmount := by
  intro h
  unfold createDirectSwapOrder swapPoolOrNew at h
  split at h <;> simp only [bind_eq_error, pure_eq_error, newCoin_ne_negativeCoinAmount,
    Balances.subCoin_ne_negativeCoinAmount, and_false, or_false, exists_false] at h

theorem swapSymbol_eq_negativeCoinAmount {swapType swapAmount : ℤ}
    (h : swapSymbol env s blockTime fromCUAddr swapType orderID swapAmount =
      .error negativeCoinAmount) :
    ∃ p, s.swapPool = some p ∧
      ((swapType = swapTypeFree ∧ swapSymbolFree env s blockTime p fromCUAddr orderID swapAmount =
          .error negativeCoinAmount) ∨
        (swapType ≠ swapTypeFree ∧ swapSymbolDirect s blockTime p fromCUAddr orderID =
          .error negativeCoinAmount)) := by
  unfold swapSymbol getSwapPool at h
  simp only [bind_eq_error, orFail_eq_error, orFail_eq_ok, errInvalidTx,
    error_ne_negativeCoinAmount, and_false, false_or] at h
  obtain ⟨p, hp, h⟩ := h
  refine ⟨p, hp, ?_⟩
  by_cases ht : swapType = swapTypeFree
  · rw [if_pos ht] at h
    exact .inl ⟨ht, h⟩
  · rw [if_neg ht] at h
    exact .inr ⟨ht, h⟩

theorem cancelSwap_eq_negativeCoinAmount {swapType : ℤ}
    (h : cancelSwap s fromCUAddr swapType orderID = .error negativeCoinAmount) :
    ∃ p, s.swapPool = some p ∧
      ((swapType = swapTypeFree ∧ cancelSwapFree s p fromCUAddr orderID = .error negativeCoinAmount) ∨
        (swapType ≠ swapTypeFree ∧
          cancelSwapDirect s p fromCUAddr orderID = .error negativeCoinAmount)) := by
  unfold cancelSwap getSwapPool at h
  simp only [bind_eq_error, orFail_eq_error, orFail_eq_ok, errInvalidTx,
    error_ne_negativeCoinAmount, and_false, false_or] at h
  obtain ⟨p, hp, h⟩ := h
  refine ⟨p, hp, ?_⟩
  by_cases ht : swapType = swapTypeFree
  · rw [if_pos ht] at h
    exact .inl ⟨ht, h⟩
  · rw [if_neg ht] at h
    exact .inr ⟨ht, h⟩

end subPanic

end Mapping
