import Bhchain.Mapping.Handler

/-!
# The swap pool holds exactly what the orders offer

The mapping keeper keeps the tokens of all swap orders in one pool, and
the order records separately: a free order's `RemainAmount`, a direct
order's whole `Amount`. Nothing in the code ties the two together; every
operation updates both. This module proves that they agree in every state
the handler can reach: for each symbol the pool holds the sum of what the
stored orders offer of it (`PoolInv.balanced`). Three facts come with it
and carry the induction: every stored order offers a positive amount, the
stored pool is well formed, and it is never stored empty.

From the invariant follow the properties a user relies on. The `Sub` of
`SwapSymbol` and `CancelSwap` never panics, since it takes from the pool
at most what one order offers (`deliverTx_ne_negativeCoinAmount`). The
pool key is absent exactly when no order is stored
(`swapPool_eq_none_iff`). And every call moves money only between
balances and order records: the balances of the addresses it touches and
the amounts the orders offer add up to the same total before and after
(`deliverTx_conserves`), so an amount paid out of an order is taken off
that order and cannot be paid again.
-/

namespace Mapping

open Sdk Transfer KVStore Transition

namespace State

/-- What the pool holds of a symbol; nothing when the key is absent. -/
def poolAmountOf (s : State) (d : Denom) : ℤ := (s.swapPool.getD []).amountOf d

/-- What a free order still offers of the symbol `d`. -/
def freeOffer (d : Denom) (_ : String) (o : FreeSwapOrder) : ℤ :=
  if o.swapInfo.srcSymbol = d then o.remainAmount else 0

/-- What a direct order offers of the symbol `d`. -/
def directOffer (d : Denom) (_ : String) (o : DirectSwapOrder) : ℤ :=
  if o.swapInfo.srcSymbol = d then o.swapInfo.amount else 0

/-- **What the stored orders offer of a symbol.** -/
def lockedAmountOf (s : State) (d : Denom) : ℤ :=
  s.freeSwapOrders.total (freeOffer d) + s.directSwapOrders.total (directOffer d)

/-- An empty pool written back by `saveSwapPool` is absent, so it holds
nothing either way. -/
theorem poolAmountOf_saveSwapPool (s : State) {p : Coins} (hp : p.WF) (d : Denom) :
    (s.saveSwapPool p).poolAmountOf d = p.amountOf d := by
  unfold saveSwapPool poolAmountOf
  split
  · rename_i hempty
    rw [((Coins.empty_iff hp).mp hempty) d]
    exact Coins.amountOf_nil d
  · rfl

theorem swapPool_saveSwapPool {s : State} {p q : Coins} (h : (s.saveSwapPool p).swapPool = some q) :
    q = p ∧ q.empty = false := by
  unfold saveSwapPool at h
  dsimp only at h
  split at h
  · cases h
  · cases h
    exact ⟨rfl, by simpa using ‹¬p.empty = true›⟩

/-! What one write to an order store does to the offered amounts. -/

section offers

variable {id : String} {d : Denom}

theorem total_freeOffer_delete {st : Store String FreeSwapOrder} {o : FreeSwapOrder}
    (hget : st.get id = some o) :
    (st.delete id).total (freeOffer d) =
      st.total (freeOffer d) - if o.swapInfo.srcSymbol = d then o.remainAmount else 0 := by
  rw [Store.total_delete, Store.contrib_eq _ _ hget]
  rfl

theorem total_directOffer_delete {st : Store String DirectSwapOrder} {o : DirectSwapOrder}
    (hget : st.get id = some o) :
    (st.delete id).total (directOffer d) =
      st.total (directOffer d) - if o.swapInfo.srcSymbol = d then o.swapInfo.amount else 0 := by
  rw [Store.total_delete, Store.contrib_eq _ _ hget]
  rfl

theorem total_freeOffer_set_new {st : Store String FreeSwapOrder} (hnone : st.get id = none)
    (o : FreeSwapOrder) :
    (st.set id o).total (freeOffer d) =
      st.total (freeOffer d) + if o.swapInfo.srcSymbol = d then o.remainAmount else 0 := by
  rw [Store.total_set, Store.contrib_eq_zero _ _ hnone, Int.sub_zero]
  rfl

theorem total_directOffer_set_new {st : Store String DirectSwapOrder} (hnone : st.get id = none)
    (o : DirectSwapOrder) :
    (st.set id o).total (directOffer d) =
      st.total (directOffer d) + if o.swapInfo.srcSymbol = d then o.swapInfo.amount else 0 := by
  rw [Store.total_set, Store.contrib_eq_zero _ _ hnone, Int.sub_zero]
  rfl

/-- **A fill of `x` from a free order** lowers its remaining amount, and
deletes it at zero: either way what it offers drops by `x`. -/
theorem total_freeOffer_fill {st : Store String FreeSwapOrder} {o : FreeSwapOrder}
    (hget : st.get id = some o) (x : ℤ) :
    (if o.remainAmount - x = 0 then st.delete id
      else st.set id { o with remainAmount := o.remainAmount - x }).total (freeOffer d) =
      st.total (freeOffer d) - if o.swapInfo.srcSymbol = d then x else 0 := by
  split
  · -- the order is used up and deleted
    rename_i hzero
    rw [total_freeOffer_delete hget]
    split <;> omega
  · -- the order stays with what is left
    rw [Store.total_set, Store.contrib_eq _ _ hget]
    show _ - (if o.swapInfo.srcSymbol = d then o.remainAmount else 0) +
      (if o.swapInfo.srcSymbol = d then o.remainAmount - x else 0) = _
    split <;> omega

end offers

/-- The pool after taking `x` of `d₀` out of it, when it held `L d` of
every symbol `d`. -/
theorem amountOf_of_sub {p p' : Coins} (hwf : p.WF) {L : Denom → ℤ}
    (hbal : ∀ d, p.amountOf d = L d) {d₀ : Denom} {x : ℤ} (hsub : p.sub (newCoins (d₀, x)) = .ok p')
    (d : Denom) : p'.WF ∧ p'.amountOf d = L d - if d₀ = d then x else 0 := by
  obtain ⟨hwf', hamt⟩ := Coins.sub_eq_ok hwf (Coins.wf_newCoins _) hsub
  refine ⟨hwf', ?_⟩
  rw [hamt, Coins.amountOf_newCoins, hbal]

end State

open State

/-- **The pool invariant of the mapping module.** -/
structure PoolInv (s : State) : Prop where
  /-- the stored pool is sorted, without zero amounts -/
  wf : ∀ p, s.swapPool = some p → p.WF
  /-- the pool is never stored empty -/
  nonempty : ∀ p, s.swapPool = some p → p.empty = false
  /-- a stored free order still offers something -/
  free_pos : ∀ id o, s.freeSwapOrders.get id = some o → 0 < o.remainAmount
  /-- a stored direct order offers something -/
  direct_pos : ∀ id o, s.directSwapOrders.get id = some o → 0 < o.swapInfo.amount
  /-- for every symbol, the pool holds what the orders offer -/
  balanced : ∀ d, s.poolAmountOf d = s.lockedAmountOf d

theorem poolInv_init (trk : Balances) : PoolInv (State.init trk) where
  wf _ h := by cases h
  nonempty _ h := by cases h
  free_pos _ _ h := by cases h
  direct_pos _ _ h := by cases h
  balanced d := (Coins.amountOf_nil d).trans rfl

namespace PoolInv

variable {s : State} (hI : PoolInv s)
include hI

theorem wf_getD : (s.swapPool.getD []).WF := by
  cases hp : s.swapPool with
  | none => exact Coins.wf_nil
  | some p => exact hI.wf p hp

theorem freeOffer_nonneg (d : Denom) (id : String) (o : FreeSwapOrder)
    (h : s.freeSwapOrders.get id = some o) : 0 ≤ freeOffer d id o := by
  unfold freeOffer
  have := hI.free_pos id o h
  split <;> omega

theorem directOffer_nonneg (d : Denom) (id : String) (o : DirectSwapOrder)
    (h : s.directSwapOrders.get id = some o) : 0 ≤ directOffer d id o := by
  unfold directOffer
  have := hI.direct_pos id o h
  split <;> omega

/-- A free order's remaining amount is part of what the orders offer of its
symbol. -/
theorem remainAmount_le {id : String} {o : FreeSwapOrder} (h : s.freeSwapOrders.get id = some o) :
    o.remainAmount ≤ s.lockedAmountOf o.swapInfo.srcSymbol := by
  have hfree := Store.le_total (hI.freeOffer_nonneg o.swapInfo.srcSymbol) h
  have hdirect := Store.total_nonneg (hI.directOffer_nonneg o.swapInfo.srcSymbol)
  have hself : freeOffer o.swapInfo.srcSymbol id o = o.remainAmount := if_pos rfl
  unfold lockedAmountOf
  omega

theorem amount_le {id : String} {o : DirectSwapOrder} (h : s.directSwapOrders.get id = some o) :
    o.swapInfo.amount ≤ s.lockedAmountOf o.swapInfo.srcSymbol := by
  have hfree := Store.total_nonneg (hI.freeOffer_nonneg o.swapInfo.srcSymbol)
  have hdirect := Store.le_total (hI.directOffer_nonneg o.swapInfo.srcSymbol) h
  have hself : directOffer o.swapInfo.srcSymbol id o = o.swapInfo.amount := if_pos rfl
  unfold lockedAmountOf
  omega

theorem lockedAmountOf_nonneg (d : Denom) : 0 ≤ s.lockedAmountOf d := by
  have hfree := Store.total_nonneg (hI.freeOffer_nonneg d)
  have hdirect := Store.total_nonneg (hI.directOffer_nonneg d)
  unfold lockedAmountOf
  omega

/-- **Taking at most one order's offer out of the pool does not panic.** -/
theorem sub_isOk {p : Coins} (hp : s.swapPool = some p) {d : Denom} {x : ℤ}
    (hx : x ≤ s.lockedAmountOf d) : ∃ p', p.sub (newCoins (d, x)) = .ok p' := by
  have hwf := hI.wf p hp
  apply Coins.sub_isOk hwf (Coins.wf_newCoins _)
  intro d'
  -- the pool holds what the orders offer, and that is never negative
  have hbal := hI.balanced d'
  have hnn := hI.lockedAmountOf_nonneg d'
  unfold poolAmountOf at hbal
  rw [hp, Option.getD_some] at hbal
  rw [Coins.amountOf_newCoins, hbal]
  split
  · rename_i hdd
    subst hdd
    exact hx
  · exact hnn

/-! ### Each operation keeps the invariant -/

section ops

variable {s' : State} {env : Env} {blockTime : ℤ} {fromCUAddr : CUAddress} {orderID : String}

/-- What a pool holds after `Add` of one new order's coin. -/
theorem amountOf_add_offer (d₀ : Denom) (x : ℤ) (d : Denom) :
    ((s.swapPool.getD []).add (newCoins (d₀, x))).amountOf d =
      s.lockedAmountOf d + if d₀ = d then x else 0 := by
  rw [Coins.amountOf_add hI.wf_getD (Coins.wf_newCoins _), Coins.amountOf_newCoins]
  rw [← hI.balanced d]
  rfl

/-- The pool a create call stores is well formed and, holding the new
order's positive amount, not empty. -/
theorem add_offer_wf_nonempty (d₀ : Denom) {x : ℤ} (hx : 0 < x) :
    ((s.swapPool.getD []).add (newCoins (d₀, x))).WF ∧
      ((s.swapPool.getD []).add (newCoins (d₀, x))).empty = false := by
  have hwf := Coins.wf_add hI.wf_getD (Coins.wf_newCoins (d₀, x))
  refine ⟨hwf, ?_⟩
  cases he : Coins.empty ((s.swapPool.getD []).add (newCoins (d₀, x)))
  · rfl
  · -- an empty pool would hold nothing of `d₀`
    have h0 := (Coins.empty_iff hwf).mp he d₀
    rw [hI.amountOf_add_offer, if_pos rfl] at h0
    have := hI.lockedAmountOf_nonneg d₀
    omega

theorem createFreeSwapOrder {owner : CUAddress} {swapInfo : FreeSwapInfo}
    (hpos : 0 < swapInfo.totalAmount) (hnone : s.freeSwapOrders.get orderID = none)
    (h : Mapping.createFreeSwapOrder s owner swapInfo orderID = .ok s') : PoolInv s' := by
  obtain ⟨trk, -, -, rfl⟩ := createFreeSwapOrder_eq_ok h
  obtain ⟨hwf, hne⟩ := hI.add_offer_wf_nonempty swapInfo.srcSymbol hpos
  -- the default for `MaxSwapAmount` keeps the source symbol
  have hsrc : (if swapInfo.maxSwapAmount = 0 then
      { swapInfo with maxSwapAmount := swapInfo.totalAmount } else swapInfo).srcSymbol =
        swapInfo.srcSymbol := by
    split <;> rfl
  refine ⟨?_, ?_, ?_, hI.direct_pos, ?_⟩
  · rintro q ⟨⟩
    exact hwf
  · rintro q ⟨⟩
    exact hne
  · intro id o hget
    rw [Store.get_set] at hget
    split at hget
    · -- the new order
      cases hget
      exact hpos
    · exact hI.free_pos id o hget
  · intro d
    unfold poolAmountOf
    rw [Option.getD_some, hI.amountOf_add_offer]
    unfold lockedAmountOf
    dsimp only
    rw [total_freeOffer_set_new hnone]
    dsimp only
    rw [hsrc]
    omega

theorem createDirectSwapOrder {owner : CUAddress} {swapInfo : DirectSwapInfo}
    (hpos : 0 < swapInfo.amount) (hnone : s.directSwapOrders.get orderID = none)
    (h : Mapping.createDirectSwapOrder s owner swapInfo orderID = .ok s') : PoolInv s' := by
  obtain ⟨trk, -, -, rfl⟩ := createDirectSwapOrder_eq_ok h
  obtain ⟨hwf, hne⟩ := hI.add_offer_wf_nonempty swapInfo.srcSymbol hpos
  refine ⟨?_, ?_, hI.free_pos, ?_, ?_⟩
  · rintro q ⟨⟩
    exact hwf
  · rintro q ⟨⟩
    exact hne
  · intro id o hget
    rw [Store.get_set] at hget
    split at hget
    · -- the new order
      cases hget
      exact hpos
    · exact hI.direct_pos id o hget
  · intro d
    unfold poolAmountOf
    rw [Option.getD_some, hI.amountOf_add_offer]
    unfold lockedAmountOf
    dsimp only
    rw [total_directOffer_set_new hnone]
    dsimp only
    omega

/-- The pool as a fill or a cancellation stores it, holding what the
orders offer once `x` of `d₀` is paid out. -/
theorem saveSwapPool_of_sub {p p' : Coins} (hp : s.swapPool = some p) {d₀ : Denom} {x : ℤ}
    (hsub : p.sub (newCoins (d₀, x)) = .ok p') (t : State) :
    (∀ q, (t.saveSwapPool p').swapPool = some q → q.WF) ∧
      (∀ q, (t.saveSwapPool p').swapPool = some q → q.empty = false) ∧
      ∀ d, (t.saveSwapPool p').poolAmountOf d = s.lockedAmountOf d - if d₀ = d then x else 0 := by
  have hbal : ∀ d, p.amountOf d = s.lockedAmountOf d := by
    intro d
    rw [← hI.balanced d]
    unfold poolAmountOf
    rw [hp, Option.getD_some]
  have hwf' := (amountOf_of_sub (hI.wf p hp) hbal hsub d₀).1
  refine ⟨?_, ?_, ?_⟩
  · intro q hq
    rw [(swapPool_saveSwapPool hq).1]
    exact hwf'
  · intro q hq
    exact (swapPool_saveSwapPool hq).2
  · intro d
    rw [poolAmountOf_saveSwapPool _ hwf']
    exact (amountOf_of_sub (hI.wf p hp) hbal hsub d).2

theorem swapSymbolFree {p : Coins} (hp : s.swapPool = some p) {swapAmount : ℤ}
    (h : Mapping.swapSymbolFree env s blockTime p fromCUAddr orderID swapAmount = .ok s') :
    PoolInv s' := by
  obtain ⟨order, needCoin, trk₁, trk₂, p', hget, hnn, hle, -, -, hsub, rfl⟩ := swapSymbolFree_eq_ok h
  obtain ⟨hwf, hne, hamt⟩ := hI.saveSwapPool_of_sub hp hsub
    { s with
      freeSwapOrders :=
        if order.remainAmount - swapAmount = 0 then s.freeSwapOrders.delete orderID
        else s.freeSwapOrders.set orderID { order with remainAmount := order.remainAmount - swapAmount }
      trk := trk₂ }
  refine ⟨hwf, hne, ?_, hI.direct_pos, ?_⟩
  · intro id o hget'
    simp only [freeSwapOrders_saveSwapPool] at hget'
    split at hget'
    · -- the order was used up: the others are untouched
      rw [Store.get_delete] at hget'
      split at hget'
      · cases hget'
      · exact hI.free_pos id o hget'
    · rw [Store.get_set] at hget'
      split at hget'
      · -- the order keeps a positive remainder
        cases hget'
        dsimp only
        omega
      · exact hI.free_pos id o hget'
  · intro d
    rw [hamt]
    unfold lockedAmountOf
    dsimp only [freeSwapOrders_saveSwapPool, directSwapOrders_saveSwapPool]
    rw [total_freeOffer_fill hget]
    omega

theorem swapSymbolDirect {p : Coins} (hp : s.swapPool = some p)
    (h : Mapping.swapSymbolDirect s blockTime p fromCUAddr orderID = .ok s') : PoolInv s' := by
  obtain ⟨order, needCoin, trk₁, trk₂, p', hget, hnn, -, -, hsub, rfl⟩ := swapSymbolDirect_eq_ok h
  obtain ⟨hwf, hne, hamt⟩ := hI.saveSwapPool_of_sub hp hsub
    { s with directSwapOrders := s.directSwapOrders.delete orderID, trk := trk₂ }
  refine ⟨hwf, hne, hI.free_pos, ?_, ?_⟩
  · intro id o hget'
    simp only [directSwapOrders_saveSwapPool, Store.get_delete] at hget'
    split at hget'
    · cases hget'
    · exact hI.direct_pos id o hget'
  · intro d
    rw [hamt]
    unfold lockedAmountOf
    dsimp only [freeSwapOrders_saveSwapPool, directSwapOrders_saveSwapPool]
    rw [total_directOffer_delete hget]
    omega

theorem cancelSwapFree {p : Coins} (hp : s.swapPool = some p)
    (h : Mapping.cancelSwapFree s p fromCUAddr orderID = .ok s') : PoolInv s' := by
  obtain ⟨order, hget, ⟨hzero, -⟩ | ⟨-, trk, p', -, hsub, hs'⟩⟩ := cancelSwapFree_eq_ok h
  · -- nothing remained: impossible, a stored free order offers something
    exact absurd (hI.free_pos _ _ hget) (not_lt.mpr hzero)
  -- the order is deleted after the pool is written; the two writes commute
  have hs'' : s' = saveSwapPool
      { s with freeSwapOrders := s.freeSwapOrders.delete orderID, trk := trk } p' := hs'
  subst hs''
  obtain ⟨hwf, hne, hamt⟩ := hI.saveSwapPool_of_sub hp hsub
    { s with freeSwapOrders := s.freeSwapOrders.delete orderID, trk := trk }
  refine ⟨hwf, hne, ?_, hI.direct_pos, ?_⟩
  · intro id o hget'
    simp only [freeSwapOrders_saveSwapPool] at hget'
    rw [Store.get_delete] at hget'
    split at hget'
    · cases hget'
    · exact hI.free_pos id o hget'
  · intro d
    rw [hamt]
    unfold lockedAmountOf
    dsimp only [freeSwapOrders_saveSwapPool, directSwapOrders_saveSwapPool]
    rw [total_freeOffer_delete hget]
    omega

theorem cancelSwapDirect {p : Coins} (hp : s.swapPool = some p)
    (h : Mapping.cancelSwapDirect s p fromCUAddr orderID = .ok s') : PoolInv s' := by
  obtain ⟨order, trk, p', hget, -, -, hsub, hs'⟩ := cancelSwapDirect_eq_ok h
  -- the order is deleted after the pool is written; the two writes commute
  have hs'' : s' = saveSwapPool
      { s with directSwapOrders := s.directSwapOrders.delete orderID, trk := trk } p' := hs'
  subst hs''
  obtain ⟨hwf, hne, hamt⟩ := hI.saveSwapPool_of_sub hp hsub
    { s with directSwapOrders := s.directSwapOrders.delete orderID, trk := trk }
  refine ⟨hwf, hne, hI.free_pos, ?_, ?_⟩
  · intro id o hget'
    simp only [directSwapOrders_saveSwapPool] at hget'
    rw [Store.get_delete] at hget'
    split at hget'
    · cases hget'
    · exact hI.direct_pos id o hget'
  · intro d
    rw [hamt]
    unfold lockedAmountOf
    dsimp only [freeSwapOrders_saveSwapPool, directSwapOrders_saveSwapPool]
    rw [total_directOffer_delete hget]
    omega

theorem swapSymbol {swapType swapAmount : ℤ}
    (h : Mapping.swapSymbol env s blockTime fromCUAddr swapType orderID swapAmount = .ok s') :
    PoolInv s' := by
  obtain ⟨p, hp, ⟨-, hfree⟩ | ⟨-, hdirect⟩⟩ := swapSymbol_eq_ok h
  · exact hI.swapSymbolFree hp hfree
  · exact hI.swapSymbolDirect hp hdirect

theorem cancelSwap {swapType : ℤ} (h : Mapping.cancelSwap s fromCUAddr swapType orderID = .ok s') :
    PoolInv s' := by
  obtain ⟨p, hp, ⟨-, hfree⟩ | ⟨-, hdirect⟩⟩ := cancelSwap_eq_ok h
  · exact hI.cancelSwapFree hp hfree
  · exact hI.cancelSwapDirect hp hdirect

/-- **A transaction keeps the invariant.** `ValidateBasic` gives the
created order a positive amount and the handler an unused ID. -/
theorem deliverTx {tx : Tx} (h : Mapping.deliverTx env s tx = .ok s') : PoolInv s' := by
  obtain ⟨blockTime, msg⟩ := tx
  obtain ⟨u, hvalid, h⟩ := bind_eq_ok.mp h
  cases msg with
  | createFreeSwap msg =>
    obtain ⟨fromCUAddr, hnone, hcreate⟩ := handleMsgCreateFreeSwap_eq_ok h
    exact hI.createFreeSwapOrder (MsgCreateFreeSwap.totalAmount_pos hvalid) hnone hcreate
  | createDirectSwap msg =>
    obtain ⟨fromCUAddr, hnone, hcreate⟩ := handleMsgCreateDirectSwap_eq_ok h
    exact hI.createDirectSwapOrder (MsgCreateDirectSwap.amount_pos hvalid) hnone hcreate
  | swapSymbol msg =>
    obtain ⟨fromCUAddr, -, hswap⟩ := bind_eq_ok.mp h
    exact hI.swapSymbol hswap
  | cancelSwap msg =>
    obtain ⟨fromCUAddr, -, hcancel⟩ := bind_eq_ok.mp h
    exact hI.cancelSwap hcancel

end ops

end PoolInv

theorem poolInv_step (env : Env) {s : State} (hI : PoolInv s) (tx : Tx) : PoolInv (step env s tx) :=
  commit_preserves (fun _ h => hI.deliverTx h) hI

/-- **Every state the handler reaches from genesis satisfies the pool
invariant.** -/
theorem poolInv_of_reachable {env : Env} {trk : Balances} {s : State}
    (h : Reachable (step env) (State.init trk) s) : PoolInv s :=
  Reachable.invariant (poolInv_init trk) (fun _ tx hI => poolInv_step env hI tx) h

namespace PoolInv

variable {s : State} (hI : PoolInv s)
include hI

/-! ### Consequences -/

/-- **The pool key is absent exactly when no order is stored.** -/
theorem swapPool_eq_none_iff :
    s.swapPool = none ↔ s.freeSwapOrders.isEmpty = true ∧ s.directSwapOrders.isEmpty = true := by
  constructor
  · -- without a pool nothing is offered, but a stored order offers something
    intro hnone
    have hzero : ∀ d, s.lockedAmountOf d = 0 := by
      intro d
      rw [← hI.balanced d]
      unfold poolAmountOf
      rw [hnone]
      exact Coins.amountOf_nil d
    constructor
    · rw [Store.isEmpty_iff]
      intro id
      cases hget : s.freeSwapOrders.get id with
      | none => rfl
      | some o =>
        have := hI.remainAmount_le hget
        have := hI.free_pos id o hget
        rw [hzero] at *
        omega
    · rw [Store.isEmpty_iff]
      intro id
      cases hget : s.directSwapOrders.get id with
      | none => rfl
      | some o =>
        have := hI.amount_le hget
        have := hI.direct_pos id o hget
        rw [hzero] at *
        omega
  · -- without orders the pool holds nothing, and an empty pool is never stored
    rintro ⟨hfree, hdirect⟩
    cases hp : s.swapPool with
    | none => rfl
    | some p =>
      have hall : ∀ d, p.amountOf d = 0 := by
        intro d
        have hbal := hI.balanced d
        unfold poolAmountOf lockedAmountOf at hbal
        rw [hp, Option.getD_some, Store.total_of_isEmpty _ hfree,
          Store.total_of_isEmpty _ hdirect] at hbal
        exact hbal
      have hempty := (Coins.empty_iff (hI.wf p hp)).mpr hall
      rw [hI.nonempty p hp] at hempty
      cases hempty

theorem swapSymbolFree_ne_negativeCoinAmount {env : Env} {blockTime : ℤ} {p : Coins}
    (hp : s.swapPool = some p) (fromCUAddr : CUAddress) (orderID : String) (swapAmount : ℤ) :
    Mapping.swapSymbolFree env s blockTime p fromCUAddr orderID swapAmount ≠
      .error negativeCoinAmount := by
  intro h
  obtain ⟨order, hget, hle, hsub⟩ := swapSymbolFree_eq_negativeCoinAmount h
  -- the fill is at most the order's remaining amount, which the pool holds
  obtain ⟨p', hp'⟩ := hI.sub_isOk hp (le_trans hle (hI.remainAmount_le hget))
  rw [hp'] at hsub
  cases hsub

theorem swapSymbolDirect_ne_negativeCoinAmount {blockTime : ℤ} {p : Coins}
    (hp : s.swapPool = some p) (fromCUAddr : CUAddress) (orderID : String) :
    Mapping.swapSymbolDirect s blockTime p fromCUAddr orderID ≠ .error negativeCoinAmount := by
  intro h
  obtain ⟨order, hget, hsub⟩ := swapSymbolDirect_eq_negativeCoinAmount h
  obtain ⟨p', hp'⟩ := hI.sub_isOk hp (hI.amount_le hget)
  rw [hp'] at hsub
  cases hsub

theorem cancelSwapFree_ne_negativeCoinAmount {p : Coins} (hp : s.swapPool = some p)
    (fromCUAddr : CUAddress) (orderID : String) :
    Mapping.cancelSwapFree s p fromCUAddr orderID ≠ .error negativeCoinAmount := by
  intro h
  obtain ⟨order, hget, hsub⟩ := cancelSwapFree_eq_negativeCoinAmount h
  obtain ⟨p', hp'⟩ := hI.sub_isOk hp (hI.remainAmount_le hget)
  rw [hp'] at hsub
  cases hsub

theorem cancelSwapDirect_ne_negativeCoinAmount {p : Coins} (hp : s.swapPool = some p)
    (fromCUAddr : CUAddress) (orderID : String) :
    Mapping.cancelSwapDirect s p fromCUAddr orderID ≠ .error negativeCoinAmount := by
  intro h
  obtain ⟨order, hget, hsub⟩ := cancelSwapDirect_eq_negativeCoinAmount h
  obtain ⟨p', hp'⟩ := hI.sub_isOk hp (hI.amount_le hget)
  rw [hp'] at hsub
  cases hsub

/-- **No transaction panics in `Sub`.** -/
theorem deliverTx_ne_negativeCoinAmount (env : Env) (tx : Tx) :
    Mapping.deliverTx env s tx ≠ .error negativeCoinAmount := by
  intro h
  obtain ⟨fromCUAddr, ⟨msg, hswap⟩ | ⟨msg, hcancel⟩⟩ := deliverTx_eq_negativeCoinAmount h
  · obtain ⟨p, hp, ⟨-, hfree⟩ | ⟨-, hdirect⟩⟩ := swapSymbol_eq_negativeCoinAmount hswap
    · exact hI.swapSymbolFree_ne_negativeCoinAmount hp _ _ _ hfree
    · exact hI.swapSymbolDirect_ne_negativeCoinAmount hp _ _ hdirect
  · obtain ⟨p, hp, ⟨-, hfree⟩ | ⟨-, hdirect⟩⟩ := cancelSwap_eq_negativeCoinAmount hcancel
    · exact hI.cancelSwapFree_ne_negativeCoinAmount hp _ _ hfree
    · exact hI.cancelSwapDirect_ne_negativeCoinAmount hp _ _ hdirect

end PoolInv

/-! ### Money only moves between balances and orders -/

/-- **A call moves money only between the balances of the addresses `A` and
the orders**: no balance outside `A` changes, and for every symbol the
balances of `A` and what the orders offer add up to the same total. -/
def Conserves (A : Finset CUAddress) (s s' : State) : Prop :=
  Balances.SameOutside A s.trk s'.trk ∧
    ∀ d, s'.trk.sumOver A d + s'.lockedAmountOf d = s.trk.sumOver A d + s.lockedAmountOf d

section ops

variable {s s' : State} {env : Env} {blockTime : ℤ} {fromCUAddr : CUAddress} {orderID : String}

theorem conserves_createFreeSwapOrder {owner : CUAddress} {swapInfo : FreeSwapInfo}
    (hnone : s.freeSwapOrders.get orderID = none)
    (h : Mapping.createFreeSwapOrder s owner swapInfo orderID = .ok s') : Conserves {owner} s s' := by
  obtain ⟨trk, -, hsub, rfl⟩ := createFreeSwapOrder_eq_ok h
  have howner : owner ∈ ({owner} : Finset CUAddress) := Finset.mem_singleton_self owner
  -- the default for `MaxSwapAmount` keeps the source symbol
  have hsrc : (if swapInfo.maxSwapAmount = 0 then
      { swapInfo with maxSwapAmount := swapInfo.totalAmount } else swapInfo).srcSymbol =
        swapInfo.srcSymbol := by
    split <;> rfl
  refine ⟨Balances.sameOutside_of_subCoin hsub howner, fun d => ?_⟩
  unfold lockedAmountOf
  dsimp only
  rw [Balances.sumOver_of_subCoin hsub howner, total_freeOffer_set_new hnone]
  dsimp only
  rw [hsrc]
  omega

theorem conserves_createDirectSwapOrder {owner : CUAddress} {swapInfo : DirectSwapInfo}
    (hnone : s.directSwapOrders.get orderID = none)
    (h : Mapping.createDirectSwapOrder s owner swapInfo orderID = .ok s') : Conserves {owner} s s' := by
  obtain ⟨trk, -, hsub, rfl⟩ := createDirectSwapOrder_eq_ok h
  have howner : owner ∈ ({owner} : Finset CUAddress) := Finset.mem_singleton_self owner
  refine ⟨Balances.sameOutside_of_subCoin hsub howner, fun d => ?_⟩
  unfold lockedAmountOf
  dsimp only
  rw [Balances.sumOver_of_subCoin hsub howner, total_directOffer_set_new hnone]
  dsimp only
  omega

theorem conserves_swapSymbolFree {p : Coins} {swapAmount : ℤ}
    (h : Mapping.swapSymbolFree env s blockTime p fromCUAddr orderID swapAmount = .ok s') :
    ∃ owner, Conserves {fromCUAddr, owner} s s' := by
  obtain ⟨order, needCoin, trk₁, trk₂, p', hget, -, -, hsend, hadd, -, rfl⟩ :=
    swapSymbolFree_eq_ok h
  have hfrom : fromCUAddr ∈ ({fromCUAddr, order.owner} : Finset CUAddress) := by simp
  have howner : order.owner ∈ ({fromCUAddr, order.owner} : Finset CUAddress) := by simp
  refine ⟨order.owner, (Balances.sameOutside_of_sendCoin hsend hfrom howner).trans
    (Balances.sameOutside_of_addCoin hadd hfrom), fun d => ?_⟩
  -- the taker's payment to the owner stays inside the set; the fill leaves the order
  unfold lockedAmountOf
  dsimp only [freeSwapOrders_saveSwapPool, directSwapOrders_saveSwapPool, trk_saveSwapPool]
  rw [Balances.sumOver_of_addCoin hadd hfrom, Balances.sumOver_of_sendCoin hsend hfrom howner,
    total_freeOffer_fill hget]
  dsimp only
  omega

theorem conserves_swapSymbolDirect {p : Coins}
    (h : Mapping.swapSymbolDirect s blockTime p fromCUAddr orderID = .ok s') :
    ∃ owner, Conserves {fromCUAddr, owner} s s' := by
  obtain ⟨order, needCoin, trk₁, trk₂, p', hget, -, hsend, hadd, -, rfl⟩ :=
    swapSymbolDirect_eq_ok h
  have hfrom : fromCUAddr ∈ ({fromCUAddr, order.owner} : Finset CUAddress) := by simp
  have howner : order.owner ∈ ({fromCUAddr, order.owner} : Finset CUAddress) := by simp
  refine ⟨order.owner, (Balances.sameOutside_of_sendCoin hsend hfrom howner).trans
    (Balances.sameOutside_of_addCoin hadd hfrom), fun d => ?_⟩
  unfold lockedAmountOf
  dsimp only [freeSwapOrders_saveSwapPool, directSwapOrders_saveSwapPool, trk_saveSwapPool]
  rw [Balances.sumOver_of_addCoin hadd hfrom, Balances.sumOver_of_sendCoin hsend hfrom howner,
    total_directOffer_delete hget]
  dsimp only
  omega

theorem conserves_cancelSwapDirect {p : Coins}
    (h : Mapping.cancelSwapDirect s p fromCUAddr orderID = .ok s') : ∃ owner, Conserves {owner} s s' := by
  obtain ⟨order, trk, p', hget, -, hadd, -, rfl⟩ := cancelSwapDirect_eq_ok h
  have howner : order.owner ∈ ({order.owner} : Finset CUAddress) := Finset.mem_singleton_self _
  refine ⟨order.owner, Balances.sameOutside_of_addCoin hadd howner, fun d => ?_⟩
  unfold lockedAmountOf
  dsimp only [freeSwapOrders_saveSwapPool, directSwapOrders_saveSwapPool, trk_saveSwapPool]
  rw [Balances.sumOver_of_addCoin hadd howner, total_directOffer_delete hget]
  dsimp only
  omega

end ops

namespace PoolInv

variable {s s' : State} (hI : PoolInv s)
include hI

section conserves

variable {env : Env} {blockTime : ℤ} {fromCUAddr : CUAddress} {orderID : String}

theorem conserves_cancelSwapFree {p : Coins}
    (h : Mapping.cancelSwapFree s p fromCUAddr orderID = .ok s') : ∃ owner, Conserves {owner} s s' := by
  obtain ⟨order, hget, ⟨hzero, -⟩ | ⟨-, trk, p', hadd, -, rfl⟩⟩ := cancelSwapFree_eq_ok h
  · -- nothing remained: impossible, a stored free order offers something
    exact absurd (hI.free_pos _ _ hget) (not_lt.mpr hzero)
  have howner : order.owner ∈ ({order.owner} : Finset CUAddress) := Finset.mem_singleton_self _
  refine ⟨order.owner, Balances.sameOutside_of_addCoin hadd howner, fun d => ?_⟩
  -- the refund leaves the order for the owner's balance
  unfold lockedAmountOf
  dsimp only [freeSwapOrders_saveSwapPool, directSwapOrders_saveSwapPool, trk_saveSwapPool]
  rw [Balances.sumOver_of_addCoin hadd howner, total_freeOffer_delete hget]
  dsimp only
  omega

/-- **Every transaction only moves money between a few balances and the
orders.** -/
theorem deliverTx_conserves {tx : Tx} (h : Mapping.deliverTx env s tx = .ok s') :
    ∃ A, Conserves A s s' := by
  obtain ⟨blockTime, msg⟩ := tx
  obtain ⟨u, -, h⟩ := bind_eq_ok.mp h
  cases msg with
  | createFreeSwap msg =>
    obtain ⟨fromCUAddr, hnone, hcreate⟩ := handleMsgCreateFreeSwap_eq_ok h
    exact ⟨_, conserves_createFreeSwapOrder hnone hcreate⟩
  | createDirectSwap msg =>
    obtain ⟨fromCUAddr, hnone, hcreate⟩ := handleMsgCreateDirectSwap_eq_ok h
    exact ⟨_, conserves_createDirectSwapOrder hnone hcreate⟩
  | swapSymbol msg =>
    obtain ⟨fromCUAddr, -, hswap⟩ := bind_eq_ok.mp h
    obtain ⟨p, -, ⟨-, hfree⟩ | ⟨-, hdirect⟩⟩ := swapSymbol_eq_ok hswap
    · obtain ⟨owner, hc⟩ := conserves_swapSymbolFree hfree
      exact ⟨_, hc⟩
    · obtain ⟨owner, hc⟩ := conserves_swapSymbolDirect hdirect
      exact ⟨_, hc⟩
  | cancelSwap msg =>
    obtain ⟨fromCUAddr, -, hcancel⟩ := bind_eq_ok.mp h
    obtain ⟨p, -, ⟨-, hfree⟩ | ⟨-, hdirect⟩⟩ := cancelSwap_eq_ok hcancel
    · obtain ⟨owner, hc⟩ := hI.conserves_cancelSwapFree hfree
      exact ⟨_, hc⟩
    · obtain ⟨owner, hc⟩ := conserves_cancelSwapDirect hdirect
      exact ⟨_, hc⟩

end conserves

end PoolInv

/-! ### The pool over whole runs -/

/-- **Swap-pool conservation of the mapping module.** In every state that
transactions of the four swap messages reach from genesis, for every symbol
the pool holds what the stored orders offer: the remaining amounts of the
free orders and the amounts of the direct orders of that source symbol. So
no transaction panics in the `Sub` of `SwapSymbol` or `CancelSwap`; every
transaction moves money only between a few balances and the orders, so an
amount paid out of an order leaves it and is not paid again; and the pool
key is absent exactly when no order is stored. -/
theorem swapPool_conservation {env : Env} {trk : Balances} {s : State}
    (h : Reachable (step env) (State.init trk) s) :
    (∀ d, s.poolAmountOf d = s.lockedAmountOf d) ∧
      (∀ tx, deliverTx env s tx ≠ .error negativeCoinAmount) ∧
      (∀ tx s', deliverTx env s tx = .ok s' → ∃ A, Conserves A s s') ∧
      (s.swapPool = none ↔ s.freeSwapOrders.isEmpty = true ∧ s.directSwapOrders.isEmpty = true) := by
  have hI := poolInv_of_reachable h
  exact ⟨hI.balanced, hI.deliverTx_ne_negativeCoinAmount env, fun _ _ h' => hI.deliverTx_conserves h',
    hI.swapPool_eq_none_iff⟩

/-- An environment in which every address, order ID and custody unit is
valid and every token has 8 decimals. -/
def permissiveEnv : Env := ⟨fun _ => true, fun _ => false, some, fun _ => true, fun _ => some 8⟩

/-- The conservation law after a first free order, for the 100 `btc` its
owner holds. -/
theorem swapPool_conservation_after_create :
    let tx : Tx := ⟨0, .createFreeSwap ⟨"alice", "order1",
      ⟨"btc", "hbc", 100, 10, 1, 5, 0, ""⟩⟩⟩
    let s := step permissiveEnv (State.init (Balances.empty.setBalance "alice" "btc" 100)) tx
    (∀ d, s.poolAmountOf d = s.lockedAmountOf d) ∧
      (∀ tx, deliverTx permissiveEnv s tx ≠ .error negativeCoinAmount) ∧
      (∀ tx s', deliverTx permissiveEnv s tx = .ok s' → ∃ A, Conserves A s s') ∧
      (s.swapPool = none ↔ s.freeSwapOrders.isEmpty = true ∧ s.directSwapOrders.isEmpty = true) :=
  swapPool_conservation ((Reachable.init _ _).step _)

end Mapping
