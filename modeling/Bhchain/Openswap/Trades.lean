import Mathlib
import Bhchain.Lib.ConstantProduct
import Bhchain.Openswap.Liquidity
import Bhchain.Openswap.Termination
import Bhchain.Openswap.FeeRates

/-!
# Trades keep the reserves backed

Every call that touches a pair's reserves without issuing or burning
shares is a swap: a direct swap hop, a fill of a limit order, or a
repurchase. `swap` cuts its fees off the input, pays out
`mulAndDiv realAmountIn reserveOut (realAmountIn + reserveIn)`, truncated
down, and keeps the lp reward in the input reserve. With a nonnegative
input and fees that add up to no more than the input, that is a swap of
the constant-product library within its curve: the product of the reserves
does not go down, no reserve goes negative, and positive reserves stay
positive (`swapPair_trade`).

The input of a swap is nonnegative because of what the state holds, which
this module makes an invariant, `FundsInv`: every order of the store and
of the book has a nonnegative locked fund and fee rates whose parts are
nonnegative and add up to at most one (`Order.Funded`), and no repurchase
fund is negative. A fill then spends between nothing and the order's locked
fund, and a repurchase swaps a fund as it is. A call made only of swaps and
of the bookkeeping around them relates the state before to the state after
by `Traded`: each pair changes by a trade, and the funds invariant holds
after. The calls of the chain that are of that kind are proved so here,
one lemma each, in the order `Shares` proves they keep the shares.
-/

namespace Openswap

open Sdk Transfer KVStore Transition

variable {env : Env}

/-! ## Fees a swap can pay -/

/-- **Fee rates a swap can pay**: each part nonnegative, their total at most
one. -/
structure FeeRate.Bounded (f : FeeRate) : Prop where
  lpRewardRate_nonneg : 0 ≤ f.lpRewardRate.val
  repurchaseRate_nonneg : 0 ≤ f.repurchaseRate.val
  refererRewardRate_nonneg : 0 ≤ f.refererRewardRate.val
  total_le_one : f.totalFeeRate.val ≤ Dec.one.val

/-- The fee coefficient of bounded rates is not negative. -/
theorem FeeRate.Bounded.coeff_nonneg {f : FeeRate} (hf : f.Bounded) :
    0 ≤ (Dec.one.sub f.totalFeeRate).val := by
  have := hf.total_le_one
  simp only [Dec.sub]
  omega

/-- **Three truncated fees of a nonnegative amount add up to at most the
amount**, each nonnegative. -/
theorem truncatedFees_le {a : ℤ} (ha : 0 ≤ a) {f : FeeRate} (hf : f.Bounded) :
    let lp := ((Dec.ofInt a).mul f.lpRewardRate).truncateInt
    let rep := ((Dec.ofInt a).mul f.repurchaseRate).truncateInt
    let ref := ((Dec.ofInt a).mul f.refererRewardRate).truncateInt
    0 ≤ lp ∧ 0 ≤ rep ∧ 0 ≤ ref ∧ lp + rep + ref ≤ a := by
  obtain ⟨hlp, hlp'⟩ := Dec.truncateInt_mul_bounds ha hf.lpRewardRate_nonneg
  obtain ⟨hrep, hrep'⟩ := Dec.truncateInt_mul_bounds ha hf.repurchaseRate_nonneg
  obtain ⟨href, href'⟩ := Dec.truncateInt_mul_bounds ha hf.refererRewardRate_nonneg
  dsimp only
  generalize ((Dec.ofInt a).mul f.lpRewardRate).truncateInt = lp at hlp hlp' ⊢
  generalize ((Dec.ofInt a).mul f.repurchaseRate).truncateInt = rep at hrep hrep' ⊢
  generalize ((Dec.ofInt a).mul f.refererRewardRate).truncateInt = ref at href href' ⊢
  refine ⟨hlp, hrep, href, ?_⟩
  -- the three products add up to the amount times the total rate, at most the amount
  have htotal := hf.total_le_one
  simp only [val_totalFeeRate, Dec.one] at htotal
  have hsum : (lp + rep + ref) * precisionInt ≤ a * precisionInt :=
    calc (lp + rep + ref) * precisionInt
        ≤ a * f.lpRewardRate.val + a * f.repurchaseRate.val + a * f.refererRewardRate.val := by
          simp only [add_mul]
          omega
      _ = a * (f.lpRewardRate.val + f.refererRewardRate.val + f.repurchaseRate.val) := by ring
      _ ≤ a * precisionInt := mul_le_mul_of_nonneg_left htotal ha
  exact le_of_mul_le_mul_right hsum precisionInt_pos

variable (env) in
/-- **The fees of a swap**: each nonnegative, together at most its input. -/
theorem swapFees_le (s : State) {feeRate : FeeRate} (hf : feeRate.Bounded) (tokenIn : Symbol)
    {amountIn : ℤ} (ha : 0 ≤ amountIn) (isRepurchasing : Bool) :
    let fees := swapFees env s feeRate tokenIn amountIn isRepurchasing
    0 ≤ fees.1 ∧ 0 ≤ fees.2.1 ∧ 0 ≤ fees.2.2 ∧ fees.1 + fees.2.1 + fees.2.2 ≤ amountIn := by
  obtain ⟨hlp, hrep, href, hsum⟩ := truncatedFees_le ha hf
  dsimp only at hlp hrep href hsum ⊢
  unfold swapFees
  split
  · exact ⟨le_rfl, le_rfl, le_rfl, by simpa using ha⟩
  · dsimp only
    -- a repurchase fund that cannot be used goes to the lp reward
    split
    · dsimp only
      exact ⟨by omega, href, le_rfl, by omega⟩
    · dsimp only
      exact ⟨hlp, href, hrep, by omega⟩

/-! ## One swap -/

/-- **`mulAndDiv` truncates down**: of a nonnegative product over a divisor
that is not negative, it is nonnegative and at most the quotient. -/
theorem mulAndDiv_bounds {a b c : ℤ} (hab : 0 ≤ a * b) (hc : 0 ≤ c) :
    0 ≤ mulAndDiv a b c ∧ mulAndDiv a b c * c ≤ a * b := by
  unfold mulAndDiv
  rw [Int.tdiv_eq_ediv_of_nonneg hab]
  rcases hc.eq_or_lt with rfl | hpos
  · simpa using hab
  · exact ⟨Int.ediv_nonneg hab hpos.le, Int.ediv_mul_le _ hpos.ne'⟩

/-- One side of `swapPair`, with `x` the input reserve and `y` the output
reserve: the output is a swap of the constant-product library within its
curve. -/
theorem swapSide {x y realAmountIn lpReward : ℤ} (hx : 0 ≤ x) (hy : 0 ≤ y) (hin : 0 ≤ realAmountIn)
    (hlp : 0 ≤ lpReward) :
    let amountOut := mulAndDiv realAmountIn y (realAmountIn + x)
    0 ≤ amountOut ∧ 0 ≤ x + realAmountIn + lpReward ∧ 0 ≤ y - amountOut ∧
      x * y ≤ (x + realAmountIn + lpReward) * (y - amountOut) ∧
      (0 < x → 0 < y → 0 < x + realAmountIn + lpReward ∧ 0 < y - amountOut) := by
  intro amountOut
  obtain ⟨hout, hcurve⟩ := mulAndDiv_bounds (Int.mul_nonneg hin hy) (add_nonneg hin hx)
  replace hcurve : amountOut * (x + realAmountIn) ≤ realAmountIn * y := by
    rw [add_comm x]
    exact hcurve
  -- the output reserve is never overdrawn; with nothing in either, nothing comes out
  have hle : amountOut ≤ y := by
    rcases (add_nonneg hx hin).eq_or_lt with h0 | hpos
    · have hzero : amountOut = 0 := by
        show mulAndDiv realAmountIn y (realAmountIn + x) = 0
        rw [add_comm realAmountIn x, ← h0, mulAndDiv_zero_right]
      omega
    · exact ConstantProduct.le_of_swap hx hy hpos hcurve
  refine ⟨hout, by omega, by omega, ConstantProduct.mul_le_mul_swap hlp hcurve hle, fun hx' hy' => ?_⟩
  exact ⟨by omega, sub_pos.mpr (ConstantProduct.lt_of_swap hx' hy' hin hcurve)⟩

/-- **Reserves that back a pair**: neither is negative, and both are
positive once the pair has shares. -/
structure TradingPair.Backed (pair : TradingPair) : Prop where
  tokenAAmount_nonneg : 0 ≤ pair.tokenAAmount
  tokenBAmount_nonneg : 0 ≤ pair.tokenBAmount
  pos : 0 < pair.totalLiquidity → 0 < pair.tokenAAmount ∧ 0 < pair.tokenBAmount

/-- **A trade on a pair**: a version of it that differs in its reserves
alone, backed if the pair was, with a product of reserves no smaller. -/
structure TradingPair.Trade (pair pair' : TradingPair) : Prop where
  eq : pair' = { pair with tokenAAmount := pair'.tokenAAmount, tokenBAmount := pair'.tokenBAmount }
  backed : pair.Backed →
    pair'.Backed ∧ pair.tokenAAmount * pair.tokenBAmount ≤ pair'.tokenAAmount * pair'.tokenBAmount

namespace TradingPair.Trade

theorem refl (pair : TradingPair) : pair.Trade pair := ⟨rfl, fun hb => ⟨hb, le_rfl⟩⟩

theorem trans {p₁ p₂ p₃ : TradingPair} (h₁ : p₁.Trade p₂) (h₂ : p₂.Trade p₃) : p₁.Trade p₃ where
  eq := by
    have h := h₂.eq
    rw [h₁.eq] at h
    exact h
  backed hb := by
    obtain ⟨hb₂, hle₁⟩ := h₁.backed hb
    obtain ⟨hb₃, hle₂⟩ := h₂.backed hb₂
    exact ⟨hb₃, hle₁.trans hle₂⟩

theorem key_eq {pair pair' : TradingPair} (h : pair.Trade pair') : pair'.key = pair.key := by
  rw [h.eq]
  rfl

theorem totalLiquidity_eq {pair pair' : TradingPair} (h : pair.Trade pair') :
    pair'.totalLiquidity = pair.totalLiquidity := by
  rw [h.eq]

end TradingPair.Trade

/-- **The constant-product step is a trade**, for a nonnegative input and
lp reward, and pays out nothing negative from a backed pair. -/
theorem swapPair_trade (pair : TradingPair) (tokenIn : Symbol) {realAmountIn lpReward : ℤ}
    (hin : 0 ≤ realAmountIn) (hlp : 0 ≤ lpReward) :
    pair.Trade (swapPair pair tokenIn realAmountIn lpReward).2 ∧
      (pair.Backed → 0 ≤ (swapPair pair tokenIn realAmountIn lpReward).1) := by
  unfold swapPair
  split
  · -- the input is the first token
    refine ⟨⟨rfl, fun hb => ?_⟩, fun hb => ?_⟩
    · obtain ⟨-, hA, hB, hprod, hpos⟩ :=
        swapSide hb.tokenAAmount_nonneg hb.tokenBAmount_nonneg hin hlp
      exact ⟨⟨hA, hB, fun hT => hpos (hb.pos hT).1 (hb.pos hT).2⟩, hprod⟩
    · exact (swapSide hb.tokenAAmount_nonneg hb.tokenBAmount_nonneg hin hlp).1
  · -- the input is the second token: the same step with the reserves exchanged
    refine ⟨⟨rfl, fun hb => ?_⟩, fun hb => ?_⟩
    · obtain ⟨-, hB, hA, hprod, hpos⟩ :=
        swapSide hb.tokenBAmount_nonneg hb.tokenAAmount_nonneg hin hlp
      refine ⟨⟨hA, hB, fun hT => ?_⟩, ?_⟩
      · obtain ⟨hB', hA'⟩ := hpos (hb.pos hT).2 (hb.pos hT).1
        exact ⟨hA', hB'⟩
      · dsimp only
        linarith
    · exact (swapSide hb.tokenBAmount_nonneg hb.tokenAAmount_nonneg hin hlp).1

/-! ## Orders that can pay for their fills -/

/-- **An order that can pay for its fills**: a nonnegative locked fund, fee
rates a swap can pay, which leave a positive part of the input to swap
(`LimitSwap` refuses the others, `coeff_pos_of_amountOut_pos`), and a
positive price (`ValidateBasic` refuses the others). -/
structure Order.Funded (order : Order) : Prop where
  lockedFund_nonneg : 0 ≤ order.lockedFund
  feeRate_bounded : order.feeRate.Bounded
  coeff_pos : 0 < (Dec.one.sub order.feeRate.totalFeeRate).val
  price_pos : 0 < order.price.val

/-- A funded order is filed as the matching loop needs in the book of its
side, under its ID, in the market of its dex and pair. -/
theorem Order.Funded.filedIn {order : Order} (ho : order.Funded) :
    order.FiledIn (formatKey order.dexID order.baseSymbol order.quoteSymbol) order.side order.orderID :=
  ⟨rfl, rfl, rfl, ho.lockedFund_nonneg, ho.coeff_pos⟩

/-- Every order in a book of the market is funded. -/
def Market.Funded (m : Market) : Prop :=
  ∀ side orderID order, (m.book side).idToOrder.get orderID = some order → order.Funded

/-- Every market of the manager is funded, and filed under its key. -/
def Manager.Funded (mgr : Manager) : Prop :=
  ∀ key m, mgr.markets.get key = some m → m.Funded ∧ m.Filed key

namespace Market

theorem funded_new (dexID : ℕ) (baseSymbol quoteSymbol : Symbol) :
    (Market.new dexID baseSymbol quoteSymbol).Funded := by
  intro side orderID order h
  cases side <;> cases h

theorem Funded.addOrder {m : Market} (hm : m.Funded) {order : Order} (ho : order.Funded) :
    (m.addOrder order).Funded := by
  intro side orderID o hget
  rw [book_addOrder] at hget
  split_ifs at hget
  · rw [Orderbook.idToOrder_addOrder, Store.get_set] at hget
    split_ifs at hget
    · -- the entry of the order added
      cases hget
      exact ho
    · exact hm side orderID o hget
  · exact hm side orderID o hget

theorem Funded.delOrder {m : Market} (hm : m.Funded) (order : Order) : (m.delOrder order).Funded := by
  intro side orderID o hget
  rw [book_delOrder] at hget
  split_ifs at hget
  · rw [Orderbook.idToOrder_delOrder, Store.get_delete] at hget
    split_ifs at hget
    exact hm side orderID o hget
  · exact hm side orderID o hget

/-- An order a funded book lists is funded. -/
theorem Funded.of_mem_orders {m : Market} (hm : m.Funded) (side : OrderSide) {order : Order}
    (h : order ∈ (m.book side).orders) : order.Funded := by
  obtain ⟨e, he, rfl⟩ := List.mem_map.mp h
  exact hm side e.1 e.2 (Store.mem_iff_get.mp he)

/-- **A pass over a funded book offers funded orders**, in either order. -/
theorem Funded.of_mem_byPrice {m : Market} (hm : m.Funded) (side : OrderSide) {order : Order}
    (h : order ∈ (m.book side).byPrice) : order.Funded :=
  hm.of_mem_orders side ((List.perm_insertionSort _ _).mem_iff.mp h)

theorem Funded.of_mem_byPriceReverse {m : Market} (hm : m.Funded) (side : OrderSide)
    {order : Order} (h : order ∈ (m.book side).byPriceReverse) : order.Funded :=
  hm.of_mem_byPrice side (List.mem_reverse.mp h)

end Market

/-- An expired order of a book is one of its orders. -/
theorem Orderbook.mem_orders_of_mem_getExpiredOrder {ob : Orderbook} {currentTime : ℤ}
    {order : Order} (h : order ∈ ob.getExpiredOrder currentTime) : order ∈ ob.orders := by
  have hsorted := (List.takeWhile_sublist _).subset h
  have hfilter := (List.perm_insertionSort _ _).mem_iff.mp hsorted
  exact (List.mem_filter.mp hfilter).1

namespace Manager

variable {mgr : Manager}

theorem funded_empty : Manager.empty.Funded := fun _ _ h => by cases h

theorem Funded.marketOf (hmgr : mgr.Funded) (order : Order) :
    (mgr.marketOf order).Funded ∧
      (mgr.marketOf order).Filed (formatKey order.dexID order.baseSymbol order.quoteSymbol) := by
  unfold Manager.marketOf
  cases h : mgr.markets.get (formatKey order.dexID order.baseSymbol order.quoteSymbol) with
  | none => exact ⟨Market.funded_new _ _ _, Market.filed_new _ _ _ _⟩
  | some m => exact hmgr _ m h

theorem Funded.addOrder (hmgr : mgr.Funded) {order : Order} (ho : order.Funded) :
    (mgr.addOrder order).Funded := by
  intro key m hget
  rw [Manager.addOrder, Store.get_set] at hget
  split_ifs at hget with hkey
  · -- the market of the order's key, with the order filed in it
    cases hget
    subst hkey
    obtain ⟨hm, hf⟩ := hmgr.marketOf order
    exact ⟨hm.addOrder ho, hf.addOrder ho.filedIn⟩
  · exact hmgr key m hget

theorem Funded.delOrder (hmgr : mgr.Funded) (order : Order) : (mgr.delOrder order).Funded := by
  intro key m hget
  rw [Manager.delOrder, Store.get_set] at hget
  split_ifs at hget with hkey
  · cases hget
    subst hkey
    obtain ⟨hm, hf⟩ := hmgr.marketOf order
    exact ⟨hm.delOrder order, hf.delOrder order⟩
  · exact hmgr key m hget

/-- The current version of a funded market is funded. -/
theorem Funded.currentMarket (hmgr : mgr.Funded) {m : Market} (hm : m.Funded) :
    (mgr.currentMarket m).Funded := by
  unfold Manager.currentMarket
  cases h : mgr.markets.get (formatKey m.dexID m.baseSymbol m.quoteSymbol) with
  | none => exact hm
  | some mk => exact (hmgr _ mk h).1

theorem Funded.of_mem_getMarkets (hmgr : mgr.Funded) {m : Market} (h : m ∈ mgr.getMarkets) :
    m.Funded := by
  obtain ⟨e, he, rfl⟩ := List.mem_map.mp h
  exact (hmgr e.1 e.2 (Store.mem_iff_get.mp he)).1

/-- **The orders found expired are funded**: they are orders of the books. -/
theorem Funded.of_mem_getExpiredOrders (hmgr : mgr.Funded) {blockTime : ℤ} {order : Order}
    (h : order ∈ mgr.getExpiredOrders blockTime) : order.Funded := by
  obtain ⟨m, hm, ho⟩ := List.mem_flatMap.mp h
  have hmf := hmgr.of_mem_getMarkets hm
  rcases List.mem_append.mp ho with ho | ho
  · exact hmf.of_mem_orders .sell (Orderbook.mem_orders_of_mem_getExpiredOrder ho)
  · exact hmf.of_mem_orders .buy (Orderbook.mem_orders_of_mem_getExpiredOrder ho)

end Manager

/-! ## The two invariants and the relation of a trade -/

/-- **The funds invariant**: every order of the store and of the book can
pay for its fills, every order of the book is filed in the market of its
key, and no repurchase fund is negative. -/
structure FundsInv (s : State) : Prop where
  orders : ∀ orderID order, s.orders.get orderID = some order → order.Funded
  book : s.manager.Funded
  funds : ∀ symbol v, s.repurchaseFunds.get symbol = some v → 0 ≤ v

namespace FundsInv

variable {s : State}

theorem init (trk : Balances) : FundsInv (State.init trk) where
  orders _ _ h := by cases h
  book := Manager.funded_empty
  funds _ _ h := by cases h

/-- A call that writes none of the three. -/
theorem of_eq (hF : FundsInv s) {s' : State} (ho : s'.orders = s.orders)
    (hm : s'.manager = s.manager) (hr : s'.repurchaseFunds = s.repurchaseFunds) : FundsInv s' where
  orders orderID order h := hF.orders orderID order (ho ▸ h)
  book := hm ▸ hF.book
  funds symbol v h := hF.funds symbol v (hr ▸ h)

theorem withManager (hF : FundsInv s) {mgr : Manager} (hmgr : mgr.Funded) :
    FundsInv { s with manager := mgr } where
  orders := hF.orders
  book := hmgr
  funds := hF.funds

theorem delUnfinishedOrder (hF : FundsInv s) (order : Order) : FundsInv (s.delUnfinishedOrder order) :=
  hF.of_eq rfl rfl rfl

theorem saveOrder (hF : FundsInv s) {order : Order} (ho : order.Funded) :
    FundsInv (s.saveOrder order) where
  orders orderID o h := by
    rw [State.saveOrder, Store.get_set] at h
    split_ifs at h
    · cases h
      exact ho
    · exact hF.orders orderID o h
  book := hF.book
  funds := hF.funds

theorem deleteFund (hF : FundsInv s) (symbol : Symbol) :
    FundsInv { s with repurchaseFunds := s.repurchaseFunds.delete symbol } where
  orders := hF.orders
  book := hF.book
  funds sym v h := by
    rw [Store.get_delete] at h
    split_ifs at h
    exact hF.funds sym v h

/-- **The repurchase funds are coins of nonnegative amounts**, summed in
key order from a store of nonnegative funds. -/
theorem getRepurchaseFunds_nonneg (hF : FundsInv s) : Coins.Nonneg s.getRepurchaseFunds := by
  have hentries : ∀ e ∈ s.repurchaseFunds.entries, 0 ≤ e.2 :=
    fun e he => hF.funds e.1 e.2 (Store.mem_iff_get.mp he)
  unfold State.getRepurchaseFunds
  -- the running sum stays well formed and nonnegative, entry by entry
  suffices h : ∀ (l : List (Symbol × ℤ)) (acc : Coins), (∀ e ∈ l, 0 ≤ e.2) → Coins.WF acc →
      Coins.Nonneg acc → Coins.Nonneg (l.foldl (fun funds e => funds.add (newCoins e)) acc) from
    h _ [] hentries Coins.wf_nil Coins.nonneg_nil
  intro l
  induction l with
  | nil => exact fun _ _ _ hn => hn
  | cons e l ih =>
    intro acc hl hw hn
    rw [List.foldl_cons]
    have he := hl e List.mem_cons_self
    exact ih _ (fun e' he' => hl e' (List.mem_cons_of_mem e he')) (Coins.wf_add hw (Coins.wf_newCoins e))
      (Coins.nonneg_add hw (Coins.wf_newCoins e) hn (Coins.nonneg_newCoins he))

/-- **Adding nonnegative funds keeps them nonnegative.** -/
theorem addRepurchaseFunds (hF : FundsInv s) {coins : Coins} (hc : Coins.Nonneg coins) :
    FundsInv (s.addRepurchaseFunds coins) := by
  unfold State.addRepurchaseFunds
  induction coins generalizing s with
  | nil => exact hF
  | cons coin coins ih =>
    rw [List.foldl_cons]
    refine ih ?_ (fun e he => hc e (List.mem_cons_of_mem coin he))
    -- the fund of the coin's symbol grows by the coin's amount
    refine ⟨hF.orders, hF.book, fun symbol v h => ?_⟩
    rw [Store.get_set] at h
    split_ifs at h
    · cases h
      have hfund : 0 ≤ s.getRepurchaseFund coin.1 := by
        unfold State.getRepurchaseFund
        cases hg : s.repurchaseFunds.get coin.1 with
        | none => exact le_rfl
        | some w => exact hF.funds _ w hg
      exact add_nonneg (hc coin List.mem_cons_self) hfund
    · exact hF.funds symbol v h

end FundsInv

/-- **A call that only trades**: each pair changes by a trade, and the
funds invariant holds after it. -/
structure Traded (s s' : State) : Prop where
  pairs : ∀ key, Option.Rel TradingPair.Trade (s.pairs key) (s'.pairs key)
  funded : FundsInv s'

section optionRel

variable {α : Type} {r : α → α → Prop}

/-! The relation of two versions of a store of pairs, key by key. -/

theorem optionRel_refl (hr : ∀ a, r a a) : ∀ o : Option α, Option.Rel r o o
  | none => .none
  | some a => .some (hr a)

theorem optionRel_trans (hr : ∀ a b c, r a b → r b c → r a c) {o₁ o₂ o₃ : Option α}
    (h₁ : Option.Rel r o₁ o₂) (h₂ : Option.Rel r o₂ o₃) : Option.Rel r o₁ o₃ := by
  cases h₁ with
  | none => exact h₂
  | some h => cases h₂ with
    | some h' => exact .some (hr _ _ _ h h')

theorem optionRel_of_some_right {o : Option α} {b : α} (h : Option.Rel r o (some b)) :
    ∃ a, o = some a ∧ r a b := by
  cases h
  exact ⟨_, rfl, ‹_›⟩

theorem optionRel_of_some_left {a : α} {o : Option α} (h : Option.Rel r (some a) o) :
    ∃ b, o = some b ∧ r a b := by
  cases h
  exact ⟨_, rfl, ‹_›⟩

end optionRel

namespace Traded

theorem refl {s : State} (hF : FundsInv s) : Traded s s :=
  ⟨fun key => optionRel_refl TradingPair.Trade.refl (s.pairs key), hF⟩

theorem trans {s₁ s₂ s₃ : State} (h₁ : Traded s₁ s₂) (h₂ : Traded s₂ s₃) : Traded s₁ s₃ :=
  ⟨fun key => optionRel_trans (r := TradingPair.Trade) (fun _ _ _ => TradingPair.Trade.trans) (h₁.pairs key) (h₂.pairs key), h₂.funded⟩

/-- A call that writes no pair. -/
theorem of_pairs_eq {s s' : State} (hp : s'.pairs = s.pairs) (hF : FundsInv s') : Traded s s' where
  pairs key := by
    rw [hp]
    exact optionRel_refl TradingPair.Trade.refl _
  funded := hF

theorem withManager {s : State} (hF : FundsInv s) {mgr : Manager} (hmgr : mgr.Funded) :
    Traded s { s with manager := mgr } :=
  of_pairs_eq rfl (hF.withManager hmgr)

/-- Saving a trade on the pair stored under its key. -/
theorem saveTradingPair {s : State} {pair pair' : TradingPair} (hcur : s.pairs pair.key = some pair)
    (ht : pair.Trade pair') (hF : FundsInv s) : Traded s (s.saveTradingPair pair') where
  pairs key := by
    by_cases hk : key = pair'.key
    · subst hk
      rw [State.pairs_saveTradingPair, Function.update_self, ht.key_eq, hcur]
      exact .some ht
    · rw [State.pairs_saveTradingPair, Function.update_of_ne hk]
      exact (refl hF).pairs key
  funded := hF.of_eq rfl rfl rfl

end Traded

/-- **Fee rates a pair was checked with**: its own lp and referer rates
not negative, and the rates a swap through it pays adding up to at most
one. -/
structure TradingPair.RatesChecked (env : Env) (pair : TradingPair) : Prop where
  lpRewardRate_nonneg : 0 ≤ pair.lpRewardRate.val
  refererRewardRate_nonneg : 0 ≤ pair.refererRewardRate.val
  total_le_one : (getFeeRates env pair).totalFeeRate.val ≤ Dec.one.val

/-- **The rates a swap through a checked pair pays are bounded**, under
valid parameters. -/
theorem TradingPair.RatesChecked.bounded (hv : env.Valid) {pair : TradingPair}
    (h : pair.RatesChecked env) : (getFeeRates env pair).Bounded := by
  have hlp := hv.lpRewardRate_nonneg
  have hrep := hv.repurchaseRate_nonneg
  have href := hv.refererTransactionBonusRate_nonneg
  have hplp := h.lpRewardRate_nonneg
  have hpref := h.refererRewardRate_nonneg
  refine ⟨?_, ?_, ?_, h.total_le_one⟩ <;> unfold getFeeRates <;> split_ifs <;> assumption

/-- The rates of a pair do not read its reserves. -/
theorem TradingPair.RatesChecked.withReserves {pair : TradingPair} (h : pair.RatesChecked env)
    (a b : ℤ) : ({ pair with tokenAAmount := a, tokenBAmount := b } : TradingPair).RatesChecked env :=
  ⟨h.lpRewardRate_nonneg, h.refererRewardRate_nonneg, h.total_le_one⟩

variable (env) in
/-- **The pairs invariant**: every stored pair is backed by its reserves
and was checked for its fee rates. -/
structure PairsInv (s : State) : Prop where
  backed : ∀ key pair, s.pairs key = some pair → pair.Backed
  rates : ∀ key pair, s.pairs key = some pair → pair.RatesChecked env

/-- **A trade keeps the pairs invariant**: the rates are untouched, and a
trade on a backed pair leaves it backed. -/
theorem PairsInv.traded {s s' : State} (hP : PairsInv env s) (h : Traded s s') : PairsInv env s' where
  backed key pair' hp := by
    obtain ⟨pair, hpair, ht⟩ := optionRel_of_some_right (hp ▸ h.pairs key)
    exact (ht.backed (hP.backed key pair hpair)).1
  rates key pair' hp := by
    obtain ⟨pair, hpair, ht⟩ := optionRel_of_some_right (hp ▸ h.pairs key)
    rw [ht.eq]
    exact (hP.rates key pair hpair).withReserves _ _

/-! ## Swaps and fills -/

section swaps

variable (env)

/-- **A swap on a stored pair is a trade**, for a nonnegative input and
fee rates it can pay. The pair it returns is the one then stored, and it
pays out, credits and sets aside nothing negative. -/
theorem swap_traded {s : State} {pair : TradingPair} (hcur : s.pairs pair.key = some pair)
    (hF : FundsInv s) {feeRate : FeeRate} (hf : feeRate.Bounded) (tokenIn : Symbol) {amountIn : ℤ}
    (ha : 0 ≤ amountIn) (isRepurchasing : Bool) :
    let r := swap env s feeRate pair tokenIn amountIn isRepurchasing
    Traded s r.2 ∧ r.2.pairs r.1.pair.key = some r.1.pair ∧ (pair.Backed → 0 ≤ r.1.amountOut) ∧
      0 ≤ r.1.refererBonus ∧ 0 ≤ r.1.repurchaseFund := by
  have hfees := swapFees_le env s hf tokenIn ha isRepurchasing
  dsimp only [swap]
  generalize swapFees env s feeRate tokenIn amountIn isRepurchasing = fees at hfees ⊢
  obtain ⟨lp, ref, rep⟩ := fees
  obtain ⟨hlp, href, hrep, hsum⟩ := hfees
  dsimp only at hlp href hrep hsum ⊢
  -- what is left of the input after the fees goes through the constant-product step
  have hstep := swapPair_trade pair tokenIn (show 0 ≤ amountIn - lp - ref - rep by omega) hlp
  generalize swapPair pair tokenIn (amountIn - lp - ref - rep) lp = step at hstep ⊢
  obtain ⟨amountOut, pair'⟩ := step
  obtain ⟨htrade, hout⟩ := hstep
  refine ⟨Traded.saveTradingPair hcur htrade hF, ?_, hout, href, hrep⟩
  simp [State.saveTradingPair]

/-- **The bookkeeping of a fill keeps the funds invariant**: the order it
saves spent no more than its locked fund, and the repurchase fund it
records is positive. -/
theorem settleFill_funded {s : State} (hF : FundsInv s) (blockTime : ℤ) {order : Order}
    (ho : order.Funded) (tokenIn tokenOut : Symbol) {realMaxAmountIn : ℤ}
    (hle : realMaxAmountIn ≤ order.lockedFund) (r : SwapResult) :
    let f := settleFill s blockTime order tokenIn tokenOut realMaxAmountIn r
    FundsInv f.2 ∧ f.1.Funded := by
  dsimp only [settleFill]
  have hord : ∀ status finishedTime,
      ({ order with lockedFund := order.lockedFund - realMaxAmountIn, status := status,
                    finishedTime := finishedTime } : Order).Funded :=
    fun _ _ => ⟨by dsimp only; omega, ho.feeRate_bounded, ho.coeff_pos, ho.price_pos⟩
  refine ⟨FundsInv.saveOrder ?_ ?_, ?_⟩
  · -- the balances move, and a positive repurchase fund is recorded
    by_cases hfund : 0 < r.repurchaseFund
    · rw [if_pos hfund]
      refine FundsInv.addRepurchaseFunds ?_ (Coins.nonneg_newCoins (c := (tokenIn, _)) hfund.le)
      exact hF.of_eq rfl rfl rfl
    · rw [if_neg hfund]
      exact hF.of_eq rfl rfl rfl
  all_goals split_ifs <;> exact hord _ _

/-- **A fill on a stored pair is a trade**, for a funded order, and the
order it returns is funded. -/
theorem limitSwap_traded {s : State} {pair : TradingPair} (hcur : s.pairs pair.key = some pair)
    (hF : FundsInv s) {blockTime : ℤ} {order : Order} (ho : order.Funded) {res : LimitSwapResult × State}
    (h : limitSwap env s blockTime order pair = .ok res) :
    Traded s res.2 ∧ res.2.pairs res.1.pair.key = some res.1.pair ∧ res.1.order.Funded := by
  obtain ⟨maxAmountIn, priceSuitable, hcal, ⟨-, rfl⟩ | ⟨-, q, hq, rfl⟩⟩ := limitSwap_eq_ok env h
  · exact ⟨.refl hF, hcur, ho⟩
  · -- the amount spent lies between nothing and the locked fund
    obtain ⟨h0, hle⟩ := fillAmount_bounds (calLimitSwapAmount_nonneg hcal) ho.lockedFund_nonneg
      ho.feeRate_bounded.coeff_nonneg hq
    unfold fillOrder
    generalize (if order.lockedFund < _ then order.lockedFund else _ : ℤ) = spent at h0 hle ⊢
    generalize (if order.side = .buy then (pair.tokenB, pair.tokenA) else (pair.tokenA, pair.tokenB)) = tokens
    obtain ⟨tokenIn, tokenOut⟩ := tokens
    dsimp only
    obtain ⟨h₁, h₂, -, -, -⟩ := swap_traded env hcur hF ho.feeRate_bounded tokenIn h0 false
    generalize swap env s order.feeRate pair tokenIn spent false = r at h₁ h₂ ⊢
    obtain ⟨result, s₁⟩ := r
    dsimp only at h₁ h₂ ⊢
    obtain ⟨hF₂, hord⟩ := settleFill_funded h₁.funded blockTime ho tokenIn tokenOut hle result
    refine ⟨h₁.trans (.of_pairs_eq (pairs_settleFill ..) hF₂), ?_, hord⟩
    rw [pairs_settleFill]
    exact h₂

end swaps

/-! ## The matching -/

section matching

variable (env) (blockTime : ℤ)

/-- The end of a round takes orders out of the book and the index only. -/
theorem removeFinishedOrders_traded :
    ∀ (orders : List Order) {s : State}, FundsInv s → Traded s (removeFinishedOrders s orders)
  | [], _, hF => .refl hF
  | order :: orders, s, hF => by
    have h₁ : Traded s { s.delUnfinishedOrder order with manager := s.manager.delOrder order } :=
      .of_pairs_eq rfl ((hF.delUnfinishedOrder order).withManager (hF.book.delOrder order))
    exact h₁.trans (removeFinishedOrders_traded orders h₁.funded)

/-- Both books of a funded market, as a pass finds them in a state that
keeps the funds invariant, hold funded orders. -/
theorem Market.Funded.books {m : Market} (hm : m.Funded) {s : State} (hF : FundsInv s) :
    (∀ o ∈ (s.manager.currentMarket m).sellOrders.byPrice, o.Funded) ∧
      ∀ o ∈ (s.manager.currentMarket m).buyOrders.byPriceReverse, o.Funded :=
  ⟨fun _ ho => (hF.book.currentMarket hm).of_mem_byPrice .sell ho,
    fun _ ho => (hF.book.currentMarket hm).of_mem_byPriceReverse .buy ho⟩

/-- **The matching is a chain of trades**, each fill on the pair the last
one left, over funded orders; an order written back into the book is
funded. -/
theorem traded_matchingRel :
    MatchingRel env blockTime Traded (fun pair s => s.pairs pair.key = some pair ∧ FundsInv s)
      Order.Funded where
  refl := fun hI => .refl hI.2
  trans := Traded.trans
  fill := fun ho hI h => by
    obtain ⟨h₁, h₂, ho'⟩ := limitSwap_traded env hI.1 hI.2 ho h
    have h₁ := h₁.trans (Traded.withManager h₁.funded (h₁.funded.book.addOrder ho'))
    exact ⟨h₁, h₂, h₁.funded⟩
  remove := fun {_ s} finishedOrders hI => by
    have h₃ := removeFinishedOrders_traded finishedOrders hI.2
    exact ⟨h₃, (removeFinishedOrders_sameShares finishedOrders s).2 ▸ hI.1, h₃.funded⟩

/-- **The loop of a funded market only trades.** -/
theorem matchMarket_traded {m : Market} (hm : m.Funded) (fuel : ℕ) {pair : TradingPair}
    {s s' : State} (hcur : s.pairs pair.key = some pair) (hF : FundsInv s)
    (h : matchMarket env blockTime m fuel pair s = .ok s') : Traded s s' :=
  (traded_matchingRel env blockTime).matchMarket m (fun hI => hm.books hI.2) fuel ⟨hcur, hF⟩ h

/-- **`MatchingOrders` only trades**: every market of the book, funded, is
matched against its pair. -/
theorem matchingOrders_traded {s s' : State} (hI : SharesInv env s) (hF : FundsInv s)
    (h : matchingOrders env blockTime s = .ok s') : Traded s s' := by
  unfold matchingOrders at h
  refine (foldlM_invariant_of_mem (P := fun s₁ => Traded s s₁ ∧ SharesInv env s₁) _ ?_
    ⟨.refl hF, hI⟩ h).1
  rintro s₁ m s₂ hmem ⟨h₀, hI₁⟩ hm
  split at hm
  · -- a market whose pair is missing is skipped
    rw [pure_eq_ok] at hm
    subst hm
    exact ⟨h₀, hI₁⟩
  · rename_i pair hpair
    have hcur := hI₁.pairs_key_of_getTradingPair hpair
    have h₁ := matchMarket_traded env blockTime (hF.book.of_mem_getMarkets hmem) _ hcur h₀.funded hm
    exact ⟨h₀.trans h₁, hI₁.sameShares (matchMarket_sameShares m _ hcur hm)⟩

end matching

/-! ## Repurchase -/

section repurchase

variable (env)

theorem repurchaseFund_traded (hv : env.Valid) {acc : ℤ × State} (hI : SharesInv env acc.2)
    (hP : PairsInv env acc.2) (hF : FundsInv acc.2) {coin : Coin} (hc : 0 ≤ coin.2) :
    Traded acc.2 (repurchaseFund env acc coin).2 := by
  unfold repurchaseFund
  dsimp only
  split
  · exact .of_pairs_eq rfl (hF.deleteFund coin.1)
  · split
    · exact .of_pairs_eq rfl (hF.deleteFund coin.1)
    next pair hpair =>
      -- the fund is swapped, without fees, through its pair of dex `0`
      have hcur := hI.pairs_key_of_getTradingPair hpair
      obtain ⟨h₁, -⟩ := swap_traded env hcur hF ((hP.rates _ _ hcur).bounded hv) coin.1 hc true
      exact h₁.trans (.of_pairs_eq rfl (h₁.funded.deleteFund coin.1))

theorem foldl_repurchaseFund_traded (hv : env.Valid) :
    ∀ (coins : Coins) (acc : ℤ × State), Coins.Nonneg coins → SharesInv env acc.2 →
      PairsInv env acc.2 → FundsInv acc.2 → Traded acc.2 (coins.foldl (repurchaseFund env) acc).2
  | [], _, _, _, _, hF => .refl hF
  | coin :: coins, acc, hc, hI, hP, hF => by
    have h₁ := repurchaseFund_traded env hv hI hP hF (hc coin List.mem_cons_self)
    have hI₁ := hI.sameShares (repurchaseFund_sameShares acc coin hI)
    exact h₁.trans (foldl_repurchaseFund_traded hv coins _
      (fun c h => hc c (List.mem_cons_of_mem coin h)) hI₁ (hP.traded h₁) h₁.funded)

/-- **`RepurchaseAndBurn` only trades**: the funds it swaps are not
negative. -/
theorem repurchaseAndBurn_traded (hv : env.Valid) {height : ℤ} {s s' : State}
    (hI : SharesInv env s) (hP : PairsInv env s) (hF : FundsInv s)
    (h : repurchaseAndBurn env height s = .ok s') : Traded s s' := by
  unfold repurchaseAndBurn at h
  split at h
  · rw [pure_eq_ok] at h
    exact h ▸ .refl hF
  have hfold := foldl_repurchaseFund_traded env hv s.getRepurchaseFunds (0, s)
    hF.getRepurchaseFunds_nonneg hI hP hF
  generalize s.getRepurchaseFunds.foldl (repurchaseFund env) (0, s) = acc at h hfold
  dsimp only at h
  split at h
  · split at h
    · rw [pure_eq_ok] at h
      exact h ▸ hfold.trans (.of_pairs_eq rfl (hfold.funded.of_eq rfl rfl rfl))
    · cases h
    · cases h
  · rw [pure_eq_ok] at h
    exact h ▸ hfold

end repurchase

/-! ## Bringing the book up to date -/

/-- **Finishing a funded order keeps the funds invariant**: its locked fund
is unlocked to `0` or left as it was. -/
theorem finishOrderWithStatus_funded {s : State} (hF : FundsInv s) (blockTime : ℤ) {order : Order}
    (ho : order.Funded) (status : OrderStatus) :
    let f := finishOrderWithStatus s blockTime order status
    FundsInv f.2 ∧ f.1.Funded ∧ f.2.pairs = s.pairs := by
  dsimp only [finishOrderWithStatus]
  split
  · -- what the order still had locked is unlocked
    have ho' : ({ order with finishedTime := blockTime, status := status, lockedFund := 0 } : Order).Funded :=
      ⟨le_rfl, ho.feeRate_bounded, ho.coeff_pos, ho.price_pos⟩
    refine ⟨FundsInv.delUnfinishedOrder (FundsInv.saveOrder ?_ ho') _, ho', rfl⟩
    exact hF.of_eq rfl rfl rfl
  · have ho' : ({ order with finishedTime := blockTime, status := status } : Order).Funded :=
      ⟨ho.lockedFund_nonneg, ho.feeRate_bounded, ho.coeff_pos, ho.price_pos⟩
    refine ⟨FundsInv.delUnfinishedOrder (FundsInv.saveOrder ?_ ho') _, ho', rfl⟩
    exact hF.of_eq rfl rfl rfl

theorem clearExpiredOrders_traded (blockTime : ℤ) {s : State} (hF : FundsInv s) :
    Traded s (clearExpiredOrders blockTime s) := by
  unfold clearExpiredOrders
  have hexp : ∀ order ∈ s.manager.getExpiredOrders blockTime, order.Funded :=
    fun _ h => hF.book.of_mem_getExpiredOrders h
  generalize s.manager.getExpiredOrders blockTime = orders at hexp
  induction orders generalizing s with
  | nil => exact .refl hF
  | cons order orders ih =>
    rw [List.foldl_cons]
    obtain ⟨hF₁, ho, hpairs⟩ :=
      finishOrderWithStatus_funded hF blockTime (hexp order List.mem_cons_self) .expired
    -- the book's copy of the order, finished, is written back
    have h₁ : Traded s (expireOrder blockTime s order) :=
      (Traded.of_pairs_eq hpairs hF₁).trans (Traded.withManager hF₁ (hF₁.book.addOrder ho))
    exact h₁.trans (ih h₁.funded (fun o h => hexp o (List.mem_cons_of_mem order h)))

/-- The orders placed during the block enter the book as the store has
them. -/
theorem insertOrderToMatching_traded {s s' : State} (hF : FundsInv s)
    (h : insertOrderToMatching s = .ok s') : Traded s s' := by
  simp only [insertOrderToMatching, bind_eq_ok, pure_eq_ok] at h
  obtain ⟨mgr, hmgr, rfl⟩ := h
  have hf : mgr.Funded := by
    refine foldlM_invariant (P := Manager.Funded) (fun mgr orderID mgr' hm hstep => ?_)
      s.waitToInsert hF.book hmgr
    simp only [bind_eq_ok, orFail_eq_ok, pure_eq_ok] at hstep
    obtain ⟨order, hget, rfl⟩ := hstep
    split
    · exact hm
    · exact hm.addOrder (hF.orders orderID order hget)
  exact .of_pairs_eq rfl ⟨hF.orders, hf, hF.funds⟩

theorem removeOrderFromMatching_traded {s s' : State} (hF : FundsInv s)
    (h : removeOrderFromMatching s = .ok s') : Traded s s' := by
  simp only [removeOrderFromMatching, bind_eq_ok, pure_eq_ok] at h
  obtain ⟨mgr, hmgr, rfl⟩ := h
  have hf : mgr.Funded := by
    refine foldlM_invariant (P := Manager.Funded) (fun mgr orderID mgr' hm hstep => ?_)
      s.waitToRemove hF.book hmgr
    simp only [bind_eq_ok, orFail_eq_ok, pure_eq_ok] at hstep
    obtain ⟨order, -, rfl⟩ := hstep
    exact hm.delOrder order
  exact .of_pairs_eq rfl ⟨hF.orders, hf, hF.funds⟩

theorem updateOrdersInMatching_traded (blockTime : ℤ) {s s' : State} (hF : FundsInv s)
    (h : updateOrdersInMatching blockTime s = .ok s') : Traded s s' := by
  simp only [updateOrdersInMatching, bind_eq_ok] at h
  obtain ⟨s₁, h₁, h₂⟩ := h
  have ht₀ := clearExpiredOrders_traded blockTime hF
  have ht₁ := insertOrderToMatching_traded ht₀.funded h₁
  exact ht₀.trans (ht₁.trans (removeOrderFromMatching_traded ht₁.funded h₂))

variable (env) in
/-- **The end of a block only trades.** -/
theorem endBlock_traded (hv : env.Valid) {height blockTime : ℤ} {s s' : State}
    (hI : SharesInv env s) (hP : PairsInv env s) (hF : FundsInv s)
    (h : endBlock env height blockTime s = .ok s') : Traded s s' := by
  simp only [endBlock, bind_eq_ok] at h
  obtain ⟨s₁, h₁, s₂, h₂, h₃⟩ := h
  have ht₁ := updateOrdersInMatching_traded blockTime hF h₁
  have hI₁ := hI.sameShares (updateOrdersInMatching_sameShares h₁)
  have ht₂ := matchingOrders_traded env blockTime hI₁ ht₁.funded h₂
  have hI₂ := hI₁.sameShares (matchingOrders_sameShares hI₁ h₂)
  exact ht₁.trans (ht₂.trans
    (repurchaseAndBurn_traded env hv hI₂ ((hP.traded ht₁).traded ht₂) ht₂.funded h₃))

/-- **The restart only rebuilds the book**, from the funded orders of the
store. -/
theorem restartNode_traded {s s' : State} (hF : FundsInv s) (h : restartNode env s = .ok s') :
    Traded s s' := by
  simp only [restartNode, bind_eq_ok, pure_eq_ok] at h
  obtain ⟨mgr, hmgr, rfl⟩ := h
  have hf : mgr.Funded := iteratorAllUnfinishedOrder_invariant env
    (fun _ id order hm hget => hm.addOrder (hF.orders id order hget)) Manager.funded_empty hmgr
  exact .withManager hF hf

/-! ## The transactions that only trade -/

theorem saveDex_traded {s : State} (hF : FundsInv s) (dex : Dex) : Traded s (s.saveDex dex).2 := by
  unfold State.saveDex
  dsimp only
  split <;> exact .of_pairs_eq rfl (hF.of_eq rfl rfl rfl)

/-- `swapReferer` returns the state as it was, or with a referer bound. -/
theorem swapReferer_state {s s' : State} {dexID : ℕ} {fromAddr referer referer' : CUAddress}
    (h : swapReferer s dexID fromAddr referer = .ok (referer', s')) :
    s' = s ∨ s' = s.bindReferer fromAddr referer := by
  unfold swapReferer at h
  split at h
  · simp only [bind_eq_ok, pure_eq_ok, Prod.mk.injEq] at h
    obtain ⟨_, -, -, rfl⟩ := h
    exact .inl rfl
  · split at h
    · rw [pure_eq_ok, Prod.mk.injEq] at h
      exact .inl h.2.symm
    · rw [pure_eq_ok, Prod.mk.injEq] at h
      exact .inr h.2.symm

theorem swapReferer_traded {s s' : State} (hF : FundsInv s) {dexID : ℕ}
    {fromAddr referer referer' : CUAddress} (h : swapReferer s dexID fromAddr referer = .ok (referer', s')) :
    Traded s s' := by
  rcases swapReferer_state h with rfl | rfl
  · exact .refl hF
  · unfold State.bindReferer
    split
    · exact .refl hF
    · exact .of_pairs_eq rfl (hF.of_eq rfl rfl rfl)

section hops

variable (env) (hv : env.Valid) (dexID : ℕ)

include hv in
/-- **The hops of a direct swap are trades**, each on the pair its two
tokens find (or the pair of dex `0` it stands for), at the rates of the
pair found. The amount entering each hop is not negative, and the
repurchase funds gathered stay a well-formed set of nonnegative coins. -/
theorem swapHops_traded : ∀ (path : List Symbol) {h h' : HopState},
    SharesInv env h.s → PairsInv env h.s → FundsInv h.s → 0 ≤ h.amountIn →
      Coins.WF h.repurchaseFunds → Coins.Nonneg h.repurchaseFunds →
      swapHops env dexID h path = .ok h' →
      Traded h.s h'.s ∧ Coins.WF h'.repurchaseFunds ∧ Coins.Nonneg h'.repurchaseFunds
  | tokenIn :: tokenOut :: path, h, h', hI, hP, hF, ha, hw, hn, hs => by
    simp only [swapHops, bind_eq_ok, orFail_eq_ok] at hs
    obtain ⟨pair, hpair, pair', hpair', hs⟩ := hs
    -- the rates of the pair found, the reserves of the pair it stands for
    have hrates := (hP.rates _ _ (hI.pairs_key_of_getTradingPair hpair)).bounded hv
    have hcur := hI.pairs_key_of_redirectPublic hpair hpair'
    obtain ⟨h₁, -, hout, -, hrep⟩ := swap_traded env hcur hF hrates tokenIn ha false
    have hI₁ := hI.sameShares (swap_sameShares env hcur (getFeeRates env pair) tokenIn h.amountIn false).1
    generalize swap env h.s (getFeeRates env pair) pair' tokenIn h.amountIn false = r at h₁ hout hrep hI₁ hs
    -- a positive repurchase fund joins the funds gathered
    have hfunds : Coins.WF (if 0 < r.1.repurchaseFund then
          h.repurchaseFunds.add (newCoins (tokenIn, r.1.repurchaseFund)) else h.repurchaseFunds) ∧
        Coins.Nonneg (if 0 < r.1.repurchaseFund then
          h.repurchaseFunds.add (newCoins (tokenIn, r.1.repurchaseFund)) else h.repurchaseFunds) := by
      split
      · exact ⟨Coins.wf_add hw (Coins.wf_newCoins _),
          Coins.nonneg_add hw (Coins.wf_newCoins _) hn (Coins.nonneg_newCoins (c := (tokenIn, _)) hrep)⟩
      · exact ⟨hw, hn⟩
    obtain ⟨h₂, hw', hn'⟩ := swapHops_traded (tokenOut :: path) hI₁ (hP.traded h₁) h₁.funded
      (hout (hP.backed _ _ hcur)) hfunds.1 hfunds.2 hs
    exact ⟨h₁.trans h₂, hw', hn'⟩
  | [], h, _, _, _, hF, _, hw, hn, hs => by
    cases hs
    exact ⟨.refl hF, hw, hn⟩
  | [_], h, _, _, _, hF, _, hw, hn, hs => by
    cases hs
    exact ⟨.refl hF, hw, hn⟩

include hv in
/-- **A direct swap only trades**, for an input that is not negative. -/
theorem directSwap_traded {s s' : State} (hI : SharesInv env s) (hP : PairsInv env s)
    (hF : FundsInv s) {fromAddr referer receiver : CUAddress} {amountIn : ℤ} (ha : 0 ≤ amountIn)
    {path : List Symbol} (h : directSwap env s dexID fromAddr referer receiver amountIn path = .ok s') :
    Traded s s' := by
  simp only [directSwap, bind_eq_ok, orFail_eq_ok, pure_eq_ok] at h
  obtain ⟨-, -, trk, -, hops, hhops, -, -, trk', -, trk'', -, rfl⟩ := h
  have h₀ : Traded s { s with trk := trk } := .of_pairs_eq rfl (hF.of_eq rfl rfl rfl)
  have hI₀ : SharesInv env { s with trk := trk } := hI.sameShares (.of_eq rfl rfl rfl)
  obtain ⟨h₁, hw, hn⟩ := swapHops_traded env hv dexID path hI₀ (hP.traded h₀) h₀.funded ha
    Coins.wf_nil Coins.nonneg_nil hhops
  -- the repurchase funds gathered are recorded
  have hF₂ : FundsInv ({ hops.s with trk := trk'' }.addRepurchaseFunds hops.repurchaseFunds) := by
    refine FundsInv.addRepurchaseFunds ?_ hn
    exact h₁.funded.of_eq rfl rfl rfl
  exact h₀.trans (h₁.trans (.of_pairs_eq (by simp) hF₂))

include hv in
theorem swapExactIn_traded {s s' : State} (hI : SharesInv env s) (hP : PairsInv env s)
    (hF : FundsInv s) {fromAddr referer receiver : CUAddress} {amountIn minAmountOut : ℤ}
    (ha : 0 ≤ amountIn) {path : List Symbol}
    (h : swapExactIn env s dexID fromAddr referer receiver amountIn minAmountOut path = .ok s') :
    Traded s s' := by
  simp only [swapExactIn, bind_eq_ok] at h
  obtain ⟨-, -, -, -, h⟩ := h
  exact directSwap_traded env hv dexID hI hP hF ha h

include hv in
/-- **The input `getAmountIn` asks for is not negative**, for an output
that is not: each hop divides a nonnegative amount by a coefficient that is
not negative, and adds one. -/
theorem getAmountIn_go_nonneg {s : State} (hI : SharesInv env s) (hP : PairsInv env s) :
    ∀ (rpath : List Symbol) {amountIn r : ℤ}, 0 ≤ amountIn →
      getAmountIn.go env s dexID amountIn rpath = .ok r → 0 ≤ r
  | tokenOut :: tokenIn :: rpath, amountIn, r, ha, h => by
    simp only [getAmountIn.go, bind_eq_ok, orFail_eq_ok, failIf_eq_ok] at h
    obtain ⟨pair, hpair, -, hres, -, hout, q, hq, h⟩ := h
    refine getAmountIn_go_nonneg hI hP (tokenIn :: rpath) ?_ h
    have hcoeff := ((hP.rates _ _ (hI.pairs_key_of_getTradingPair hpair)).bounded hv).coeff_nonneg
    generalize getReserves s pair tokenIn tokenOut = reserves at hres hout hq
    obtain ⟨reserveIn, reserveOut⟩ := reserves
    dsimp only at hres hout hq
    have hm := (mulAndDiv_bounds (Int.mul_nonneg ha (le_of_lt (by omega : (0 : ℤ) < reserveIn)))
      (by omega : (0 : ℤ) ≤ reserveOut - amountIn)).1
    have hq : 0 ≤ q.truncateInt :=
      Dec.truncateInt_nonneg (Dec.quo_nonneg (Int.mul_nonneg hm precisionInt_pos.le) hcoeff hq)
    omega
  | [], _, _, ha, h => by
    cases h
    exact ha
  | [_], _, _, ha, h => by
    cases h
    exact ha

include hv in
theorem swapExactOut_traded {s s' : State} (hI : SharesInv env s) (hP : PairsInv env s)
    (hF : FundsInv s) {fromAddr referer receiver : CUAddress} {amountOut maxAmountIn : ℤ}
    (ha : 0 ≤ amountOut) {path : List Symbol}
    (h : swapExactOut env s dexID fromAddr referer receiver amountOut maxAmountIn path = .ok s') :
    Traded s s' := by
  simp only [swapExactOut, bind_eq_ok] at h
  obtain ⟨amountIn, hin, -, -, h⟩ := h
  exact directSwap_traded env hv dexID hI hP hF (getAmountIn_go_nonneg env hv dexID hI hP _ ha hin) h

end hops

/-- **`LimitSwap` refuses an order whose fee coefficient is not
positive.** With a positive price and an input that is not negative, the
part of the input left after the fees, `amountIn · (1 - TotalFeeRate)`, is
not positive either, and neither is the output it is worth, in either
direction. -/
theorem coeff_pos_of_amountOut_pos {amountIn : ℤ} (ha : 0 ≤ amountIn) {price : Dec}
    (hp : 0 < price.val) {feeRate : FeeRate} {side : OrderSide} {amountOut : ℤ}
    (hamount : (match side with
      | .buy => do
        let q ← (((Dec.ofInt amountIn).mul (Dec.one.sub feeRate.totalFeeRate)).truncateDec).quo price
        pure q.truncateInt
      | .sell => pure ((((Dec.ofInt amountIn).mul (Dec.one.sub feeRate.totalFeeRate)).truncateDec).mul
          price).truncateInt : Except Failure ℤ) = .ok amountOut)
    (hout : ¬amountOut ≤ 0) :
    0 < (Dec.one.sub feeRate.totalFeeRate).val := by
  by_contra hc
  -- the part left to swap, truncated to a whole number, is not positive
  have ht : ((Dec.ofInt amountIn).mul (Dec.one.sub feeRate.totalFeeRate)).truncateInt ≤ 0 := by
    rw [Dec.ofInt_mul]
    exact Dec.truncateInt_nonpos (mul_nonpos_of_nonneg_of_nonpos ha (by omega))
  apply hout
  unfold Dec.truncateDec at hamount
  generalize ((Dec.ofInt amountIn).mul (Dec.one.sub feeRate.totalFeeRate)).truncateInt = t at ht hamount
  cases side with
  | buy =>
    obtain ⟨q, hq, h⟩ := bind_eq_ok.mp hamount
    obtain ⟨hne, rfl⟩ := Dec.quo_eq_ok.mp hq
    rw [← pure_eq_ok.mp h]
    exact Dec.truncateInt_nonpos
      (Dec.quoNonzero_nonpos (mul_nonpos_of_nonpos_of_nonneg ht precisionInt_pos.le) hp)
  | sell =>
    rw [← pure_eq_ok.mp hamount, Dec.ofInt_mul]
    exact Dec.truncateInt_nonpos (mul_nonpos_of_nonpos_of_nonneg ht hp.le)

variable (env) in
/-- **Placing a limit order only trades**: the order, funded with its
whole input at the rates of the pair found, is matched once against the
pair (or the pair of dex `0` it stands for). -/
theorem limitSwapTx_traded (hv : env.Valid) {s s' : State} (hI : SharesInv env s)
    (hP : PairsInv env s) (hF : FundsInv s) {blockTime : ℤ} {dexID : ℕ} {orderID : String}
    {fromAddr referer receiver : CUAddress} {amountIn : ℤ} (ha : 0 ≤ amountIn) {price : Dec}
    (hp : 0 < price.val) {baseSymbol quoteSymbol : Symbol} {side : OrderSide} {expiredAt : ℤ}
    (h : limitSwapTx env s blockTime dexID orderID fromAddr referer receiver amountIn price
      baseSymbol quoteSymbol side expiredAt = .ok s') : Traded s s' := by
  simp only [limitSwapTx, bind_eq_ok, orFail_eq_ok, failIf_eq_ok, pure_eq_ok] at h
  obtain ⟨pair, hpair, amountOut, hamount, -, hout, pair', hpair', -, -, trk, -, ⟨r, s₂⟩, hswap, rfl⟩ := h
  have hrates := (hP.rates _ _ (hI.pairs_key_of_getTradingPair hpair)).bounded hv
  -- the pair matched against is the one found, or the pair of dex `0` it stands for
  have hcur : s.pairs pair'.key = some pair' := by
    split at hpair'
    · exact hI.pairs_key_of_getTradingPair (orFail_eq_ok.mp hpair')
    · rw [pure_eq_ok] at hpair'
      exact hpair' ▸ hI.pairs_key_of_getTradingPair hpair
  -- the order is locked and saved, then matched once against the pair
  generalize ho : ({ orderID := orderID, dexID := pair'.dexID, fromAddr := fromAddr,
                     referer := referer, receiver := receiver, createdTime := blockTime,
                     expiredTime := expiredAt, finishedTime := 0, status := .new, side := side,
                     baseSymbol := baseSymbol, quoteSymbol := quoteSymbol, price := price,
                     amountIn := amountIn, lockedFund := amountIn,
                     feeRate := getFeeRates env pair } : Order) = order at hswap ⊢
  have hfunded : order.Funded := ho ▸ ⟨ha, hrates, coeff_pos_of_amountOut_pos ha hp hamount hout, hp⟩
  have hF₀ : FundsInv ({ s with trk := trk }.saveOrder order) := by
    refine FundsInv.saveOrder ?_ hfunded
    exact hF.of_eq rfl rfl rfl
  have h₀ : Traded s ({ s with trk := trk }.saveOrder order) := .of_pairs_eq rfl hF₀
  have hcur₀ : ({ s with trk := trk }.saveOrder order).pairs pair'.key = some pair' := hcur
  obtain ⟨h₁, -, -⟩ := limitSwap_traded env hcur₀ hF₀ hfunded hswap
  dsimp only
  split
  · exact h₀.trans (h₁.trans (.of_pairs_eq rfl (h₁.funded.of_eq rfl rfl rfl)))
  · exact h₀.trans h₁

theorem cancelOrder_traded {s s' : State} (hF : FundsInv s) {blockTime : ℤ} {fromAddr : CUAddress}
    {orderID : String} (h : cancelOrder s blockTime fromAddr orderID = .ok s') : Traded s s' := by
  simp only [cancelOrder, bind_eq_ok, orFail_eq_ok, pure_eq_ok] at h
  obtain ⟨order, hget, -, -, -, -, rfl⟩ := h
  obtain ⟨hF₁, -, hpairs⟩ := finishOrderWithStatus_funded hF blockTime (hF.orders orderID order hget) .canceled
  exact .of_pairs_eq hpairs hF₁

theorem cancelOrders_traded {s s' : State} (hF : FundsInv s) {blockTime : ℤ} {fromAddr : CUAddress}
    {orderIDs : List String} (h : cancelOrders s blockTime fromAddr orderIDs = .ok s') :
    Traded s s' := by
  simp only [cancelOrders, bind_eq_ok, pure_eq_ok] at h
  obtain ⟨s₁, h₁, rfl⟩ := h
  suffices hl : ∀ (orderIDs : List String) {s s₁ : State}, FundsInv s →
      cancelOrderList blockTime fromAddr s orderIDs = .ok s₁ → Traded s s₁ by
    have h₂ := hl orderIDs hF h₁
    exact h₂.trans (.of_pairs_eq rfl (h₂.funded.of_eq rfl rfl rfl))
  intro orderIDs
  induction orderIDs with
  | nil =>
    intro s s₁ hF h
    cases h
    exact .refl hF
  | cons orderID orderIDs ih =>
    intro s s₁ hF h
    simp only [cancelOrderList, bind_eq_ok] at h
    obtain ⟨s₂, h₂, h₃⟩ := h
    have ht := cancelOrder_traded hF h₂
    exact ht.trans (ih ht.funded h₃)

/-! ## The swap handlers -/

section handlers

variable (env) (hv : env.Valid)

include hv in
theorem handleMsgSwapExactIn_traded {s s' : State} (hI : SharesInv env s) (hP : PairsInv env s)
    (hF : FundsInv s) {blockTime : ℤ} {msg : MsgSwapExactIn} (ha : 0 ≤ msg.amountIn)
    (h : handleMsgSwapExactIn env s blockTime msg = .ok s') : Traded s s' := by
  simp only [handleMsgSwapExactIn, bind_eq_ok] at h
  obtain ⟨-, -, -, -, ⟨referer, s₁⟩, hs₁, h⟩ := h
  -- binding a referer trades nothing
  have h₁ := swapReferer_traded hF hs₁
  have hI₁ := hI.sameShares (swapReferer_sameShares hs₁)
  exact h₁.trans (swapExactIn_traded env hv msg.dexID hI₁ (hP.traded h₁) h₁.funded ha h)

include hv in
theorem handleMsgSwapExactOut_traded {s s' : State} (hI : SharesInv env s) (hP : PairsInv env s)
    (hF : FundsInv s) {blockTime : ℤ} {msg : MsgSwapExactOut} (ha : 0 ≤ msg.amountOut)
    (h : handleMsgSwapExactOut env s blockTime msg = .ok s') : Traded s s' := by
  simp only [handleMsgSwapExactOut, bind_eq_ok] at h
  obtain ⟨-, -, -, -, ⟨referer, s₁⟩, hs₁, h⟩ := h
  have h₁ := swapReferer_traded hF hs₁
  have hI₁ := hI.sameShares (swapReferer_sameShares hs₁)
  exact h₁.trans (swapExactOut_traded env hv msg.dexID hI₁ (hP.traded h₁) h₁.funded ha h)

include hv in
theorem handleMsgLimitSwap_traded {s s' : State} (hI : SharesInv env s) (hP : PairsInv env s)
    (hF : FundsInv s) {blockTime : ℤ} {msg : MsgLimitSwap} (ha : 0 ≤ msg.amountIn)
    (hp : 0 < msg.price.val) (h : handleMsgLimitSwap env s blockTime msg = .ok s') : Traded s s' := by
  simp only [handleMsgLimitSwap, bind_eq_ok] at h
  obtain ⟨-, -, -, -, -, -, -, -, ⟨referer, s₁⟩, hs₁, h⟩ := h
  have h₁ := swapReferer_traded hF hs₁
  have hI₁ := hI.sameShares (swapReferer_sameShares hs₁)
  exact h₁.trans (limitSwapTx_traded env hv hI₁ (hP.traded h₁) h₁.funded ha hp h)

end handlers

end Openswap
