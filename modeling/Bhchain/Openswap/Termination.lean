import Bhchain.Openswap.Expiry

/-!
# The matching loop ends (`Keeper.MatchingOrders`)

`MatchingOrders` runs a market in rounds, `for {}`, until a round swaps
nothing. The measure that ends the loop is not in the code: it is the sum
of the funds the market's orders have locked. A round that swaps something
has some order swap a positive amount, which comes out of that order's
locked fund, and nothing in a round adds to a locked fund. So the sum goes
down by one at least in every round that does not break, and the loop
ends within one round more than the sum it starts with, the fuel
`matchingFuel` that the model gives it (`matchMarket_fuel_eq`).

That argument needs `limitSwap` to spend no more than the order has locked
and never a negative amount. It divides the amount the pair's price allows
by the fee coefficient `1 - TotalFeeRate`: with the coefficient positive,
the amount is non-negative and capped by the locked fund. With fee rates
that add up to more than `1` the coefficient is negative, the order
"spends" a negative amount, and its locked fund grows in a round that
swapped (the examples at the end). A coefficient of `0` makes `Dec.Quo`
divide by zero, and `limitSwap` panics. Neither reaches the book:
`LimitSwap` refuses an order whose coefficient is not positive, and
`Value.lean` proves the loop ends on every market the chain reaches
(`matchMarket_terminates_reachable`).

The invariant the rounds keep is `Market.Filed`: every order in a book of
the market is filed under its own ID, in the book of its own side, with
its own dex and pair, a non-negative locked fund and a positive fee
coefficient. Writing an order back into the book after `limitSwap`
replaces the same entry, and the filled orders that leave the book at the
end of the round take their locked funds with them.
-/

namespace Openswap

open Sdk Transfer KVStore Transition

/-! ## The books of a market, their locked funds, and the invariant -/

/-- The book of one side of a market. -/
def Market.book (m : Market) : OrderSide → Orderbook
  | .buy => m.buyOrders
  | .sell => m.sellOrders

/-- The funds the orders of a book have locked. -/
def Orderbook.lockedFunds (ob : Orderbook) : ℤ := ob.idToOrder.total (fun _ order => order.lockedFund)

/-- **The measure of the matching loop**: the funds the orders of both
books of a market have locked. -/
def Market.lockedFunds (m : Market) : ℤ := m.sellOrders.lockedFunds + m.buyOrders.lockedFunds

/-- **An order as the matching loop finds it** in the book `side` of the
market under `key`: filed under its own ID, of its own side, dex and pair,
with a non-negative locked fund and a positive fee coefficient
`1 - TotalFeeRate`. -/
structure Order.FiledIn (order : Order) (key : String) (side : OrderSide) (orderID : String) :
    Prop where
  orderID_eq : order.orderID = orderID
  side_eq : order.side = side
  key_eq : formatKey order.dexID order.baseSymbol order.quoteSymbol = key
  lockedFund_nonneg : 0 ≤ order.lockedFund
  coeff_pos : 0 < (Dec.one.sub order.feeRate.totalFeeRate).val

/-- **Every order of the market under `key` is filed as the loop needs.** -/
structure Market.Filed (key : String) (m : Market) : Prop where
  filedIn : ∀ side orderID order, (m.book side).idToOrder.get orderID = some order →
    order.FiledIn key side orderID

namespace Market

theorem lockedFunds_eq_book (m : Market) :
    m.lockedFunds = (m.book .sell).lockedFunds + (m.book .buy).lockedFunds := rfl

/-- `AddOrder` puts the order in the book of its side. -/
theorem book_addOrder (m : Market) (order : Order) (side : OrderSide) :
    (m.addOrder order).book side =
      if order.side = side then (m.book side).addOrder order else m.book side := by
  unfold addOrder
  cases h : order.side <;> cases side <;> simp [book]

/-- `DelOrder` takes the order's ID out of the book of its side. -/
theorem book_delOrder (m : Market) (order : Order) (side : OrderSide) :
    (m.delOrder order).book side =
      if order.side = side then (m.book side).delOrder order.orderID else m.book side := by
  unfold delOrder
  cases h : order.side <;> cases side <;> simp [book]

/-- The measure after a change to the book of one side only. -/
theorem lockedFunds_of_book_eq {m m' : Market} {side : OrderSide}
    (hother : ∀ side', side' ≠ side → m'.book side' = m.book side') :
    m'.lockedFunds = m.lockedFunds - (m.book side).lockedFunds + (m'.book side).lockedFunds := by
  rw [lockedFunds_eq_book, lockedFunds_eq_book]
  cases side
  · rw [hother .sell (by decide)]
    omega
  · rw [hother .buy (by decide)]
    omega

/-- **Writing an order back replaces its entry's locked fund.** -/
theorem lockedFunds_addOrder {m : Market} {order old : Order}
    (h : (m.book order.side).idToOrder.get order.orderID = some old) :
    (m.addOrder order).lockedFunds = m.lockedFunds - old.lockedFund + order.lockedFund := by
  have hother : ∀ side', side' ≠ order.side → (m.addOrder order).book side' = m.book side' :=
    fun side' hne => by rw [book_addOrder, if_neg (Ne.symm hne)]
  rw [lockedFunds_of_book_eq hother, book_addOrder, if_pos rfl]
  -- within the book, `Set` replaces the entry of the order's ID
  have hset := Store.total_set (fun _ o => o.lockedFund) (m.book order.side).idToOrder order.orderID order
  rw [Store.contrib_eq _ _ h] at hset
  unfold Orderbook.lockedFunds
  rw [Orderbook.idToOrder_addOrder, hset]
  omega

/-- Deleting an order takes a non-negative locked fund out. -/
theorem lockedFunds_delOrder_le {key : String} {m : Market} (hf : m.Filed key) (order : Order) :
    (m.delOrder order).lockedFunds ≤ m.lockedFunds := by
  have hother : ∀ side', side' ≠ order.side → (m.delOrder order).book side' = m.book side' :=
    fun side' hne => by rw [book_delOrder, if_neg (Ne.symm hne)]
  rw [lockedFunds_of_book_eq hother, book_delOrder, if_pos rfl]
  -- what the deleted entry contributed was a locked fund, so non-negative
  have hcontrib : 0 ≤ contrib (fun _ o => o.lockedFund) order.orderID (m.book order.side).idToOrder.entries := by
    cases hget : (m.book order.side).idToOrder.get order.orderID with
    | none => rw [Store.contrib_eq_zero _ _ hget]
    | some o =>
      rw [Store.contrib_eq _ _ hget]
      exact (hf.filedIn _ _ _ hget).lockedFund_nonneg
  unfold Orderbook.lockedFunds
  rw [Orderbook.idToOrder_delOrder, Store.total_delete]
  omega

/-- A new market has no order to misfile. -/
theorem filed_new (dexID : ℕ) (baseSymbol quoteSymbol key : String) :
    (Market.new dexID baseSymbol quoteSymbol).Filed key :=
  ⟨fun side orderID order h => by cases side <;> simp [Market.new, Market.book, Orderbook.empty] at h⟩

theorem Filed.lockedFunds_nonneg {key : String} {m : Market} (hf : m.Filed key) : 0 ≤ m.lockedFunds := by
  have hbook : ∀ side, 0 ≤ (m.book side).lockedFunds := fun side =>
    Store.total_nonneg fun k o hget => (hf.filedIn side k o hget).lockedFund_nonneg
  rw [lockedFunds_eq_book]
  have := hbook .sell
  have := hbook .buy
  omega

/-- **Writing back a filed order keeps the market filed.** -/
theorem Filed.addOrder {key : String} {m : Market} (hf : m.Filed key) {order : Order}
    (ho : order.FiledIn key order.side order.orderID) : (m.addOrder order).Filed key := by
  refine ⟨fun side orderID o hget => ?_⟩
  rw [book_addOrder] at hget
  split_ifs at hget with hside
  · rw [Orderbook.idToOrder_addOrder, Store.get_set] at hget
    split_ifs at hget with hid
    · -- the entry written back
      cases hget
      subst hside hid
      exact ho
    · exact hf.filedIn side orderID o hget
  · exact hf.filedIn side orderID o hget

theorem Filed.delOrder {key : String} {m : Market} (hf : m.Filed key) (order : Order) :
    (m.delOrder order).Filed key := by
  refine ⟨fun side orderID o hget => ?_⟩
  rw [book_delOrder] at hget
  split_ifs at hget with hside
  · rw [Orderbook.idToOrder_delOrder, Store.get_delete] at hget
    split_ifs at hget with hid
    exact hf.filedIn side orderID o hget
  · exact hf.filedIn side orderID o hget

end Market

/-! ## What `limitSwap` spends -/

section limitSwap

variable (env : Env)

/-- The price never allows a negative amount. -/
theorem calLimitSwapAmount_nonneg {order : Order} {pair : TradingPair} {maxAmountIn : ℤ}
    {priceSuitable : Bool} (h : calLimitSwapAmount order pair = .ok (maxAmountIn, priceSuitable)) :
    0 ≤ maxAmountIn := by
  unfold calLimitSwapAmount at h
  split_ifs at h
  · -- a pair without liquidity allows nothing
    simp only [pure_eq_ok, Prod.mk.injEq] at h
    omega
  · obtain ⟨⟨amount, suitable⟩, -, h⟩ := bind_eq_ok.mp h
    simp only [pure_eq_ok] at h
    split_ifs at h <;> simp only [Prod.mk.injEq] at h <;> omega

/-- The order `settleFill` returns: the amount comes out of the locked
fund, and the order is filled once nothing is left. -/
theorem settleFill_order (s : State) (blockTime : ℤ) (order : Order) (tokenIn tokenOut : Symbol)
    (realMaxAmountIn : ℤ) (r : SwapResult) :
    (settleFill s blockTime order tokenIn tokenOut realMaxAmountIn r).1 =
      if order.lockedFund - realMaxAmountIn = 0 then
        { order with lockedFund := order.lockedFund - realMaxAmountIn, status := .filled, finishedTime := blockTime }
      else { order with lockedFund := order.lockedFund - realMaxAmountIn, status := .partiallyFilled } := rfl

/-- The order a fill returns is settled by the amount it swapped, which is
the input of its event. -/
theorem fillOrder_order (s : State) (blockTime : ℤ) (order : Order) (pair : TradingPair)
    (priceSuitable : Bool) (realMaxAmountIn : ℤ) :
    (fillOrder env s blockTime order pair priceSuitable realMaxAmountIn).1.order =
      if order.lockedFund - realMaxAmountIn = 0 then
        { order with lockedFund := order.lockedFund - realMaxAmountIn, status := .filled, finishedTime := blockTime }
      else { order with lockedFund := order.lockedFund - realMaxAmountIn, status := .partiallyFilled } := by
  unfold fillOrder
  generalize (if order.side = .buy then (pair.tokenB, pair.tokenA) else (pair.tokenA, pair.tokenB)) = tokens
  obtain ⟨tokenIn, tokenOut⟩ := tokens
  -- the settled order does not depend on what the swap returned
  generalize swap env s order.feeRate pair tokenIn realMaxAmountIn false = r
  obtain ⟨result, s₁⟩ := r
  exact settleFill_order s₁ blockTime order tokenIn tokenOut realMaxAmountIn result

/-- **The amount a fill takes**: what the pair's price allows, over the
fee coefficient, capped by the locked fund. For a price that allows a
non-negative amount and a coefficient that is not negative, which the
division, having gone through, shows to be positive, the amount lies
between nothing and the locked fund. -/
theorem fillAmount_bounds {order : Order} {maxAmountIn : ℤ} {q : Dec} (hmax : 0 ≤ maxAmountIn)
    (hlock : 0 ≤ order.lockedFund) (hcoeff : 0 ≤ (Dec.one.sub order.feeRate.totalFeeRate).val)
    (hq : (Dec.ofInt maxAmountIn).quo (Dec.one.sub order.feeRate.totalFeeRate) = .ok q) :
    0 ≤ (if order.lockedFund < q.truncateInt then order.lockedFund else q.truncateInt) ∧
      (if order.lockedFund < q.truncateInt then order.lockedFund else q.truncateInt) ≤ order.lockedFund := by
  have h0 : 0 ≤ q.truncateInt :=
    Dec.truncateInt_nonneg (Dec.quo_nonneg (Int.mul_nonneg hmax precisionInt_pos.le) hcoeff hq)
  split_ifs <;> omega

/-- **`limitSwap` spends between nothing and the locked fund**, for an
order with a non-negative locked fund and a fee coefficient that is not
negative, and reports what it spent as the input of its event. The order
keeps its ID, side, pair and fee rates. -/
theorem limitSwap_spends {s : State} {blockTime : ℤ} {order : Order} {pair : TradingPair}
    {res : LimitSwapResult × State} (hlock : 0 ≤ order.lockedFund)
    (hcoeff : 0 ≤ (Dec.one.sub order.feeRate.totalFeeRate).val)
    (h : limitSwap env s blockTime order pair = .ok res) :
    ∃ spent status finishedTime,
      res.1.order =
        { order with lockedFund := order.lockedFund - spent, status := status, finishedTime := finishedTime } ∧
      0 ≤ spent ∧ spent ≤ order.lockedFund ∧ res.1.eventAmountIn.getD 0 = spent := by
  obtain ⟨maxAmountIn, priceSuitable, hcal, ⟨-, rfl⟩ | ⟨-, q, hq, rfl⟩⟩ := limitSwap_eq_ok env h
  · -- the price allowed nothing: the order is as it was
    exact ⟨0, order.status, order.finishedTime, by simp, le_rfl, hlock, rfl⟩
  · obtain ⟨h0, hle⟩ := fillAmount_bounds (calLimitSwapAmount_nonneg hcal) hlock hcoeff hq
    rw [fillOrder_order]
    generalize (if order.lockedFund < _ then order.lockedFund else _ : ℤ) = spent at h0 hle ⊢
    by_cases hzero : order.lockedFund - spent = 0
    · exact ⟨spent, .filled, blockTime, by rw [if_pos hzero], h0, hle, rfl⟩
    · exact ⟨spent, .partiallyFilled, order.finishedTime, by rw [if_neg hzero], h0, hle, rfl⟩

@[simp] theorem manager_addRepurchaseFunds (s : State) (coins : Coins) :
    (s.addRepurchaseFunds coins).manager = s.manager := by
  rw [State.addRepurchaseFunds_eq]

@[simp] theorem manager_settleFill (s : State) (blockTime : ℤ) (order : Order) (tokenIn tokenOut : Symbol)
    (realMaxAmountIn : ℤ) (r : SwapResult) :
    (settleFill s blockTime order tokenIn tokenOut realMaxAmountIn r).2.manager = s.manager := by
  unfold settleFill
  dsimp only
  split <;> simp

@[simp] theorem manager_fillOrder (s : State) (blockTime : ℤ) (order : Order) (pair : TradingPair)
    (priceSuitable : Bool) (realMaxAmountIn : ℤ) :
    (fillOrder env s blockTime order pair priceSuitable realMaxAmountIn).2.manager = s.manager := by
  unfold fillOrder
  split_ifs <;> simp [swap, State.saveTradingPair]

/-- `limitSwap` leaves the book alone; the loop writes the order back. -/
theorem manager_limitSwap {s : State} {blockTime : ℤ} {order : Order} {pair : TradingPair}
    {res : LimitSwapResult × State} (h : limitSwap env s blockTime order pair = .ok res) :
    res.2.manager = s.manager := by
  obtain ⟨-, -, -, ⟨-, rfl⟩ | ⟨-, -, -, rfl⟩⟩ := limitSwap_eq_ok env h
  · rfl
  · exact manager_fillOrder env _ _ _ _ _ _

end limitSwap

/-! ## Writing to the market of a key -/

namespace Manager

theorem get_addOrder_of_key {mgr : Manager} {order : Order} {key : String} {m : Market}
    (hkey : formatKey order.dexID order.baseSymbol order.quoteSymbol = key)
    (hm : mgr.markets.get key = some m) :
    (mgr.addOrder order).markets.get key = some (m.addOrder order) := by
  subst hkey
  simp [addOrder, marketOf, hm]

/-- **Deleting any order keeps the market under `key` filed**, and its
locked funds do not grow: the order is deleted from that market or from
another one. -/
theorem delOrder_filed {mgr : Manager} {key : String} {m : Market}
    (hm : mgr.markets.get key = some m) (hf : m.Filed key) (order : Order) :
    ∃ m', (mgr.delOrder order).markets.get key = some m' ∧ m'.Filed key ∧
      m'.lockedFunds ≤ m.lockedFunds := by
  by_cases hkey : formatKey order.dexID order.baseSymbol order.quoteSymbol = key
  · subst hkey
    exact ⟨m.delOrder order, by simp [delOrder, marketOf, hm], hf.delOrder order,
      Market.lockedFunds_delOrder_le hf order⟩
  · exact ⟨m, by simp [delOrder, Ne.symm hkey, hm], hf, le_rfl⟩

end Manager

/-- **The end of a round keeps the market filed** and its locked funds do
not grow, whatever orders it removes. -/
theorem removeFinishedOrders_filed {key : String} :
    ∀ (finishedOrders : List Order) {s : State} {m : Market}, s.manager.markets.get key = some m →
      m.Filed key → ∃ m', (removeFinishedOrders s finishedOrders).manager.markets.get key = some m' ∧
        m'.Filed key ∧ m'.lockedFunds ≤ m.lockedFunds
  | [], _, m, hm, hf => ⟨m, hm, hf, le_rfl⟩
  | order :: orders, s, _, hm, hf => by
    obtain ⟨m₁, hm₁, hf₁, hle₁⟩ := Manager.delOrder_filed hm hf order
    obtain ⟨m', hm', hf', hle'⟩ :=
      removeFinishedOrders_filed orders (s := { s.delUnfinishedOrder order with
        manager := s.manager.delOrder order }) hm₁ hf₁
    exact ⟨m', hm', hf', hle'.trans hle₁⟩

/-! ## A pass -/

/-- **The orders a pass has still to offer**: entries of the book `side`
of the market, under distinct IDs. -/
def Market.Offers (m : Market) (side : OrderSide) (orders : List Order) : Prop :=
  (orders.map Order.orderID).Nodup ∧ ∀ order ∈ orders, (m.book side).idToOrder.get order.orderID = some order

namespace Market

variable {key : String} {m : Market}

/-- An order of a filed book is the entry of its own ID. -/
theorem Filed.get_of_mem_orders (hf : m.Filed key) {side : OrderSide} {order : Order}
    (h : order ∈ (m.book side).orders) : (m.book side).idToOrder.get order.orderID = some order := by
  obtain ⟨e, he, rfl⟩ := List.mem_map.mp h
  have hget := Store.mem_iff_get.mp he
  rw [(hf.filedIn side e.1 e.2 hget).orderID_eq]
  exact hget

theorem Filed.nodup_orders (hf : m.Filed key) (side : OrderSide) :
    ((m.book side).orders.map Order.orderID).Nodup := by
  -- an entry's order has the entry's key as its ID, and the keys are distinct
  have hkeys : ∀ e ∈ (m.book side).idToOrder.entries, (Order.orderID ∘ Prod.snd) e = e.1 := fun e he =>
    (hf.filedIn side e.1 e.2 (Store.mem_iff_get.mp he)).orderID_eq
  unfold Orderbook.orders
  rw [List.map_map, List.map_congr_left hkeys]
  exact List.Pairwise.map Prod.fst (fun _ _ h => h) ((m.book side).idToOrder.sorted.imp ne_of_lt)

/-- **A sell pass offers the whole sell book**, cheapest first. -/
theorem Filed.offers_byPrice (hf : m.Filed key) (side : OrderSide) :
    m.Offers side (m.book side).byPrice := by
  have hperm := List.perm_insertionSort (fun o o₂ => o.lessThan o₂ = true) (m.book side).orders
  refine ⟨(hperm.map Order.orderID).nodup_iff.mpr (hf.nodup_orders side), fun order h => ?_⟩
  exact hf.get_of_mem_orders (hperm.mem_iff.mp h)

/-- **A buy pass offers the whole buy book**, dearest first. -/
theorem Filed.offers_byPriceReverse (hf : m.Filed key) (side : OrderSide) :
    m.Offers side (m.book side).byPriceReverse := by
  obtain ⟨hnodup, hget⟩ := hf.offers_byPrice side
  refine ⟨?_, fun order h => hget order (List.mem_reverse.mp h)⟩
  rw [Orderbook.byPriceReverse, List.map_reverse, List.nodup_reverse]
  exact hnodup

/-- **Writing back the order a pass offered first** leaves the rest on
offer: they have other IDs. -/
theorem Offers.addOrder {side : OrderSide} {order : Order} {orders : List Order}
    (h : m.Offers side (order :: orders)) {order' : Order} (hid : order'.orderID = order.orderID)
    (hside : order'.side = side) : (m.addOrder order').Offers side orders := by
  obtain ⟨hnodup, hget⟩ := h
  rw [List.map_cons, List.nodup_cons] at hnodup
  refine ⟨hnodup.2, fun o ho => ?_⟩
  have hne : o.orderID ≠ order'.orderID := by
    rw [hid]
    exact fun heq => hnodup.1 (heq ▸ List.mem_map_of_mem ho)
  rw [book_addOrder, if_pos hside, Orderbook.idToOrder_addOrder, Store.get_set, if_neg hne]
  exact hget o (List.mem_cons_of_mem _ ho)

end Market

section pass

variable (env : Env) (blockTime : ℤ) {key : String} {side : OrderSide}

/-- **One order of a pass**: `limitSwap` on an order on offer, written
back into the book, leaves the market filed with its locked funds lowered
by what the order spent, and the rest of the pass on offer. -/
theorem limitSwap_writeBack {s : State} {m : Market} {order : Order} {orders : List Order}
    {pair : TradingPair} {res : LimitSwapResult × State} (hm : s.manager.markets.get key = some m)
    (hf : m.Filed key) (hoffers : m.Offers side (order :: orders))
    (h : limitSwap env s blockTime order pair = .ok res) :
    ∃ spent, (res.2.manager.addOrder res.1.order).markets.get key = some (m.addOrder res.1.order) ∧
      (m.addOrder res.1.order).Filed key ∧ (m.addOrder res.1.order).Offers side orders ∧
      (m.addOrder res.1.order).lockedFunds = m.lockedFunds - spent ∧ 0 ≤ spent ∧
      res.1.eventAmountIn.getD 0 = spent := by
  have hget := hoffers.2 order List.mem_cons_self
  have ho := hf.filedIn side order.orderID order hget
  obtain ⟨spent, status, finishedTime, hord, h0, hle, hev⟩ :=
    limitSwap_spends env ho.lockedFund_nonneg ho.coeff_pos.le h
  -- the order written back is the one on offer, with less locked
  have ho' : res.1.order.FiledIn key side res.1.order.orderID := by
    rw [hord]
    exact ⟨rfl, ho.side_eq, ho.key_eq, by dsimp only; omega, ho.coeff_pos⟩
  have hid : res.1.order.orderID = order.orderID := by rw [hord]
  refine ⟨spent, ?_, hf.addOrder (ho'.side_eq ▸ ho'), hoffers.addOrder hid ho'.side_eq, ?_, h0, hev⟩
  · rw [manager_limitSwap env h]
    exact Manager.get_addOrder_of_key ho'.key_eq hm
  · have hentry : (m.book res.1.order.side).idToOrder.get res.1.order.orderID = some order := by
      rw [ho'.side_eq, hid]
      exact hget
    rw [Market.lockedFunds_addOrder hentry, hord]
    dsimp only
    omega

/-- **A pass keeps the market filed and does not raise its locked funds;
a pass that swapped lowers them.** By induction on the orders on offer. -/
theorem matchPass_lockedFunds :
    ∀ (orders : List Order) (pair : TradingPair) (s : State) (m : Market)
      {res : TradingPair × State × Bool × List Order},
      s.manager.markets.get key = some m → m.Filed key → m.Offers side orders →
      matchPass env blockTime pair s orders = .ok res →
      ∃ m', res.2.1.manager.markets.get key = some m' ∧
        m'.Filed key ∧ m'.lockedFunds ≤ m.lockedFunds ∧
        (res.2.2.1 = true → m'.lockedFunds < m.lockedFunds)
  | [], _, _, m, _, hm, hf, _, h => by
    rw [matchPass, pure_eq_ok] at h
    subst h
    exact ⟨m, hm, hf, le_rfl, fun h => absurd h (by simp)⟩
  | order :: orders, pair, s, m, _, hm, hf, hoffers, h => by
    rw [matchPass] at h
    obtain ⟨⟨result, s₁⟩, hswap, h⟩ := bind_eq_ok.mp h
    obtain ⟨spent, hm₁, hf₁, hoffers₁, hlocked, h0, hev⟩ := limitSwap_writeBack env blockTime hm hf hoffers hswap
    dsimp only at h hm₁ hf₁ hoffers₁ hlocked hev
    by_cases hsuit : (!result.priceSuitable) = true
    · -- the price no longer suits: the pass stops here
      rw [if_pos hsuit, pure_eq_ok] at h
      subst h
      exact ⟨_, hm₁, hf₁, by omega, fun h => absurd h (by simp)⟩
    rw [if_neg hsuit] at h
    by_cases hzero : result.eventAmountIn.getD 0 = 0
    · -- nothing swapped: the pass goes on
      rw [if_pos hzero] at h
      obtain ⟨m', hm', hf', hle', hlt'⟩ := matchPass_lockedFunds orders result.pair _ _ hm₁ hf₁ hoffers₁ h
      exact ⟨m', hm', hf', by omega, fun h => by have := hlt' h; omega⟩
    · -- the order swapped a positive amount out of its locked fund
      rw [if_neg hzero] at h
      obtain ⟨⟨pair₂, s₂, matched, finishedOrders⟩, hrest, h⟩ := bind_eq_ok.mp h
      rw [pure_eq_ok] at h
      subst h
      obtain ⟨m', hm', hf', hle', -⟩ := matchPass_lockedFunds orders result.pair _ _ hm₁ hf₁ hoffers₁ hrest
      exact ⟨m', hm', hf', by omega, fun _ => by omega⟩

end pass

/-! ## A round, and the loop -/

section loop

variable (env : Env) (blockTime : ℤ)

theorem Manager.currentMarket_of_get {mgr : Manager} {m mk : Market}
    (hm : mgr.markets.get (formatKey m.dexID m.baseSymbol m.quoteSymbol) = some mk) :
    mgr.currentMarket m = mk := by
  simp [Manager.currentMarket, hm]

/-- **A round keeps the market filed**, and leaves it, once the filled
orders are gone, with no more locked than before, and less when the round
swapped: the sell pass and the buy pass each lower the measure or keep it,
and the one that swapped lowers it. -/
theorem matchRound_lockedFunds {m mk : Market} {s : State} {pair : TradingPair}
    {res : TradingPair × State × Bool × List Order}
    (hm : s.manager.markets.get (formatKey m.dexID m.baseSymbol m.quoteSymbol) = some mk)
    (hf : mk.Filed (formatKey m.dexID m.baseSymbol m.quoteSymbol))
    (h : matchRound env blockTime m pair s = .ok res) :
    ∃ mk', (removeFinishedOrders res.2.1 res.2.2.2).manager.markets.get
          (formatKey m.dexID m.baseSymbol m.quoteSymbol) = some mk' ∧
      mk'.Filed (formatKey m.dexID m.baseSymbol m.quoteSymbol) ∧ mk'.lockedFunds ≤ mk.lockedFunds ∧
      (res.2.2.1 = true → mk'.lockedFunds < mk.lockedFunds) := by
  -- the sell pass offers the sell book as the round finds it
  have hoffers : mk.Offers .sell (s.manager.currentMarket m).sellOrders.byPrice := by
    rw [Manager.currentMarket_of_get hm]
    exact hf.offers_byPrice .sell
  unfold matchRound at h
  obtain ⟨⟨pair₁, s₁, sellOrderMatched, sellFinished⟩, h₁, h⟩ := bind_eq_ok.mp h
  obtain ⟨m₁, hm₁, hf₁, hle₁, hlt₁⟩ := matchPass_lockedFunds env blockTime _ pair s mk hm hf hoffers h₁
  -- the buy pass offers the buy book as the sell pass left it
  have hoffers₁ : m₁.Offers .buy (s₁.manager.currentMarket m).buyOrders.byPriceReverse := by
    rw [Manager.currentMarket_of_get hm₁]
    exact hf₁.offers_byPriceReverse .buy
  obtain ⟨⟨pair₂, s₂, buyOrderMatched, buyFinished⟩, h₂, h⟩ := bind_eq_ok.mp h
  obtain ⟨m₂, hm₂, hf₂, hle₂, hlt₂⟩ := matchPass_lockedFunds env blockTime _ pair₁ s₁ m₁ hm₁ hf₁ hoffers₁ h₂
  rw [pure_eq_ok] at h
  subst h
  obtain ⟨mk', hmk', hfk', hlek'⟩ := removeFinishedOrders_filed (sellFinished ++ buyFinished) hm₂ hf₂
  refine ⟨mk', hmk', hfk', by omega, fun hmatched => ?_⟩
  rcases Bool.or_eq_true_iff.mp hmatched with hsell | hbuy
  · have := hlt₁ hsell
    omega
  · have := hlt₂ hbuy
    omega

/-- **Fuel beyond the locked funds does not matter**: two runs of the loop
whose fuels both exceed the measure give the same result. By induction on
the fuel: a round that swaps lowers the measure below the fuel left, and a
round that swaps nothing, or panics, ends both runs. -/
theorem matchMarket_fuel_eq {m : Market} :
    ∀ (fuel fuel' : ℕ) (pair : TradingPair) (s : State) (mk : Market),
      s.manager.markets.get (formatKey m.dexID m.baseSymbol m.quoteSymbol) = some mk →
      mk.Filed (formatKey m.dexID m.baseSymbol m.quoteSymbol) →
      mk.lockedFunds < fuel → mk.lockedFunds < fuel' →
      matchMarket env blockTime m fuel pair s = matchMarket env blockTime m fuel' pair s
  | 0, _, _, _, _, _, hf, hfuel, _ => absurd hfuel (by have := hf.lockedFunds_nonneg; omega)
  | _ + 1, 0, _, _, _, _, hf, _, hfuel' => absurd hfuel' (by have := hf.lockedFunds_nonneg; omega)
  | fuel + 1, fuel' + 1, pair, s, mk, hm, hf, hfuel, hfuel' => by
    rw [matchMarket, matchMarket]
    cases hr : matchRound env blockTime m pair s with
    | error e => rfl
    | ok r =>
      obtain ⟨mk', hm', hf', -, hlt⟩ := matchRound_lockedFunds env blockTime hm hf hr
      obtain ⟨pair₁, s₁, matched, finishedOrders⟩ := r
      cases matched with
      | false => rfl
      | true =>
        have hdec := hlt rfl
        exact matchMarket_fuel_eq fuel fuel' pair₁ _ mk' hm' hf' (by omega) (by omega)

/-- Over entries with non-negative locked funds, the sum of their `toNat`s
is their total. -/
theorem sum_toNat_eq_total :
    ∀ l : List (String × Order), (∀ e ∈ l, 0 ≤ e.2.lockedFund) →
      ((((l.map Prod.snd).map fun o => o.lockedFund.toNat).sum : ℕ) : ℤ) =
        KVStore.total (fun _ o => o.lockedFund) l
  | [], _ => rfl
  | e :: l, h => by
    have ih := sum_toNat_eq_total l fun e' he' => h e' (List.mem_cons_of_mem e he')
    have he := h e List.mem_cons_self
    unfold KVStore.total at ih ⊢
    simp only [List.map_cons, List.sum_cons, Nat.cast_add, Int.toNat_of_nonneg he, ih]

/-- The fuel of the loop is one more than the measure. -/
theorem matchingFuel_eq {key : String} {mk : Market} (hf : mk.Filed key) :
    (matchingFuel mk : ℤ) = mk.lockedFunds + 1 := by
  have hbook : ∀ side, ((((mk.book side).orders.map fun o => o.lockedFund.toNat).sum : ℕ) : ℤ) =
      (mk.book side).lockedFunds := fun side =>
    sum_toNat_eq_total _ fun e he => (hf.filedIn side e.1 e.2 (Store.mem_iff_get.mp he)).lockedFund_nonneg
  have hsell := hbook .sell
  have hbuy := hbook .buy
  simp only [Market.book] at hsell hbuy
  unfold matchingFuel Market.lockedFunds
  rw [List.map_append, List.sum_append, Nat.cast_add, Nat.cast_add, Nat.cast_one]
  omega

/-- **The matching loop of a market ends.** When every order in the books
of the market has a non-negative locked fund and fee rates that add up to
less than `1`, and is filed under its own ID, side, dex and pair, then any
fuel from `matchingFuel` on gives the same result, so the loop has stopped
within it; and a round that swaps leaves the market so filed again, with
strictly less locked. -/
theorem matchMarket_terminates {m mk : Market} {s : State} (pair : TradingPair)
    (hm : s.manager.markets.get (formatKey m.dexID m.baseSymbol m.quoteSymbol) = some mk)
    (hf : mk.Filed (formatKey m.dexID m.baseSymbol m.quoteSymbol)) :
    (∀ fuel, matchingFuel (s.manager.currentMarket m) ≤ fuel →
        matchMarket env blockTime m fuel pair s =
          matchMarket env blockTime m (matchingFuel (s.manager.currentMarket m)) pair s) ∧
      (∀ res, matchRound env blockTime m pair s = .ok res → res.2.2.1 = true →
        ∃ mk', (removeFinishedOrders res.2.1 res.2.2.2).manager.markets.get
              (formatKey m.dexID m.baseSymbol m.quoteSymbol) = some mk' ∧
          mk'.Filed (formatKey m.dexID m.baseSymbol m.quoteSymbol) ∧ mk'.lockedFunds < mk.lockedFunds) := by
  have hfuel := matchingFuel_eq hf
  rw [Manager.currentMarket_of_get hm]
  refine ⟨fun fuel hle => matchMarket_fuel_eq env blockTime fuel _ pair s mk hm hf (by omega) (by omega),
    fun res hr hmatched => ?_⟩
  obtain ⟨mk', hm', hf', -, hlt⟩ := matchRound_lockedFunds env blockTime hm hf hr
  exact ⟨mk', hm', hf', hlt hmatched⟩

end loop

/-! ## A market whose loop ends, and a round that raises a locked fund -/

/-- `alice` sells `10` `btc` at price `1/2`, with fee rates adding up to `2`. -/
def overFeeOrder : Order where
  orderID := "o1"
  dexID := 0
  fromAddr := "alice"
  referer := "alice"
  receiver := "alice"
  createdTime := 1
  expiredTime := -1
  finishedTime := 0
  status := .new
  side := .sell
  baseSymbol := "btc"
  quoteSymbol := "usdt"
  price := ⟨5 * 10 ^ 17⟩
  amountIn := 10
  lockedFund := 10
  feeRate := ⟨Dec.ofInt 2, Dec.zero, Dec.zero⟩

/-- The `btc`-`usdt` pair of dex `0` at price `1`. -/
def overFeePair : TradingPair := ⟨0, "btc", "usdt", 2000, 2000, 2000, true, Dec.zero, Dec.zero⟩

/-- The book holds `alice`'s order and nothing else. -/
def overFeeState : State :=
  { State.init expiryGenesis with manager := Manager.empty.addOrder overFeeOrder }

/-- The same order, with no fees. -/
def feelessOrder : Order := { overFeeOrder with feeRate := ⟨Dec.zero, Dec.zero, Dec.zero⟩ }

/-- The book holds the fee-free order and nothing else. -/
def feelessState : State :=
  { State.init expiryGenesis with manager := Manager.empty.addOrder feelessOrder }

/- The loop on the fee-free market has ended within its fuel: a thousand
rounds give what `matchingFuel` rounds give. -/
example :
    matchMarket expiryEnv 1 (Market.new 0 "btc" "usdt") 1000 overFeePair feelessState =
      matchMarket expiryEnv 1 (Market.new 0 "btc" "usdt")
        (matchingFuel (feelessState.manager.currentMarket (Market.new 0 "btc" "usdt"))) overFeePair
        feelessState := by
  have hm : feelessState.manager.markets.get
      (formatKey (Market.new 0 "btc" "usdt").dexID (Market.new 0 "btc" "usdt").baseSymbol
        (Market.new 0 "btc" "usdt").quoteSymbol) =
      some ((Market.new 0 "btc" "usdt").addOrder feelessOrder) := rfl
  have ho : feelessOrder.FiledIn (formatKey 0 "btc" "usdt") feelessOrder.side feelessOrder.orderID :=
    ⟨rfl, rfl, rfl, by decide, by decide⟩
  have hf := (Market.filed_new 0 "btc" "usdt" (formatKey 0 "btc" "usdt")).addOrder ho
  exact (matchMarket_terminates expiryEnv 1 overFeePair hm hf).1 1000 (by decide)

/- **Without a positive coefficient a round that swaps raises a locked
fund.** The pair's price allows `2000` `btc` in; divided by the coefficient
`1 - 2 = -1` that is `-2000`, below the locked fund, so the order "spends"
`-2000`: the round counts as a match and leaves `2010` `btc` locked. No
state the chain reaches holds such an order (`LimitSwap` refuses it). -/
example :
    (matchRound expiryEnv 1 (Market.new 0 "btc" "usdt") overFeePair overFeeState).map
        (fun r => (r.2.2.1, (r.2.1.manager.find "o1").map Order.lockedFund)) = .ok (true, some 2010) := by
  decide +kernel

/- With fee rates that add up to `1` the coefficient is `0`, and the round
panics in `Quo`. -/
example :
    (matchRound expiryEnv 1 (Market.new 0 "btc" "usdt") overFeePair
        { State.init expiryGenesis with
          manager := Manager.empty.addOrder { overFeeOrder with feeRate := ⟨Dec.one, Dec.zero, Dec.zero⟩ } }).map
      (fun _ => ()) = .error (.panic "division by zero") := by
  decide +kernel

end Openswap
