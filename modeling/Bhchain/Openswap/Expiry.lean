import Bhchain.Openswap.Handler

/-!
# Expiry and cancellation against the book

The book and the store are kept in step by two lists of IDs that the
transactions fill and the end-blocker drains. Expiry is the one path that
goes around them: `clearExpiredOrders` finishes the book's own copy of an
order, writes that copy to the store, drops the order from the index of
unfinished orders, and leaves it in the book. Cancellation goes the other
way round: it finishes a fresh copy read from the store and leaves the
book's copy untouched until the end of the block.

The first part proves both facts for every state: after
`clearExpiredOrders` every expired order is still in the book though no
longer indexed as unfinished (`clearExpiredOrders_expired_in_book`), and a
cancellation never writes the book (`cancelOrders_manager`). The second
part runs a chain through them: an order cancelled in the block where it
expires is expired again from its stale copy, whose locked fund is
unlocked a second time, out of another order's lock; and an expired order
stays in the book, where each later end-blocker expires it once more and a
restarted node does not.
-/

namespace Openswap

open Sdk Transfer KVStore Transition

/-! ## What finishing an order touches -/

section finish

variable (s : State) (blockTime : ℤ) (order : Order) (status : OrderStatus)

@[simp] theorem manager_finishOrderWithStatus :
    (finishOrderWithStatus s blockTime order status).2.manager = s.manager := by
  unfold finishOrderWithStatus
  dsimp only
  split <;> rfl

@[simp] theorem unfinished_finishOrderWithStatus :
    (finishOrderWithStatus s blockTime order status).2.unfinished =
      s.unfinished.delete order.orderID := by
  unfold finishOrderWithStatus
  dsimp only
  split <;> rfl

@[simp] theorem orderID_finishOrderWithStatus :
    (finishOrderWithStatus s blockTime order status).1.orderID = order.orderID := by
  unfold finishOrderWithStatus
  dsimp only
  split <;> rfl

@[simp] theorem manager_expireOrder :
    (expireOrder blockTime s order).manager =
      s.manager.addOrder (finishOrderWithStatus s blockTime order .expired).1 := rfl

@[simp] theorem unfinished_expireOrder :
    (expireOrder blockTime s order).unfinished = s.unfinished.delete order.orderID := by
  simp [expireOrder]

end finish

/-! ## Cancellation leaves the book as it was -/

theorem cancelOrder_manager {s s' : State} {blockTime : ℤ} {fromAddr : CUAddress}
    {orderID : String} (h : cancelOrder s blockTime fromAddr orderID = .ok s') :
    s'.manager = s.manager := by
  unfold cancelOrder at h
  simp only [bind_eq_ok, orFail_eq_ok, failIf_eq_ok, pure_eq_ok] at h
  obtain ⟨order, -, -, -, -, -, rfl⟩ := h
  exact manager_finishOrderWithStatus ..

theorem cancelOrderList_manager {blockTime : ℤ} {fromAddr : CUAddress} :
    ∀ {s s' : State} (orderIDs : List String),
      cancelOrderList blockTime fromAddr s orderIDs = .ok s' → s'.manager = s.manager
  | _, _, [], h => by cases h; rfl
  | _, _, orderID :: orderIDs, h => by
    simp only [cancelOrderList, bind_eq_ok] at h
    obtain ⟨s₁, h₁, h₂⟩ := h
    rw [cancelOrderList_manager orderIDs h₂, cancelOrder_manager h₁]

/-- **A cancellation never writes the book.** `CancelOrders` finishes the
copies it reads from the store; the book keeps its own, with the status
and the locked fund they had, until `removeOrderFromMatching`. -/
theorem cancelOrders_manager {s s' : State} {blockTime : ℤ} {fromAddr : CUAddress}
    {orderIDs : List String} (h : cancelOrders s blockTime fromAddr orderIDs = .ok s') :
    s'.manager = s.manager := by
  simp only [cancelOrders, bind_eq_ok, pure_eq_ok] at h
  obtain ⟨s₁, h₁, rfl⟩ := h
  rw [← cancelOrderList_manager orderIDs h₁]
  rfl

/-! ## Expiry leaves the order in the book -/

section expiry

variable {blockTime : ℤ}

theorem holds_foldl_expireOrder {orderID : String} :
    ∀ (orders : List Order) {s : State}, s.manager.Holds orderID →
      (orders.foldl (expireOrder blockTime) s).manager.Holds orderID
  | [], _, h => h
  | order :: orders, _, h => holds_foldl_expireOrder orders (by simpa using h.addOrder _)

theorem unfinished_foldl_expireOrder {orderID : String} :
    ∀ (orders : List Order) {s : State}, s.unfinished.get orderID = none →
      (orders.foldl (expireOrder blockTime) s).unfinished.get orderID = none
  | [], _, h => h
  | order :: orders, _, h => unfinished_foldl_expireOrder orders (by simp [h])

/-- Each order the loop expires ends in the book and out of the index. -/
theorem foldl_expireOrder_in_book :
    ∀ (orders : List Order) (s : State), ∀ order ∈ orders,
      (orders.foldl (expireOrder blockTime) s).manager.Holds order.orderID ∧
        (orders.foldl (expireOrder blockTime) s).unfinished.get order.orderID = none
  | [], _, _, h => by cases h
  | order :: orders, s, order', h => by
    rcases List.mem_cons.mp h with rfl | h
    · -- the order expired first: put in the book, and kept there by the rest
      have hbook : (expireOrder blockTime s order').manager.Holds order'.orderID := by
        simpa using s.manager.holds_addOrder_self (finishOrderWithStatus s blockTime order' .expired).1
      have hindex : (expireOrder blockTime s order').unfinished.get order'.orderID = none := by
        simp
      exact ⟨holds_foldl_expireOrder orders hbook, unfinished_foldl_expireOrder orders hindex⟩
    · exact foldl_expireOrder_in_book orders _ order' h

/-- **Expiry removes nothing from the book.** -/
theorem clearExpiredOrders_keeps_book {s : State} {orderID : String}
    (h : s.manager.Holds orderID) : (clearExpiredOrders blockTime s).manager.Holds orderID :=
  holds_foldl_expireOrder _ h

/-- **An expired order stays in the book, out of the unfinished index.**
Every order `clearExpiredOrders` expires is, afterwards, still held by the
book, while the store no longer lists it as unfinished: the book the
matching then runs over is not the one `Manager.Init` would load. -/
theorem clearExpiredOrders_expired_in_book (s : State) :
    ∀ order ∈ s.manager.getExpiredOrders blockTime,
      (clearExpiredOrders blockTime s).manager.Holds order.orderID ∧
        (clearExpiredOrders blockTime s).unfinished.get order.orderID = none :=
  foldl_expireOrder_in_book _ s

end expiry

/-! ## A chain through both

`bob` opens the `btc`-`usdt` pair of dex `0` at price `1`. In the same
block `alice` places two sell orders of `10` `btc` at price `2`, the first
expiring at time `100`, the second never, and `carol` one like `alice`'s
first; none matches. In the block at time `100` `alice` cancels her first
order. -/

/-- No fees; `btc` and `usdt` of equal weight, so `btc` is the base token.
An address is the bytes of its name, padded with zeros to `sdk.AddrLen`;
an order ID must be a UUID, as `IsIllegalOrderID` checks it. -/
def expiryEnv : Env where
  minimumLiquidity := 1000
  maxFeeRate := Dec.one
  lpRewardRate := Dec.zero
  repurchaseRate := Dec.zero
  refererTransactionBonusRate := Dec.zero
  repurchaseDuration := 1000
  repurchaseToken := ""
  getToken := fun symbol => if symbol = "btc" ∨ symbol = "usdt" then some ⟨1, true⟩ else none
  isValidAddr := fun addr => addr ≠ ""
  addrBytes := fun addr => (OrderKeeper.bytesOf addr ++ List.replicate addrLen 0).take addrLen
  isIllegalOrderID := Sdk.isIllegalOrderID
  isValidSymbol := fun _ => true
  moduleCUAddress := "openswap"

/-- `bob` has `2000` of each token, everyone else `20` `btc`. -/
def expiryGenesis : Balances :=
  ⟨fun e => if e.1 = "bob" then 2000 else if e.2 = "btc" then 20 else 0, fun _ => 0⟩

/-- A sell order of `10` `btc` at price `2`; an expiry time of `-1` is none. -/
def sellBtc (owner orderID : String) (expiredAt : ℤ) : Msg :=
  .limitSwap ⟨owner, 0, orderID, owner, owner, 10, Dec.ofInt 2, "btc", "usdt", .sell, expiredAt⟩

/-- The IDs of the three orders: canonical UUIDs, in the order of their
placing. -/
def order1 : String := "6ba7b810-9dad-11d1-80b4-00c04fd430c1"

def order2 : String := "6ba7b810-9dad-11d1-80b4-00c04fd430c2"

def order3 : String := "6ba7b810-9dad-11d1-80b4-00c04fd430c3"

/-- The first block, at time `1`. -/
def placingBlock : List Event :=
  [.tx 1 (.addLiquidity ⟨"bob", 0, "btc", "usdt", 2000, 2000, 0⟩),
   .tx 1 (sellBtc "alice" order1 100), .tx 1 (sellBtc "alice" order2 (-1)),
   .tx 1 (sellBtc "carol" order3 100), .endBlock 1 1]

/-- The state after `alice`'s cancellation, in the block at time `100`. -/
def afterCancel : State :=
  run (step expiryEnv) (State.init expiryGenesis)
    (placingBlock ++ [.tx 100 (.cancelLimitSwap ⟨"alice", [order1]⟩)])

/-- The state after the end of that block. -/
def afterExpiry : State := step expiryEnv afterCancel (.endBlock 2 100)

/-- **The second unlock takes another order's lock.** After the block,
`alice` holds no `btc`, though her second order is unfinished with `10`
`btc` locked: the end-blocker expired her cancelled order from the book's
stale copy and unlocked its `10` `btc` once more. -/
theorem cancel_then_expiry_releases_foreign_lock :
    afterExpiry.trk.getHoldBalance "alice" "btc" = 0 ∧
      afterExpiry.unfinished.get order2 = some () ∧
      (afterExpiry.getOrder order2).map
          (fun o => (o.fromAddr, o.side, o.baseSymbol, o.status, o.lockedFund)) =
        some ("alice", .sell, "btc", .new, 10) := by
  decide +kernel

/-- **An expired order outlives its index entry.** When the matching of
that block starts, the book holds `carol`'s expired order, which the store
no longer indexes as unfinished. At the next end of block the long-lived
node expires it again, stamping time `110`, while a node restarted in
between, whose book `Init` rebuilt, leaves it at `100`. -/
theorem expired_order_outlives_unfinished_index :
    (updateOrdersInMatching 100 afterCancel).toOption.map
        (fun s => ((s.manager.find order3).map Order.status, s.unfinished.get order3)) =
      some (some .expired, none) ∧
      ((step expiryEnv afterExpiry (.endBlock 3 110)).getOrder order3).map Order.finishedTime =
        some 110 ∧
      ((step expiryEnv (step expiryEnv afterExpiry .restart) (.endBlock 3 110)).getOrder
          order3).map Order.finishedTime = some 100 := by
  decide +kernel

/-- **A cancelled order is expired and unlocked again.** `alice`'s first
order is `Canceled` after her transaction and `Expired` after the
end-blocker; she has her `20` `btc` back although her second order still
locks `10`. -/
theorem cancelled_order_is_expired_and_unlocked_twice :
    (afterCancel.getOrder order1).map Order.status = some .canceled ∧
      (afterExpiry.getOrder order1).map Order.status = some .expired ∧
      afterExpiry.trk.getBalance "alice" "btc" = 20 ∧
      (afterExpiry.getOrder order2).map Order.lockedFund = some 10 := by
  decide +kernel

end Openswap
