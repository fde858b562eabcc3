import Bhchain.Openswap.Types
import Bhchain.Lib.KVStore
import Mathlib.Data.List.Sort

/-!
# The in-memory order book (`x/openswap/orderbook`)

The keeper matches limit orders against the pairs from an order book kept
in memory, outside the store: a `Manager` of `Market`s, one per dex and
pair of tokens, each with a book of buy orders and a book of sell orders.
A book holds the orders by ID, ordered by price (`LessThan`) for
matching and, for those with an expiry time, by expiry.

The book holds Go pointers: the order the manager matches is mutated in
place, so the book always sees its own latest copy of each order, while
the store holds whatever was last saved. The model keeps one copy of each
order per book, keyed by ID, and the two orderings are read off it, which
is what a red-black tree over pointers to orders whose sort fields never
change gives. A book is synchronised with the store only by `AddOrder`
and `DelOrder` calls; `Init` builds it from the store's list of
unfinished orders when the node starts.
-/

namespace Openswap

open Sdk KVStore

/-- **`Orderbook`**: the orders of one side of a market, by ID. -/
structure Orderbook where
  idToOrder : Store String Order

namespace Orderbook

/-- `NewOrderbook`. -/
def empty : Orderbook := ⟨.empty⟩

/-- `AddOrder`: put the order, replacing one of the same ID. -/
def addOrder (ob : Orderbook) (order : Order) : Orderbook :=
  ⟨ob.idToOrder.set order.orderID order⟩

/-- `DelOrder`. -/
def delOrder (ob : Orderbook) (orderID : String) : Orderbook :=
  ⟨ob.idToOrder.delete orderID⟩

/-- The orders of the book. -/
def orders (ob : Orderbook) : List Order := ob.idToOrder.entries.map Prod.snd

/-- `Iterator`: the orders by increasing `LessThan`. -/
def byPrice (ob : Orderbook) : List Order :=
  ob.orders.insertionSort (fun o o₂ => o.lessThan o₂ = true)

/-- `ReverseIterator`. -/
def byPriceReverse (ob : Orderbook) : List Order := ob.byPrice.reverse

/-- **`GetExpiredOrder`**: the orders with an expiry time (`ExpiredTime ≥ 0`),
by expiry, up to the first one that expires after `currentTime`. -/
def getExpiredOrder (ob : Orderbook) (currentTime : ℤ) : List Order :=
  ((ob.orders.filter (fun o => decide (0 ≤ o.expiredTime))).insertionSort
    (fun o o₂ => o.expiresBefore o₂ = true)).takeWhile (fun o => decide (o.expiredTime ≤ currentTime))

@[simp] theorem idToOrder_addOrder (ob : Orderbook) (order : Order) :
    (ob.addOrder order).idToOrder = ob.idToOrder.set order.orderID order := rfl

@[simp] theorem idToOrder_delOrder (ob : Orderbook) (orderID : String) :
    (ob.delOrder orderID).idToOrder = ob.idToOrder.delete orderID := rfl

end Orderbook

/-- **`Market`**: the two books of one dex and pair of tokens. -/
structure Market where
  dexID : ℕ
  baseSymbol : Symbol
  quoteSymbol : Symbol
  buyOrders : Orderbook
  sellOrders : Orderbook

namespace Market

/-- `NewMarket`. -/
def new (dexID : ℕ) (baseSymbol quoteSymbol : Symbol) : Market :=
  ⟨dexID, baseSymbol, quoteSymbol, .empty, .empty⟩

/-- `AddOrder`, to the book of the order's side. -/
def addOrder (m : Market) (order : Order) : Market :=
  match order.side with
  | .buy => { m with buyOrders := m.buyOrders.addOrder order }
  | .sell => { m with sellOrders := m.sellOrders.addOrder order }

/-- `DelOrder`, from the book of the order's side. -/
def delOrder (m : Market) (order : Order) : Market :=
  match order.side with
  | .buy => { m with buyOrders := m.buyOrders.delOrder order.orderID }
  | .sell => { m with sellOrders := m.sellOrders.delOrder order.orderID }

/-- `GetExpiredOrders`: the expired sell orders, then the expired buy
orders. -/
def getExpiredOrders (m : Market) (blockTime : ℤ) : List Order :=
  m.sellOrders.getExpiredOrder blockTime ++ m.buyOrders.getExpiredOrder blockTime

/-- The order of a given ID in the market's books, if any. -/
def find (m : Market) (orderID : String) : Option Order :=
  (m.buyOrders.idToOrder.get orderID).or (m.sellOrders.idToOrder.get orderID)

end Market

/-- `formatKey`: `"%d-%s-%s"` of the dex and the two symbols. -/
def formatKey (dexID : ℕ) (baseSymbol quoteSymbol : Symbol) : String :=
  toString dexID ++ "-" ++ baseSymbol ++ "-" ++ quoteSymbol

/-- **`Manager`**: the markets by key; `marketKeys`, kept sorted, is the
key order of the store. -/
structure Manager where
  markets : Store String Market

namespace Manager

/-- `NewManager`. -/
def empty : Manager := ⟨.empty⟩

/-- The market of an order's dex and pair, made empty if it is not there
yet (`addMarket`). -/
def marketOf (mgr : Manager) (order : Order) : Market :=
  (mgr.markets.get (formatKey order.dexID order.baseSymbol order.quoteSymbol)).getD
    (Market.new order.dexID order.baseSymbol order.quoteSymbol)

/-- **`AddOrder`**. -/
def addOrder (mgr : Manager) (order : Order) : Manager :=
  ⟨mgr.markets.set (formatKey order.dexID order.baseSymbol order.quoteSymbol)
    ((mgr.marketOf order).addOrder order)⟩

/-- **`DelOrder`**. A market is made for the order first if it has none. -/
def delOrder (mgr : Manager) (order : Order) : Manager :=
  ⟨mgr.markets.set (formatKey order.dexID order.baseSymbol order.quoteSymbol)
    ((mgr.marketOf order).delOrder order)⟩

/-- `GetMarkets`, in key order. -/
def getMarkets (mgr : Manager) : List Market := mgr.markets.entries.map Prod.snd

/-- **`GetExpiredOrders`**, market by market in key order. -/
def getExpiredOrders (mgr : Manager) (blockTime : ℤ) : List Order :=
  mgr.getMarkets.flatMap (fun m => m.getExpiredOrders blockTime)

/-- Write a market back under its key. -/
def setMarket (mgr : Manager) (m : Market) : Manager :=
  ⟨mgr.markets.set (formatKey m.dexID m.baseSymbol m.quoteSymbol) m⟩

/-- The current version of a market, looked up by its key. -/
def currentMarket (mgr : Manager) (m : Market) : Market :=
  (mgr.markets.get (formatKey m.dexID m.baseSymbol m.quoteSymbol)).getD m

/-- The order of a given ID in any market, if any. -/
def find (mgr : Manager) (orderID : String) : Option Order :=
  (mgr.getMarkets.map (fun m => m.find orderID)).findSome? id

/-- Add orders one after another (the loop of `Init`). -/
def addOrders (mgr : Manager) (orders : List Order) : Manager := orders.foldl addOrder mgr

/-- **The book holds an order ID**: some market has an order of that ID. -/
def Holds (mgr : Manager) (orderID : String) : Prop :=
  ∃ k m, mgr.markets.get k = some m ∧ (m.find orderID).isSome

end Manager

/-! ## Adding an order removes none -/

namespace Market

theorem find_isSome_addOrder {m : Market} {orderID : String} (order : Order)
    (h : (m.find orderID).isSome) : ((m.addOrder order).find orderID).isSome := by
  unfold find at h ⊢
  unfold addOrder
  cases order.side <;> by_cases hid : orderID = order.orderID <;> simp_all

theorem find_addOrder_self (m : Market) (order : Order) :
    ((m.addOrder order).find order.orderID).isSome := by
  unfold find addOrder
  cases order.side <;> simp

end Market

namespace Manager

/-- `AddOrder` keeps every order the book held. -/
theorem Holds.addOrder {mgr : Manager} {orderID : String} (h : mgr.Holds orderID)
    (order : Order) : (mgr.addOrder order).Holds orderID := by
  obtain ⟨k, m, hk, hm⟩ := h
  by_cases hkey : k = formatKey order.dexID order.baseSymbol order.quoteSymbol
  · -- the market of the order: the one that held the ID
    subst hkey
    have hof : mgr.marketOf order = m := by simp [marketOf, hk]
    refine ⟨formatKey order.dexID order.baseSymbol order.quoteSymbol,
      (mgr.marketOf order).addOrder order, by simp [Manager.addOrder], ?_⟩
    rw [hof]
    exact Market.find_isSome_addOrder order hm
  · exact ⟨k, m, by simp [Manager.addOrder, hkey, hk], hm⟩

theorem holds_addOrder_self (mgr : Manager) (order : Order) :
    (mgr.addOrder order).Holds order.orderID :=
  ⟨formatKey order.dexID order.baseSymbol order.quoteSymbol, (mgr.marketOf order).addOrder order,
    by simp [addOrder], Market.find_addOrder_self _ _⟩

end Manager

end Openswap
