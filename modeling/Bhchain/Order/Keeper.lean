import Mathlib
import Bhchain.Types.Order
import Bhchain.Lib.KVStore
import Bhchain.Lib.ByteString

/-!
# The order keeper (`x/order/keeper.go`)

The order keeper stores each order under its ID and keeps an index of the
orders still in process: one key `processOrderKey(type, id)` per such
order, holding no value, under which `GetProcessOrderListByType` lists
the process orders of a type by a prefix scan.

The index is written by hand at three places. `NewOrder` adds the key of
an order it accepts, before the caller stores the order; `SetOrder` stores
an order (silently skipping one whose CU address is not valid) and removes
its key when the new status is terminated; and the key generation handler
removes keys itself. The keys are byte strings; an order ID enters its key
as the bytes of its UTF-8 encoding, which is what the Go conversion
`[]byte(orderID)` produces.

Address validity (`CUAddress.IsValidAddr`) is a property of the address
format and is a parameter of the calls that check it.
-/

namespace OrderKeeper

open Sdk KVStore

/-- A key of the store: a byte string. -/
abbrev Bytes := List (Fin 256)

/-- A byte has `256` values: the literals of `Bytes` name this instance
instead of a proof of their own. -/
instance neZero_byteCount : NeZero (256 : ℕ) := ⟨by decide⟩

/-- `[]byte(s)`: the UTF-8 bytes of a string. -/
def bytesOf (s : String) : Bytes := (s.toList.flatMap String.utf8EncodeChar).map UInt8.toFin

theorem bytesOf_inj {s t : String} : bytesOf s = bytesOf t ↔ s = t :=
  ByteString.encode_injective.eq_iff

/-- `ProcessOrderStoreKeyPrefix`. -/
def processOrderStoreKeyPrefix : Bytes := [3, 4]

/-- `binary.BigEndian.PutUint16` of `uint16(n)`. -/
def putUint16 (n : ℕ) : Bytes := [Fin.ofNat 256 (n / 256), Fin.ofNat 256 n]

/-- `binary.BigEndian.Uint16`. -/
def uint16 (hi lo : Fin 256) : ℕ := hi.val * 256 + lo.val

/-- `processOrderPrefixKey`: the prefix of the index keys of one order
type. -/
def processOrderPrefixKey (orderType : Sdk.OrderType) : Bytes :=
  processOrderStoreKeyPrefix ++ putUint16 orderType.toNat

/-- `processOrderKey`: prefix, then the type, then the order ID. -/
def processOrderKey (orderType : Sdk.OrderType) (orderID : String) : Bytes :=
  processOrderPrefixKey orderType ++ bytesOf orderID

/-- `decodeProcessOrderKey`: the type code in the two bytes after the
prefix, and the bytes after them as the order ID. -/
def decodeProcessOrderKey (bz : Bytes) : ℕ × Bytes :=
  (uint16 (bz.getD 2 0) (bz.getD 3 0), bz.drop 4)

/-- **The order keeper's store**: the orders by ID, and the index of
process orders. -/
structure Keeper where
  orders : Store String Order
  processOrders : Store Bytes Unit

namespace Keeper

/-- The empty store. -/
def empty : Keeper := ⟨.empty, .empty⟩

/-- `GetOrder`. -/
def getOrder (k : Keeper) (orderID : String) : Option Order := k.orders.get orderID

/-- `IsExist`. -/
def isExist (k : Keeper) (uuid : String) : Bool := k.orders.has uuid

/-- `AddProcessOrder`. -/
def addProcessOrder (k : Keeper) (order : Order) : Keeper :=
  { k with processOrders := k.processOrders.set (processOrderKey order.getOrderType order.getID) () }

/-- `RemoveProcessOrder`. -/
def removeProcessOrder (k : Keeper) (orderType : Sdk.OrderType) (orderID : String) : Keeper :=
  { k with processOrders := k.processOrders.delete (processOrderKey orderType orderID) }

/-- **`SetOrder`**: store the order, unless its CU address is not valid;
remove its index key once its status is terminated. -/
def setOrder (isValidAddr : String → Bool) (k : Keeper) (order : Order) : Keeper :=
  if !isValidAddr order.getCUAddress then k
  else
    let k := { k with orders := k.orders.set order.getID order }
    if order.getOrderStatus.terminated then k.removeProcessOrder order.getOrderType order.getID
    else k

/-- `getProcessOrderListBySingleType`: the IDs under the type's prefix, in
key order. -/
def getProcessOrderListBySingleType (k : Keeper) (orderType : Sdk.OrderType) : List Bytes :=
  (k.processOrders.entries.filter (fun e => (processOrderPrefixKey orderType).isPrefixOf e.1)).map
    (fun e => (decodeProcessOrderKey e.1).2)

/-- `GetProcessOrderListByType`. -/
def getProcessOrderListByType (k : Keeper) (orderTypes : List Sdk.OrderType) : List Bytes :=
  orderTypes.flatMap k.getProcessOrderListBySingleType

/-- **`NewOrder`**: refuse an order whose ID is taken; otherwise put it in
status `Begin` and add its index key. The order itself is stored later, by
the caller's `SetOrder`. -/
def newOrder (k : Keeper) (order : Order) : Option (Order × Keeper) :=
  if k.isExist order.getID then none
  else
    let order := order.setOrderStatus .begin
    some (order, k.addProcessOrder order)

/-- **`NewOrderWithdrawal`**: a withdrawal order of `fromAddr`, through
`NewOrder`. Where `NewOrder` refuses, Go returns an empty order rather
than `nil`; the model returns `none` there. -/
def newOrderWithdrawal (k : Keeper) (height : ℕ) (fromAddr orderID symbol : String)
    (amount gasFee costFee : ℤ) (withdrawToAddr opCUAddr txHash : String) :
    Option (OrderWithdrawal × Keeper) :=
  let order : OrderWithdrawal :=
    { cuAddress := fromAddr, id := orderID, orderType := .withdrawal, symbol := symbol,
      status := .begin, height := height, amount := amount, gasFee := gasFee,
      costFee := costFee, withdrawToAddress := withdrawToAddr, fromAddress := "",
      opCUaddress := opCUAddr, utxoInNum := 0, txhash := txHash, rawData := "", signedTx := "",
      withdrawStatus := .unconfirmed }
  (k.newOrder (.withdrawal order)).map fun r => (order, r.2)

@[simp] theorem getOrder_empty (orderID : String) : empty.getOrder orderID = none := rfl

@[simp] theorem orders_addProcessOrder (k : Keeper) (order : Order) :
    (k.addProcessOrder order).orders = k.orders := rfl

@[simp] theorem orders_removeProcessOrder (k : Keeper) (t : Sdk.OrderType) (orderID : String) :
    (k.removeProcessOrder t orderID).orders = k.orders := rfl

@[simp] theorem getOrder_addProcessOrder (k : Keeper) (order : Order) (orderID : String) :
    (k.addProcessOrder order).getOrder orderID = k.getOrder orderID := rfl

@[simp] theorem getOrder_removeProcessOrder (k : Keeper) (t : Sdk.OrderType) (orderID id : String) :
    (k.removeProcessOrder t orderID).getOrder id = k.getOrder id := rfl

/-- `NewOrder` of a fresh ID adds its index key and stores nothing. -/
theorem newOrder_of_not_isExist {k : Keeper} {order : Order} (h : k.isExist order.getID = false) :
    k.newOrder order =
      some (order.setOrderStatus .begin, k.addProcessOrder (order.setOrderStatus .begin)) := by
  unfold newOrder
  rw [if_neg (by simp [h])]

/-- **What `NewOrderWithdrawal` builds**: an order in `Begin` with the given
ID, owner, symbol, amount and fee, whose index key it adds; it refuses
only a taken ID. -/
theorem newOrderWithdrawal_eq_some {k : Keeper} {height : ℕ} {fromAddr orderID symbol : String}
    {amount gasFee costFee : ℤ} {withdrawToAddr opCUAddr txHash : String}
    {r : OrderWithdrawal × Keeper}
    (h : k.newOrderWithdrawal height fromAddr orderID symbol amount gasFee costFee withdrawToAddr
      opCUAddr txHash = some r) :
    k.isExist orderID = false ∧ r.1.id = orderID ∧ r.1.cuAddress = fromAddr ∧
      r.1.symbol = symbol ∧ r.1.amount = amount ∧ r.1.gasFee = gasFee ∧ r.1.status = .begin ∧
      r.1.orderType = .withdrawal ∧ r.2 = k.addProcessOrder (.withdrawal r.1) := by
  unfold newOrderWithdrawal newOrder at h
  dsimp only at h
  split at h
  · cases h
  · rename_i hfresh
    cases h
    exact ⟨by simpa using hfresh, rfl, rfl, rfl, rfl, rfl, rfl, rfl, rfl⟩

/-- What `SetOrder` does to the orders: a store of an order with a valid
address, nothing otherwise. -/
theorem getOrder_setOrder (isValidAddr : String → Bool) (k : Keeper) (order : Order)
    (orderID : String) :
    (k.setOrder isValidAddr order).getOrder orderID =
      if isValidAddr order.getCUAddress = true ∧ orderID = order.getID then some order
      else k.getOrder orderID := by
  unfold setOrder
  by_cases hv : isValidAddr order.getCUAddress = true
  · rw [if_neg (by simp [hv])]
    -- the index update does not touch the orders
    have hset : (({ k with orders := k.orders.set order.getID order } : Keeper).getOrder orderID) =
        if orderID = order.getID then some order else k.getOrder orderID :=
      Store.get_set _ _ _ _
    split <;> simp only [getOrder_removeProcessOrder, hset, hv, true_and]
  · rw [if_pos (by simpa using hv)]
    simp [hv]

theorem getOrder_setOrder_self {isValidAddr : String → Bool} (k : Keeper) {order : Order}
    (hv : isValidAddr order.getCUAddress = true) :
    (k.setOrder isValidAddr order).getOrder order.getID = some order := by
  rw [getOrder_setOrder]
  simp [hv]

theorem getOrder_setOrder_of_ne (isValidAddr : String → Bool) (k : Keeper) (order : Order)
    {orderID : String} (hne : orderID ≠ order.getID) :
    (k.setOrder isValidAddr order).getOrder orderID = k.getOrder orderID := by
  rw [getOrder_setOrder]
  simp [hne]

/-- **The store invariant of the order keeper**: every order sits under
its own ID and has a valid CU address, since `SetOrder` is the only writer
of orders and writes nothing else. -/
structure WF (isValidAddr : String → Bool) (k : Keeper) : Prop where
  keys_agree : ∀ orderID order, k.getOrder orderID = some order → order.getID = orderID
  addr_valid : ∀ orderID order, k.getOrder orderID = some order →
    isValidAddr order.getCUAddress = true

section WF

variable {isValidAddr : String → Bool}

theorem wf_empty : WF isValidAddr empty :=
  ⟨fun _ _ h => (by cases h), fun _ _ h => (by cases h)⟩

theorem WF.setOrder {k : Keeper} (hk : WF isValidAddr k) (order : Order) :
    WF isValidAddr (k.setOrder isValidAddr order) := by
  constructor
  all_goals
    intro orderID o h
    rw [getOrder_setOrder] at h
    split at h
  · -- the order just written
    rename_i hw
    cases h
    exact hw.2.symm
  · exact hk.keys_agree orderID o h
  · rename_i hw
    cases h
    exact hw.1
  · exact hk.addr_valid orderID o h

theorem WF.addProcessOrder {k : Keeper} (hk : WF isValidAddr k) (order : Order) :
    WF isValidAddr (k.addProcessOrder order) := ⟨hk.keys_agree, hk.addr_valid⟩

theorem WF.removeProcessOrder {k : Keeper} (hk : WF isValidAddr k) (t : Sdk.OrderType)
    (orderID : String) : WF isValidAddr (k.removeProcessOrder t orderID) :=
  ⟨hk.keys_agree, hk.addr_valid⟩

/-- Under the invariant, `SetOrder` of a stored order's update that keeps
its ID and address writes it back in its place. -/
theorem WF.getOrder_setOrder_update {k : Keeper} (hk : WF isValidAddr k) {orderID : String}
    {old : Order} (hold : k.getOrder orderID = some old) {order : Order}
    (hid : order.getID = old.getID) (haddr : order.getCUAddress = old.getCUAddress) :
    (k.setOrder isValidAddr order).getOrder orderID = some order := by
  have hv : isValidAddr order.getCUAddress = true := haddr ▸ hk.addr_valid orderID old hold
  have hself : (k.setOrder isValidAddr order).getOrder order.getID = some order :=
    getOrder_setOrder_self k hv
  rwa [hid, hk.keys_agree orderID old hold] at hself

end WF

end Keeper

end OrderKeeper
