import Bhchain.Types.Order

/-!
# Deposit items and collect orders (`types/depositlist.go`, `types/order.go`)

A deposit is a transfer, on an external chain, to an address that a CU
owns there. The chain keeps two records of it.

* A **collect order** (`OrderCollect`), made by `Deposit` when a user
  reports the transfer: the CU, its address, the amount, and the
  transaction output it claims (`Txhash`, `Index`). Its `DepositStatus`
  records whether the key nodes have confirmed the report. The order then
  carries the *collect* transaction that moves the deposited coins from the
  user's address to an operation CU: raw, signed, and its hash.
* A **deposit item** (`DepositItem`), written when the report is confirmed:
  the transaction output, under the CU and the symbol, with a status that
  follows the collect transaction,

  `UnCollected`/`WaitCollect` → `InProcess` → `Confirmed`.

Raw and signed transactions are byte strings, modelled as `String`s, of
which only emptiness and equality are read.
-/

namespace Sdk

/-- `DepositItemStatus`. The numeric codes of `Go` (`UnCollected = 0`,
`WaitCollect = 1`, `Confirmed = 2`, `InProcess = 3`) do not follow the life
cycle, and nothing reads them. -/
inductive DepositItemStatus where
  /-- confirmed, but the user's address lacks the gas to collect it -/
  | unCollected
  /-- confirmed and credited, waiting for a collect transaction -/
  | waitCollect
  /-- collected by a finished collect transaction, or held by an
  operation CU -/
  | confirmed
  /-- in a collect transaction not yet finished -/
  | inProcess
  deriving DecidableEq, Repr

/-- `DepositItemStatus.In`: whether the status is one of a list. -/
def DepositItemStatus.In (s : DepositItemStatus) (l : List DepositItemStatus) : Bool :=
  l.contains s

/-- **`DepositItem`**: a transaction output that a CU received. -/
structure DepositItem where
  hash : String
  index : ℕ
  amount : ℤ
  extAddress : String
  memo : String
  status : DepositItemStatus
  deriving DecidableEq, Repr

namespace DepositItem

/-- `DepositNil`, the zero value of the record. -/
def nil : DepositItem := ⟨"", 0, 0, "", "", .unCollected⟩

/-- `DepositItem.IsValid`. -/
def isValid (d : DepositItem) : Bool := d.hash != ""

/-- The store key of an item under its CU and symbol: its output. -/
def key (d : DepositItem) : String × ℕ := (d.hash, d.index)

end DepositItem

/-- **`NewDepositItem`**: refuses an empty hash. -/
def newDepositItem (hash : String) (index : ℕ) (amount : ℤ) (extAddress memo : String)
    (status : DepositItemStatus) : Except String DepositItem :=
  if hash = "" then .error "hash is empty" else .ok ⟨hash, index, amount, extAddress, memo, status⟩

/-- `DepositList`. -/
abbrev DepositList := List DepositItem

/-- The `DepositStatus` of a collect order. `DepositWaitConfirm` is
declared and never written. -/
inductive DepositStatus where
  | unconfirm
  | waitConfirm
  | confirmed
  deriving DecidableEq, Repr

/-- **`OrderCollect`**: a deposit's order, and the collect transaction that
moves it to an operation CU. -/
structure OrderCollect extends OrderBase where
  collectFromCU : String
  collectFromAddress : String
  collectToCU : String
  amount : ℤ
  gasPrice : ℤ
  gasLimit : ℤ
  costFee : ℤ
  /-- the external transaction of the deposit -/
  txhash : String
  /-- the output of the deposit in its transaction -/
  index : ℕ
  memo : String
  rawData : String
  signedTx : String
  /-- the hash of the collect transaction -/
  extTxHash : String
  depositStatus : DepositStatus
  deriving DecidableEq, Repr

/-- A collect order as the order keeper stores it: by its base fields (see
`Transfer.DepositState` for where the others are kept). -/
def OrderCollect.toOrder (o : OrderCollect) : Order := .other o.toOrderBase

@[simp] theorem OrderCollect.getID_toOrder (o : OrderCollect) : o.toOrder.getID = o.id := rfl

@[simp] theorem OrderCollect.getCUAddress_toOrder (o : OrderCollect) :
    o.toOrder.getCUAddress = o.cuAddress := rfl

@[simp] theorem OrderCollect.getOrderStatus_toOrder (o : OrderCollect) :
    o.toOrder.getOrderStatus = o.status := rfl

@[simp] theorem OrderCollect.getOrderType_toOrder (o : OrderCollect) :
    o.toOrder.getOrderType = o.orderType := rfl

end Sdk
