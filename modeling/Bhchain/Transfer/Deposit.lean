import Bhchain.Transfer.Ledger
import Bhchain.Ibcasset.Deposits
import Bhchain.Ibcasset.CUAsset

/-!
# Deposits (`x/transfer/keeper/deposit.go`, `x/transfer/handler.go`)

A deposit enters the chain in two steps.

* `Deposit` (the user) reports a transfer on an external chain to an
  address of a CU: the token must take deposits, the amount must reach the
  token's threshold, the address must belong to the CU, and the reported
  output (`hash`, `index`) must be new: no deposit item has it, and no
  collect order still in process claims it. The report becomes a collect
  order in `Begin`, its deposit unconfirmed.
* `ConfirmedDeposit` (each key node) casts `TxVote(0, valid)` in the box of
  each order ID it lists. The ballot that confirms a box confirms the
  order (`confirmDepositOrder`): an invalid report ends the order
  `Finish`; a valid one writes the deposit item and, unless the CU is an
  operation CU or lacks the gas to collect, credits the CU's balance. Where
  the user's address has too little gas for the collect transaction, the
  collect fee is taken from the deposit (a chain's own token) or from the
  CU's balance of the chain's token, and recorded on the order.

`confirmDepositOrder` is not atomic. When it returns an error,
`processDepositOrderIDs` skips the order and goes on, and the writes made
before the error stay; the model keeps them (`confirmDepositItem`). A panic
(`NewCoin` of a negative amount, a missing asset record or token) drops
the whole transaction.

Over every run of the two messages (`depositStep`), the invariant
`DepositInv` keeps `Deposit`'s checks honest: a report whose deposit is not
confirmed keeps its index key, so that the scan reads it, and its output
has no deposit item. So two pending reports never claim one output
(`pending_reports_claim_distinct_outputs`), and a pending report's output
is not yet credited (`pending_report_output_uncredited`): the deposit item
of an output is saved by the confirmation of its one pending report, and
a confirmed report's vote box stays confirmed, so that no later ballot
confirms it again.

A collect order is stored by the order keeper by its base fields; its own
fields are kept beside it, under its ID (`DepositState.collects`), and
`getOrderCollect` reads the two together as the type assertion
`order.(*sdk.OrderCollect)` does. The CU asset records the handlers read
are part of the state (`cuAssets`): `Deposit` writes one when it registers
an address for a token. Their coins, nonces and gas accounts other than
the remaining gas are left out.
-/

namespace OrderKeeper.Keeper

open Sdk

/-- **`NewOrderCollect`**: a collect order in `Begin`, its deposit
unconfirmed, through `NewOrder`. Where `NewOrder` refuses, Go returns an
empty order; the model returns `none` there. -/
def newOrderCollect (k : Keeper) (height : ℕ) (fromAddr orderID symbol : String)
    (collectFromCU collectFromAddress : String) (amount gasPrice gasLimit : ℤ) (txHash : String)
    (index : ℕ) (memo : String) : Option (OrderCollect × Keeper) :=
  let order : OrderCollect :=
    { cuAddress := fromAddr, id := orderID, orderType := .collect, symbol := symbol,
      status := .begin, height := height, collectFromCU := collectFromCU,
      collectFromAddress := collectFromAddress, collectToCU := "", amount := amount,
      gasPrice := gasPrice, gasLimit := gasLimit, costFee := 0, txhash := txHash, index := index,
      memo := memo, rawData := "", signedTx := "", extTxHash := "", depositStatus := .unconfirm }
  (k.newOrder order.toOrder).map fun r => (order, r.2)

end OrderKeeper.Keeper

namespace Transfer

open Sdk Transition OrderKeeper Ibcasset

/-- **A CU's asset record** (`CUIBCAsset`), with the fields the deposit
handlers read: the CU's type, and its external assets. -/
structure CUAssetRecord where
  cuType : CUType
  asset : CUIBCAsset
  deriving DecidableEq, Repr

/-- `GetGasRemained`: the gas left at an address, `0` for an address the CU
does not hold. -/
def CUAssetRecord.getGasRemained (r : CUAssetRecord) (chain : Denom) (addr : String) : ℤ :=
  match r.asset.getAssetByAddr chain addr with
  | some asset => asset.gasRemained
  | none => 0

/-- What the deposit handlers read from the rest of the chain, in addition
to what the withdrawal handlers read. -/
structure DepositEnv extends WithdrawalEnv where
  /-- `DepositThreshold` of the token of each symbol -/
  depositThreshold : Denom → ℤ

/-- **The state the deposit handlers write**: the withdrawal handlers'
state, the collect orders' own fields, the deposit items, and the CU asset
records. -/
structure DepositState extends State where
  collects : KVStore.Store String OrderCollect
  deposits : DepositStore
  cuAssets : CUAddress → Option CUAssetRecord

namespace DepositState

/-- `GetOrder` followed by the type assertion `order.(*sdk.OrderCollect)`:
the collect order stored under an ID, if the order there is one. -/
def getOrderCollect (s : DepositState) (orderID : String) : Option OrderCollect :=
  match s.ok.getOrder orderID with
  | some (.other b) => if b.orderType = .collect then s.collects.get orderID else none
  | _ => none

/-- **`SetOrder`** of a collect order: the order keeper's write, and the
order's own fields beside it. Like `SetOrder`, it skips an order whose CU
address is not valid. -/
def setOrderCollect (isValidAddr : String → Bool) (s : DepositState) (order : OrderCollect) :
    DepositState :=
  { s with
    ok := s.ok.setOrder isValidAddr order.toOrder
    collects := if isValidAddr order.cuAddress then s.collects.set order.id order else s.collects }

/-- `GetOrder` of an ID read off a process key: `none` where no order's ID
has those bytes, and otherwise the type assertion on the order there. -/
def getOrderCollectByKey (s : DepositState) (orderID : Bytes) : Option (Option OrderCollect) :=
  (s.ok.orders.entries.find? (fun e => bytesOf e.1 = orderID)).map fun e => s.getOrderCollect e.1

end DepositState

variable (env : DepositEnv)

/-! ## `Deposit` -/

/-- The scan of `Deposit` over the collect orders in process: refuse an
output that one of them claims. A key whose order is gone is skipped; an
order that is not a collect order fails the type assertion. -/
def checkProcessingDeposit (s : DepositState) (hash : String) (index : ℕ) :
    List Bytes → Except Failure Unit
  | [] => pure ()
  | orderID :: orderIDs =>
    match s.getOrderCollectByKey orderID with
    | none => checkProcessingDeposit s hash index orderIDs
    | some none => .error interfaceConversion
    | some (some collectOrder) =>
      if collectOrder.txhash = hash ∧ collectOrder.index = index then
        .error (errInvalidTx "Tx: %v is already exist and not finish")
      else checkProcessingDeposit s hash index orderIDs

/-- **`BaseKeeper.Deposit`**. -/
def deposit (s : DepositState) (height : ℕ) (fromCUAddr toCUAddr : CUAddress) (symbol : Denom)
    (toAddr hash : String) (index : ℕ) (amt : ℤ) (orderID memo : String) :
    Except Failure DepositState := do
  failIf (env.isIllegalOrderID orderID) (errInvalidTx "deposit invalid OrderID %v")
  let fromCUType ← orFail (env.getCU fromCUAddr) (errInvalidAccount fromCUAddr)
  failIf (fromCUType = .op) (errInvalidTx "fromCU %v is opcu")
  let tokenInfo ← orFail (env.getIBCToken symbol) (errUnSupportToken symbol)
  let chain := tokenInfo.chain
  failIf (!tokenInfo.depositEnabled || !tokenInfo.sendEnabled || !env.isSendEnabled)
    (errTransactionIsNotEnabled "%v's deposit is not enabled temporary")
  failIf (tokenInfo.tokenType = .accountBased ∧ index ≠ 0) (errInvalidTx "deposit invalid index:%v")
  failIf (amt < env.depositThreshold symbol)
    (errInsufficientCoins "desposit %v LT deposit threshold %v")
  let validity := env.validAddress chain symbol toAddr
  failIf (!validity.1) (errInvalidAddress "%s is an invalid address")
  let canonicalToAddr := validity.2
  -- a CU without an asset record gets a fresh user one, which holds no
  -- address: the lookup below then refuses
  let toCUAst := (s.cuAssets toCUAddr).getD ⟨.user, CUIBCAsset.fresh⟩
  let asset ← depositAssetLookup toCUAst.asset symbol chain canonicalToAddr
  let s := { s with cuAssets := Function.update s.cuAssets toCUAddr (some { toCUAst with asset := asset }) }
  failIf (s.ok.isExist orderID) (errInvalidOrder "order %v already exists")
  failIf (s.deposits.isDepositExist symbol toCUAddr hash index)
    (errInvalidTx "deposit %v %v %v %v item already exist")
  checkProcessingDeposit s hash index (s.ok.getProcessOrderListByType [.collect])
  -- `NewOrder` does not refuse here: the ID was checked free above
  let created ← orFail
    (s.ok.newOrderCollect height toCUAddr orderID symbol toCUAddr canonicalToAddr amt 0 0 hash index memo)
    (errInvalidOrder "Fail to create order:%v")
  pure ({ s with ok := created.2 }.setOrderCollect env.isValidAddr created.1)

/-! ## `ConfirmedDeposit` -/

/-- The end of `confirmDepositOrder`: store the order, save the deposit
item with its status, and credit a `WaitCollect` item's amount to the CU.
`NewDepositItem`'s error is dropped (`depositItem, _ :=`), which saves the
zero item; an error of `AddCoin` returns with the order and the item
written. -/
def confirmDepositItem (s : DepositState) (order : OrderCollect)
    (depositItemStatus : DepositItemStatus) (collectAmt : ℤ) : Except Failure DepositState := do
  let s := s.setOrderCollect env.isValidAddr order
  let depositItem := ((newDepositItem order.txhash order.index order.amount order.collectFromAddress
    order.memo depositItemStatus).toOption).getD DepositItem.nil
  let s := { s with deposits := s.deposits.saveDeposit order.symbol order.collectFromCU depositItem }
  if depositItemStatus = .waitCollect then
    let coin ← newCoin order.symbol collectAmt
    match s.trk.addCoin order.collectFromCU coin with
    | .error _ => pure s
    | .ok trk => pure { s with trk := trk }
  else pure s

/-- **`BaseKeeper.confirmDepositOrder`**, for the ballot that confirmed the
order's box. -/
def confirmDepositOrder (s : DepositState) (order : OrderCollect) (valid : Bool) :
    Except Failure DepositState := do
  let order := { order with depositStatus := .confirmed }
  if !valid then
    return s.setOrderCollect env.isValidAddr { order with status := .finish }
  let toCUAst ← orFail (s.cuAssets order.collectFromCU) nilPointerDereference
  let haveWaitCollectItem :=
    (s.deposits.getDepositList order.symbol order.collectFromCU).any (·.status = .waitCollect)
  if toCUAst.cuType = .op then
    -- an operation CU's deposit is already where collects go
    confirmDepositItem env s { order with status := .finish } .confirmed order.amount
  else
    let tokenInfo ← orFail (env.getIBCToken order.symbol) nilPointerDereference
    let gasFee := tokenInfo.gasPrice * tokenInfo.gasLimit
    if gasFee ≤ toCUAst.getGasRemained tokenInfo.chain order.collectFromAddress then
      confirmDepositItem env s order .waitCollect order.amount
    else if tokenInfo.symbol = tokenInfo.chain then
      -- the chain's own token pays its collect fee out of the deposit, once
      -- for all the items waiting to be collected
      if !haveWaitCollectItem then
        let collectFee ← tokenInfo.collectFee
        confirmDepositItem env s { order with costFee := collectFee.2 } .waitCollect
          (order.amount - collectFee.2)
      else confirmDepositItem env s order .waitCollect order.amount
    else if haveWaitCollectItem then
      confirmDepositItem env s order .waitCollect order.amount
    else
      -- another token's collect fee is paid from the balance of the chain's
      -- token; without it the deposit waits, uncredited
      let collectFee ← tokenInfo.collectFee
      if collectFee.2 ≤ s.trk.getBalance order.collectFromCU tokenInfo.chain then
        match s.trk.subCoin order.collectFromCU collectFee with
        | .error _ => pure s
        | .ok trk =>
          confirmDepositItem env { s with trk := trk } { order with costFee := collectFee.2 }
            .waitCollect order.amount
      else confirmDepositItem env s order .unCollected order.amount

/-- **`BaseKeeper.processDepositOrderIDs`**: for each listed collect order,
the key node's ballot, and the confirmation of the order by the ballot
that confirms its box. -/
def processDepositOrderIDs (height : ℕ) (fromCUAddr : CUAddress) (valid : Bool) (s : DepositState) :
    List String → Except Failure DepositState
  | [] => pure s
  | id :: ids => do
    match s.getOrderCollect id with
    | none => processDepositOrderIDs height fromCUAddr valid s ids
    | some collectOrder =>
      let voted := s.evidence.vote id fromCUAddr (newTxVote 0 valid) height env.keyNodeCount
      let s := { s with evidence := voted.2 }
      let s ← if voted.1.1 then confirmDepositOrder env s collectOrder valid else pure s
      processDepositOrderIDs height fromCUAddr valid s ids

/-- **`BaseKeeper.ConfirmedDeposit`**: the valid orders, then the invalid
ones. -/
def confirmedDeposit (s : DepositState) (height : ℕ) (fromCUAddr : CUAddress)
    (validOrderIDs invalidOrderIDs : List String) : Except Failure DepositState := do
  failIf (!env.isActiveKeyNode fromCUAddr) (errInvalidTx "depositconfirm from not a validator :%v")
  let s ← processDepositOrderIDs env height fromCUAddr true s validOrderIDs
  processDepositOrderIDs env height fromCUAddr false s invalidOrderIDs

/-! ## The messages -/

/-- `MsgDeposit`. -/
structure MsgDeposit where
  fromCU : CUAddress
  toCU : CUAddress
  toAddress : String
  symbol : Denom
  amount : ℤ
  index : UInt16
  txhash : String
  orderID : String
  memo : String
  deriving DecidableEq, Repr

/-- `MsgConfirmedDeposit`. -/
structure MsgConfirmedDeposit where
  «from» : CUAddress
  validOrderIDs : List String
  invalidOrderIDs : List String
  deriving DecidableEq, Repr

/-- **`MsgDeposit.ValidateBasic`**. `Symbol.IsValid` is the pattern of a
valid denomination. -/
def MsgDeposit.validateBasic (msg : MsgDeposit) : Except Failure Unit := do
  failIf (env.isIllegalOrderID msg.orderID) (errInvalidTx "Invalid order id")
  failIf (!env.isValidAddr msg.fromCU) (errInvalidAddr "From CU address: %s is invalid")
  failIf (!env.isValidAddr msg.toCU) (errInvalidAddr "TO CU address: %s is invalid")
  failIf (!validDenom msg.symbol) (errInvalidSymbol "Invalid Symbol %s")
  failIf (msg.txhash = "") (errInvalidTx "Invalid tx hash")
  failIf (msg.toAddress = "") (errInvalidAddress "address is invalid")
  failIf (msg.amount ≤ 0) (errInvalidAmount "Amount is not positive")

/-- `MsgConfirmedDeposit.ValidateBasic`. -/
def MsgConfirmedDeposit.validateBasic (msg : MsgConfirmedDeposit) : Except Failure Unit := do
  failIf (isIllegalOrderIDList env.isIllegalOrderID [] msg.validOrderIDs)
    (errInvalidTx "Invalid order id list")
  failIf (isIllegalOrderIDList env.isIllegalOrderID [] msg.invalidOrderIDs)
    (errInvalidTx "Invalid order id list")
  failIf (!env.isValidAddr msg.from) (errInvalidAddr "From CU address: %s is invalid")

/-- **`handleMsgDeposit`**. -/
def handleMsgDeposit (s : DepositState) (height : ℕ) (msg : MsgDeposit) :
    Except Failure DepositState := do
  failIf (!env.isSendEnabled) errSendDisabled
  deposit env s height msg.fromCU msg.toCU msg.symbol msg.toAddress msg.txhash msg.index.toNat
    msg.amount msg.orderID msg.memo

/-- **`handleMsgConfirmedDeposit`**. -/
def handleMsgConfirmedDeposit (s : DepositState) (height : ℕ) (msg : MsgConfirmedDeposit) :
    Except Failure DepositState := do
  failIf (!env.isSendEnabled) errSendDisabled
  confirmedDeposit env s height msg.from msg.validOrderIDs msg.invalidOrderIDs

/-! ## The deposit path as a machine -/

/-- A message of the deposit path. -/
inductive DepositMsg where
  | deposit (msg : MsgDeposit)
  | confirmedDeposit (msg : MsgConfirmedDeposit)
  deriving DecidableEq, Repr

/-- A transaction of the deposit path, in a block of some height. -/
structure DepositTx where
  height : ℕ
  msg : DepositMsg
  deriving DecidableEq, Repr

/-- `DeliverTx` of a deposit message: `ValidateBasic`, then the handler. -/
def deliverDepositTx (s : DepositState) (tx : DepositTx) : Except Failure DepositState :=
  match tx.msg with
  | .deposit msg => do
    msg.validateBasic env
    handleMsgDeposit env s tx.height msg
  | .confirmedDeposit msg => do
    msg.validateBasic env
    handleMsgConfirmedDeposit env s tx.height msg

/-- A transaction's effect on the state: its writes, or none of them. -/
def depositStep (s : DepositState) (tx : DepositTx) : DepositState :=
  commit (fun s => deliverDepositTx env s tx) s

/-- A genesis of the deposit path: balances and asset records, and no
order, no deposit item and no vote. -/
def DepositState.init (balance : CUAddress × Denom → ℤ) (cuAssets : CUAddress → Option CUAssetRecord) :
    DepositState :=
  { toState := Lifecycle.init balance, collects := .empty, deposits := .empty, cuAssets := cuAssets }

/-! ## What each handler writes -/

section claims

variable {s s' : DepositState}

/-- The index key of an order is listed by the scan of its type, as the
bytes of its ID. -/
theorem mem_getProcessOrderListByType {k : Keeper} {t : Sdk.OrderType} {orderID : String}
    (h : k.processOrders.get (processOrderKey t orderID) = some ()) :
    bytesOf orderID ∈ k.getProcessOrderListByType [t] := by
  have hmem : (processOrderKey t orderID, ()) ∈ k.processOrders.entries := KVStore.Store.mem_iff_get.mpr h
  simp only [Keeper.getProcessOrderListByType, List.flatMap_cons, List.flatMap_nil, List.append_nil,
    Keeper.getProcessOrderListBySingleType, List.mem_map, List.mem_filter]
  refine ⟨_, ⟨hmem, ?_⟩, ?_⟩
  · -- the key starts with its type's prefix
    exact List.isPrefixOf_iff_prefix.mpr (List.prefix_append _ _)
  · -- the prefix is four bytes long, and the ID follows it
    simp [processOrderKey, processOrderPrefixKey, processOrderStoreKeyPrefix, putUint16,
      decodeProcessOrderKey]

/-- The scan reads a stored order back through the bytes of its ID, since
distinct IDs have distinct bytes. -/
theorem getOrderCollectByKey_bytesOf {orderID : String} {order : Order}
    (h : s.ok.getOrder orderID = some order) :
    s.getOrderCollectByKey (bytesOf orderID) = some (s.getOrderCollect orderID) := by
  have hmem : (orderID, order) ∈ s.ok.orders.entries := KVStore.Store.mem_iff_get.mpr h
  unfold DepositState.getOrderCollectByKey
  cases hfind : s.ok.orders.entries.find? (fun e => bytesOf e.1 = bytesOf orderID) with
  | none =>
    have hnone := List.find?_eq_none.mp hfind (orderID, order) hmem
    simp at hnone
  | some e =>
    have hbytes : bytesOf e.1 = bytesOf orderID := by simpa using List.find?_some hfind
    rw [Option.map_some, OrderKeeper.bytesOf_inj.mp hbytes]

/-- What the scan lets through: no order it reads claims the output. -/
theorem checkProcessingDeposit_eq_ok {hash : String} {index : ℕ} :
    ∀ {orderIDs : List Bytes}, checkProcessingDeposit s hash index orderIDs = .ok () →
      ∀ key ∈ orderIDs, ∀ o, s.getOrderCollectByKey key = some (some o) →
        ¬(o.txhash = hash ∧ o.index = index)
  | [], _ => by simp
  | key :: orderIDs, h => by
    intro key' hkey' o ho
    unfold checkProcessingDeposit at h
    split at h
    · rename_i hnone
      rcases List.mem_cons.mp hkey' with rfl | hkey'
      · rw [hnone] at ho
        cases ho
      · exact checkProcessingDeposit_eq_ok h key' hkey' o ho
    · cases h
    · rename_i collectOrder hsome
      split at h
      · cases h
      · rename_i hfresh
        rcases List.mem_cons.mp hkey' with rfl | hkey'
        · rw [hsome] at ho
          cases ho
          exact hfresh
        · exact checkProcessingDeposit_eq_ok h key' hkey' o ho

/-- **What a successful `Deposit` did**: the ID was free, no deposit item
and no collect order in process claimed the output, and the report became
a collect order in `Begin`, unconfirmed, whose index key was added. -/
theorem deposit_eq_ok {height : ℕ} {fromCUAddr toCUAddr : CUAddress}
    {symbol : Denom} {toAddr hash : String} {index : ℕ} {amt : ℤ} {orderID memo : String}
    (h : deposit env s height fromCUAddr toCUAddr symbol toAddr hash index amt orderID memo = .ok s') :
    s.ok.isExist orderID = false ∧
      s.deposits.getDeposit symbol toCUAddr hash index = none ∧
      (∀ id o, s.getOrderCollect id = some o →
        s.ok.processOrders.get (processOrderKey .collect id) = some () →
        ¬(o.txhash = hash ∧ o.index = index)) ∧
      ∃ (cuAssets : CUAddress → Option CUAssetRecord) (order : OrderCollect),
        order.id = orderID ∧ order.cuAddress = toCUAddr ∧ order.txhash = hash ∧ order.index = index ∧
        order.symbol = symbol ∧ order.collectFromCU = toCUAddr ∧ order.orderType = .collect ∧
        order.status = .begin ∧ order.depositStatus = .unconfirm ∧
        s' = ({ s with cuAssets := cuAssets, ok := s.ok.addProcessOrder order.toOrder } :
          DepositState).setOrderCollect env.isValidAddr order := by
  unfold deposit at h
  simp only [bind_eq_ok, orFail_eq_ok, failIf_eq_ok, pure_eq_ok] at h
  obtain ⟨_, -, _, -, _, -, _, -, _, -, _, -, _, -, _, -, _, -, _, hexist, _, hitem, ⟨⟩, hscan,
    created, hcreated, rfl⟩ := h
  have hfree : s.ok.isExist orderID = false := by simpa using hexist
  refine ⟨hfree, by simpa [Ibcasset.DepositStore.isDepositExist] using hitem, ?_, ?_⟩
  · intro id o ho hkey
    obtain ⟨b, hb⟩ : ∃ order, s.ok.getOrder id = some order := by
      unfold DepositState.getOrderCollect at ho
      split at ho
      · exact ⟨_, ‹_›⟩
      · cases ho
    -- the scan reads the state with only its asset records rewritten, which
    -- holds the same orders
    exact checkProcessingDeposit_eq_ok hscan _ (mem_getProcessOrderListByType hkey) o
      ((getOrderCollectByKey_bytesOf hb).trans (congrArg some ho))
  · -- `NewOrder` of the free ID adds the index key of the order it builds
    unfold Keeper.newOrderCollect at hcreated
    dsimp only at hcreated
    rw [Keeper.newOrder_of_not_isExist hfree, Option.map_some, Option.some.injEq] at hcreated
    subst hcreated
    exact ⟨_, _, rfl, rfl, rfl, rfl, rfl, rfl, rfl, rfl, rfl, rfl⟩

/-- The item a confirmation saves is stored under the order's output,
unless `NewDepositItem` refused an empty hash. -/
theorem key_newDepositItem {hash : String} (hh : hash ≠ "") (index : ℕ) (amount : ℤ)
    (extAddress memo : String) (status : DepositItemStatus) :
    (((newDepositItem hash index amount extAddress memo status).toOption).getD DepositItem.nil).key =
      (hash, index) := by
  simp [newDepositItem, hh, DepositItem.key, Except.toOption]

/-- **What a successful `confirmDepositItem` wrote**: the order, and the
deposit item of its output; the credit moves only the balances. -/
theorem confirmDepositItem_eq_ok {order : OrderCollect} {status : DepositItemStatus} {amt : ℤ}
    (h : confirmDepositItem env s order status amt = .ok s') :
    s'.ok = (s.setOrderCollect env.isValidAddr order).ok ∧
      s'.collects = (s.setOrderCollect env.isValidAddr order).collects ∧ s'.evidence = s.evidence ∧
      s'.deposits = s.deposits.saveDeposit order.symbol order.collectFromCU
        (((newDepositItem order.txhash order.index order.amount order.collectFromAddress order.memo
          status).toOption).getD DepositItem.nil) := by
  unfold confirmDepositItem at h
  dsimp only at h
  split at h
  · -- a `WaitCollect` item is credited, or the error of `AddCoin` is returned with the writes made
    obtain ⟨coin, -, h⟩ := bind_eq_ok.mp h
    split at h <;>
    · rw [pure_eq_ok] at h
      subst h
      exact ⟨rfl, rfl, rfl, rfl⟩
  · rw [pure_eq_ok] at h
    subst h
    exact ⟨rfl, rfl, rfl, rfl⟩

/-- **What the confirmation of an order writes**: the order with its
deposit confirmed, under its own ID, address, type, output, symbol and CU,
and possibly a deposit item, of that output. -/
def ConfirmWrite (s s' : DepositState) (order : OrderCollect) : Prop :=
  ∃ o' : OrderCollect, o'.id = order.id ∧ o'.cuAddress = order.cuAddress ∧
    o'.orderType = order.orderType ∧ o'.txhash = order.txhash ∧ o'.index = order.index ∧
    o'.symbol = order.symbol ∧ o'.collectFromCU = order.collectFromCU ∧
    o'.depositStatus = .confirmed ∧
    s'.ok = (s.setOrderCollect env.isValidAddr o').ok ∧
    s'.collects = (s.setOrderCollect env.isValidAddr o').collects ∧
    (s'.deposits = s.deposits ∨ ∃ item : DepositItem,
      (order.txhash ≠ "" → item.key = (order.txhash, order.index)) ∧
      s'.deposits = s.deposits.saveDeposit order.symbol order.collectFromCU item)

/-- A `confirmDepositItem` of the order, confirmed, from a state that holds
the orders, items and votes of `s`, is a confirmation write. -/
theorem confirmWrite_of_item {s₀ : DepositState} (hok : s₀.ok = s.ok)
    (hcollects : s₀.collects = s.collects) (hev : s₀.evidence = s.evidence)
    (hdeposits : s₀.deposits = s.deposits) (order : OrderCollect) {o' : OrderCollect}
    {status : DepositItemStatus}
    {amt : ℤ} (hfields : o'.id = order.id ∧ o'.cuAddress = order.cuAddress ∧
      o'.orderType = order.orderType ∧ o'.txhash = order.txhash ∧ o'.index = order.index ∧
      o'.symbol = order.symbol ∧ o'.collectFromCU = order.collectFromCU ∧
      o'.depositStatus = .confirmed)
    (h : confirmDepositItem env s₀ o' status amt = .ok s') :
    s'.evidence = s.evidence ∧ ConfirmWrite env s s' order := by
  obtain ⟨hid, haddr, htype, hhash, hindex, hsymbol, hcu, hconf⟩ := hfields
  obtain ⟨h₁, h₂, h₃, h₄⟩ := confirmDepositItem_eq_ok env h
  refine ⟨h₃.trans hev, o', hid, haddr, htype, hhash, hindex, hsymbol, hcu, hconf, ?_, ?_,
    .inr ⟨(newDepositItem o'.txhash o'.index o'.amount o'.collectFromAddress o'.memo status).toOption.getD
      DepositItem.nil, ?_, ?_⟩⟩
  · rw [h₁]
    simp only [DepositState.setOrderCollect, hok]
  · rw [h₂]
    simp only [DepositState.setOrderCollect, hcollects]
  · intro hne
    rw [← hhash, ← hindex]
    exact key_newDepositItem (hhash ▸ hne) _ _ _ _ _
  · rw [h₄, hsymbol, hcu, hdeposits]

/-- **What a successful `confirmDepositOrder` wrote**: no ballot, and
either nothing of the orders and items (the collect fee could not be
taken) or a confirmation write. -/
theorem confirmDepositOrder_eq_ok {order : OrderCollect} {valid : Bool}
    (h : confirmDepositOrder env s order valid = .ok s') :
    s'.evidence = s.evidence ∧
      ((s'.ok = s.ok ∧ s'.collects = s.collects ∧ s'.deposits = s.deposits) ∨
        ConfirmWrite env s s' order) := by
  unfold confirmDepositOrder at h
  simp only at h
  split at h
  · -- an invalid report only ends the order
    rw [pure_eq_ok] at h
    subst h
    exact ⟨rfl, .inr ⟨{ order with depositStatus := .confirmed, status := .finish },
      rfl, rfl, rfl, rfl, rfl, rfl, rfl, rfl, rfl, rfl, .inl rfl⟩⟩
  obtain ⟨toCUAst, -, h⟩ := bind_eq_ok.mp h
  -- every branch that writes confirms the order through `confirmDepositItem`
  have hitem : ∀ {s₀ : DepositState} {o' : OrderCollect} {status : DepositItemStatus} {amt : ℤ},
      confirmDepositItem env s₀ o' status amt = .ok s' →
      s₀.ok = s.ok → s₀.collects = s.collects → s₀.evidence = s.evidence →
      s₀.deposits = s.deposits → o'.id = order.id → o'.cuAddress = order.cuAddress →
      o'.orderType = order.orderType → o'.txhash = order.txhash → o'.index = order.index →
      o'.symbol = order.symbol → o'.collectFromCU = order.collectFromCU →
      o'.depositStatus = .confirmed →
      s'.evidence = s.evidence ∧ ((s'.ok = s.ok ∧ s'.collects = s.collects ∧ s'.deposits = s.deposits) ∨
        ConfirmWrite env s s' order) :=
    fun h hok hc hev hd h₁ h₂ h₃ h₄ h₅ h₆ h₇ h₈ =>
      (confirmWrite_of_item env hok hc hev hd order ⟨h₁, h₂, h₃, h₄, h₅, h₆, h₇, h₈⟩ h).imp_right .inr
  split at h
  · exact hitem h rfl rfl rfl rfl rfl rfl rfl rfl rfl rfl rfl rfl
  obtain ⟨tokenInfo, -, h⟩ := bind_eq_ok.mp h
  split at h
  · exact hitem h rfl rfl rfl rfl rfl rfl rfl rfl rfl rfl rfl rfl
  split at h
  · -- the chain's own token
    split at h
    · obtain ⟨collectFee, -, h⟩ := bind_eq_ok.mp h
      exact hitem h rfl rfl rfl rfl rfl rfl rfl rfl rfl rfl rfl rfl
    · exact hitem h rfl rfl rfl rfl rfl rfl rfl rfl rfl rfl rfl rfl
  split at h
  · exact hitem h rfl rfl rfl rfl rfl rfl rfl rfl rfl rfl rfl rfl
  obtain ⟨collectFee, -, h⟩ := bind_eq_ok.mp h
  split at h
  · split at h
    · -- `SubCoin` failed: the error is returned before anything is written
      rw [pure_eq_ok] at h
      subst h
      exact ⟨rfl, .inl ⟨rfl, rfl, rfl⟩⟩
    · exact hitem h rfl rfl rfl rfl rfl rfl rfl rfl rfl rfl rfl rfl
  · exact hitem h rfl rfl rfl rfl rfl rfl rfl rfl rfl rfl rfl rfl

/-! ## The invariant of the deposit path

A report is *pending* while its deposit is not confirmed. The invariant
says that `Deposit`'s two checks see every pending report: each keeps its
index key, so that the scan reads it, and its output has no deposit item
yet. From that, two pending reports never claim one output, and the
deposit item a confirmation saves is of an output no other pending report
claims. A confirmed report's box is confirmed, so that no later ballot
confirms it again. -/

/-- The index keys of two order IDs are equal only for one ID, whatever
their types: the type prefixes have one length. -/
theorem processOrderKey_inj {t t' : Sdk.OrderType} {id id' : String}
    (h : processOrderKey t id = processOrderKey t' id') : id = id' :=
  OrderKeeper.bytesOf_inj.mp (List.append_inj h (by simp [processOrderPrefixKey,
    processOrderStoreKeyPrefix, putUint16])).2

/-- `SetOrder` removes the index key of the order it writes, and no other. -/
theorem processOrders_setOrder_of_ne (isValidAddr : String → Bool) (k : Keeper) (order : Order)
    (t : Sdk.OrderType) {id : String} (hne : id ≠ order.getID) :
    (k.setOrder isValidAddr order).processOrders.get (processOrderKey t id) =
      k.processOrders.get (processOrderKey t id) := by
  unfold Keeper.setOrder
  split
  · rfl
  · split
    · simp only [Keeper.removeProcessOrder, KVStore.Store.get_delete]
      rw [if_neg (fun h => hne (processOrderKey_inj h))]
    · rfl

/-- `SetOrder` of an order that is not terminated removes no index key. -/
theorem processOrders_setOrder_of_not_terminated (isValidAddr : String → Bool) (k : Keeper)
    {order : Order} (h : order.getOrderStatus.terminated = false) :
    (k.setOrder isValidAddr order).processOrders = k.processOrders := by
  unfold Keeper.setOrder
  split
  · rfl
  · rw [if_neg (by simp [h])]

theorem collects_setOrderCollect (isValidAddr : String → Bool) (s : DepositState)
    (order : OrderCollect) (id : String) :
    (s.setOrderCollect isValidAddr order).collects.get id =
      if isValidAddr order.cuAddress = true ∧ id = order.id then some order else s.collects.get id := by
  unfold DepositState.setOrderCollect
  by_cases hv : isValidAddr order.cuAddress = true <;> simp [hv]

/-- The collect order `getOrderCollect` reads is the one kept beside the
order keeper's. -/
theorem collects_of_getOrderCollect {id : String} {o : OrderCollect}
    (h : s.getOrderCollect id = some o) : s.collects.get id = some o := by
  unfold DepositState.getOrderCollect at h
  split at h
  · split at h
    · exact h
    · cases h
  · cases h

/-- **The invariant of the deposit path.** -/
structure DepositInv (s : DepositState) : Prop where
  /-- a collect order is stored by the order keeper too, under its own ID -/
  stored : ∀ id o, s.collects.get id = some o →
    s.ok.getOrder id = some o.toOrder ∧ o.id = id ∧ o.orderType = .collect
  addr_valid : ∀ id o, s.collects.get id = some o → env.isValidAddr o.cuAddress = true
  hash_ne : ∀ id o, s.collects.get id = some o → o.txhash ≠ ""
  /-- a pending report keeps its index key, so that `Deposit`'s scan reads it -/
  pending_indexed : ∀ id o, s.collects.get id = some o → o.depositStatus ≠ .confirmed →
    s.ok.processOrders.get (processOrderKey .collect id) = some ()
  /-- no deposit item has a pending report's output -/
  pending_unclaimed : ∀ id o, s.collects.get id = some o → o.depositStatus ≠ .confirmed →
    s.deposits.getDeposit o.symbol o.collectFromCU o.txhash o.index = none
  /-- two pending reports never claim one output -/
  pending_distinct : ∀ id id' o o', s.collects.get id = some o → s.collects.get id' = some o' →
    o.depositStatus ≠ .confirmed → o'.depositStatus ≠ .confirmed →
    o.txhash = o'.txhash → o.index = o'.index → id = id'
  /-- a confirmed report's box is confirmed -/
  confirmed_voted : ∀ id o, s.collects.get id = some o → o.depositStatus = .confirmed →
    s.evidence.Confirmed Evidence.VoteBox.kind id

namespace DepositInv

theorem init (balance : CUAddress × Denom → ℤ) (cuAssets : CUAddress → Option CUAssetRecord) :
    DepositInv env (DepositState.init balance cuAssets) where
  stored _ _ h := by cases h
  addr_valid _ _ h := by cases h
  hash_ne _ _ h := by cases h
  pending_indexed _ _ h := by cases h
  pending_unclaimed _ _ h := by cases h
  pending_distinct _ _ _ _ h := by cases h
  confirmed_voted _ _ h := by cases h

variable {env}

/-- The invariant reads a stored collect order through `getOrderCollect`. -/
theorem getOrderCollect_eq (hI : DepositInv env s) {id : String} {o : OrderCollect}
    (h : s.collects.get id = some o) : s.getOrderCollect id = some o := by
  obtain ⟨hget, -, htype⟩ := hI.stored id o h
  unfold DepositState.getOrderCollect
  rw [hget]
  simp only [OrderCollect.toOrder]
  rw [if_pos htype, h]

/-- A state that holds the orders, items and votes of `s` keeps the
invariant. -/
theorem of_eq (hI : DepositInv env s) (hok : s'.ok = s.ok) (hcollects : s'.collects = s.collects)
    (hdeposits : s'.deposits = s.deposits) (hev : s'.evidence = s.evidence) : DepositInv env s' where
  stored id o h := hok ▸ hI.stored id o (hcollects ▸ h)
  addr_valid id o h := hI.addr_valid id o (hcollects ▸ h)
  hash_ne id o h := hI.hash_ne id o (hcollects ▸ h)
  pending_indexed id o h hp := hok ▸ hI.pending_indexed id o (hcollects ▸ h) hp
  pending_unclaimed id o h hp := hdeposits ▸ hI.pending_unclaimed id o (hcollects ▸ h) hp
  pending_distinct id id' o o' h h' := hI.pending_distinct id id' o o' (hcollects ▸ h) (hcollects ▸ h')
  confirmed_voted id o h hc := hev ▸ hI.confirmed_voted id o (hcollects ▸ h) hc

/-- A ballot keeps the invariant: votes keep confirmed boxes confirmed. -/
theorem vote (hI : DepositInv env s) (voteID : String) (voter : CUAddress) (v : TxVote) (height n : ℕ) :
    DepositInv env { s with evidence := (s.evidence.vote voteID voter v height n).2 } :=
  { hI.of_eq rfl rfl rfl rfl with
    confirmed_voted := fun id o h hc => confirmed_vote (hI.confirmed_voted id o h hc) voteID voter v height n }

/-- **A confirmation write of a pending report whose box is confirmed keeps
the invariant.** The report leaves the pending ones; the deposit item it
saves is of its own output, which no other pending report claims. -/
theorem confirmWrite (hI : DepositInv env s) {Q : OrderCollect} (hQ : s.collects.get Q.id = some Q)
    (hpend : Q.depositStatus ≠ .confirmed) (hbox : s.evidence.Confirmed Evidence.VoteBox.kind Q.id)
    (hev : s'.evidence = s.evidence) (hw : ConfirmWrite env s s' Q) : DepositInv env s' := by
  obtain ⟨o', hid, haddr, htype, hhash, hindex, hsymbol, hcu, hconf, hok, hcollects, hdeposits⟩ := hw
  have hv : env.isValidAddr o'.cuAddress = true := haddr ▸ hI.addr_valid _ Q hQ
  -- the collects after the write: the confirmed order at its ID, the others as they were
  have hget : ∀ id o, s'.collects.get id = some o →
      (id = Q.id ∧ o = o') ∨ (id ≠ Q.id ∧ s.collects.get id = some o) := by
    intro id o h
    rw [hcollects, collects_setOrderCollect, hid] at h
    by_cases hq : id = Q.id
    · rw [if_pos ⟨hv, hq⟩] at h
      exact .inl ⟨hq, (Option.some.inj h).symm⟩
    · rw [if_neg (fun hc => hq hc.2)] at h
      exact .inr ⟨hq, h⟩
  have hokget : ∀ id, id ≠ Q.id → s'.ok.getOrder id = s.ok.getOrder id := fun id hne => by
    rw [hok]
    exact Keeper.getOrder_setOrder_of_ne _ _ _ (by rw [OrderCollect.getID_toOrder, hid]; exact hne)
  constructor
  · intro id o h
    rcases hget id o h with ⟨rfl, rfl⟩ | ⟨hne, h⟩
    · refine ⟨?_, hid, htype.trans (hI.stored _ Q hQ).2.2⟩
      rw [hok, ← hid]
      exact Keeper.getOrder_setOrder_self _ hv
    · obtain ⟨hs, hid', htype'⟩ := hI.stored id o h
      exact ⟨(hokget id hne).trans hs, hid', htype'⟩
  · intro id o h
    rcases hget id o h with ⟨rfl, rfl⟩ | ⟨-, h⟩
    · exact hv
    · exact hI.addr_valid id o h
  · intro id o h
    rcases hget id o h with ⟨rfl, rfl⟩ | ⟨-, h⟩
    · rw [hhash]
      exact hI.hash_ne _ Q hQ
    · exact hI.hash_ne id o h
  · intro id o h hp
    rcases hget id o h with ⟨rfl, rfl⟩ | ⟨hne, h⟩
    · exact absurd hconf hp
    · rw [hok]
      show (s.ok.setOrder env.isValidAddr o'.toOrder).processOrders.get _ = _
      rw [processOrders_setOrder_of_ne _ _ _ _ (by rw [OrderCollect.getID_toOrder, hid]; exact hne)]
      exact hI.pending_indexed id o h hp
  · intro id o h hp
    rcases hget id o h with ⟨rfl, rfl⟩ | ⟨hne, h⟩
    · exact absurd hconf hp
    · have hnone := hI.pending_unclaimed id o h hp
      rcases hdeposits with hd | ⟨item, hkey, hd⟩
      · rw [hd]
        exact hnone
      · -- an item of `Q`'s output would make `o` claim it too
        rw [hd, Ibcasset.DepositStore.getDeposit_saveDeposit, if_neg]
        · exact hnone
        · rintro ⟨-, -, hk⟩
          rw [hkey (hI.hash_ne _ Q hQ), Prod.mk.injEq] at hk
          exact hne (hI.pending_distinct id Q.id o Q h hQ hp hpend hk.1.symm hk.2.symm)
  · intro id id' o o'' h h' hp hp' hh hi
    rcases hget id o h with ⟨rfl, rfl⟩ | ⟨-, h⟩
    · exact absurd hconf hp
    rcases hget id' o'' h' with ⟨rfl, rfl⟩ | ⟨-, h'⟩
    · exact absurd hconf hp'
    exact hI.pending_distinct id id' o o'' h h' hp hp' hh hi
  · intro id o h hc
    rw [hev]
    rcases hget id o h with ⟨rfl, rfl⟩ | ⟨-, h⟩
    · exact hbox
    · exact hI.confirmed_voted id o h hc

/-- **A key node's reports keep the invariant.** A ballot that confirms an
order's box confirms a pending report, since a confirmed report's box was
confirmed before; the confirmation then writes it or nothing. -/
theorem processDepositOrderIDs (hI : DepositInv env s) {height : ℕ} {fromCUAddr : CUAddress}
    {valid : Bool} : ∀ {ids : List String} {s' : DepositState},
      Transfer.processDepositOrderIDs env height fromCUAddr valid s ids = .ok s' → DepositInv env s' := by
  intro ids
  induction ids generalizing s with
  | nil =>
    intro s' h
    cases h
    exact hI
  | cons id ids ih =>
    intro s' h
    unfold Transfer.processDepositOrderIDs at h
    split at h
    · exact ih hI h
    rename_i Q hQ
    have hget := collects_of_getOrderCollect hQ
    have hid : Q.id = id := (hI.stored id Q hget).2.1
    have hI₁ := hI.vote id fromCUAddr (newTxVote 0 valid) height env.keyNodeCount
    simp only at h
    split at h
    · -- the ballot confirmed the box: the report was pending
      rename_i hfirst
      obtain ⟨s₂, h₂, h⟩ := bind_eq_ok.mp h
      have hpend : Q.depositStatus ≠ .confirmed := fun hc => by
        rw [vote_first_of_confirmed (hI.confirmed_voted id Q hget hc)] at hfirst
        cases hfirst
      obtain ⟨hev, hw⟩ := confirmDepositOrder_eq_ok env h₂
      refine ih ?_ h
      rcases hw with ⟨hok, hc, hd⟩ | hw
      · exact hI₁.of_eq hok hc hd hev
      · refine hI₁.confirmWrite (hid ▸ hget) hpend ?_ hev hw
        rw [hid]
        exact confirmed_vote_of_first hfirst
    · exact ih hI₁ (bind_eq_ok.mp h |>.elim fun _ ⟨h₁, h₂⟩ => (pure_eq_ok.mp h₁) ▸ h₂)

/-- **A report keeps the invariant**: it is pending, under a fresh ID, with
its index key; its output has no deposit item, and no pending report claims
it, since the scan would have read that report. -/
theorem deposit (hI : DepositInv env s) {height : ℕ} {fromCUAddr toCUAddr : CUAddress}
    {symbol : Denom} {toAddr hash : String} {index : ℕ} {amt : ℤ} {orderID memo : String}
    (hhash : hash ≠ "") (hv : env.isValidAddr toCUAddr = true)
    (h : Transfer.deposit env s height fromCUAddr toCUAddr symbol toAddr hash index amt orderID memo =
      .ok s') : DepositInv env s' := by
  obtain ⟨hfree, hitem, hscan, cuAssets, N, hid, haddr, hh, hi, hsym, hcu, htype, hstatus, hdep, rfl⟩ :=
    deposit_eq_ok env h
  have hvN : env.isValidAddr N.cuAddress = true := haddr ▸ hv
  have hnotin : s.ok.getOrder orderID = none := by
    simpa [Keeper.isExist, KVStore.Store.has, Keeper.getOrder] using hfree
  have hterm : N.toOrder.getOrderStatus.terminated = false := by
    rw [OrderCollect.getOrderStatus_toOrder, hstatus]
    rfl
  -- the collects after the report: the new order at its ID, the others as they were
  have hget : ∀ id o, (({ s with cuAssets := cuAssets, ok := s.ok.addProcessOrder N.toOrder } :
      DepositState).setOrderCollect env.isValidAddr N).collects.get id = some o →
      (id = orderID ∧ o = N) ∨ (id ≠ orderID ∧ s.collects.get id = some o) := by
    intro id o h
    rw [collects_setOrderCollect, hid] at h
    by_cases hq : id = orderID
    · rw [if_pos ⟨hvN, hq⟩] at h
      exact .inl ⟨hq, (Option.some.inj h).symm⟩
    · rw [if_neg (fun hc => hq hc.2)] at h
      exact .inr ⟨hq, h⟩
  have hprocess : ∀ id, (((({ s with cuAssets := cuAssets, ok := s.ok.addProcessOrder N.toOrder } :
      DepositState).setOrderCollect env.isValidAddr N).ok.processOrders.get (processOrderKey .collect id)) =
      if id = orderID then some () else s.ok.processOrders.get (processOrderKey .collect id)) := by
    intro id
    show ((s.ok.addProcessOrder N.toOrder).setOrder env.isValidAddr N.toOrder).processOrders.get _ = _
    rw [processOrders_setOrder_of_not_terminated _ _ hterm]
    simp only [Keeper.addProcessOrder, KVStore.Store.get_set, OrderCollect.getOrderType_toOrder,
      OrderCollect.getID_toOrder, htype, hid]
    by_cases hq : id = orderID
    · rw [if_pos (by rw [hq]), if_pos hq]
    · rw [if_neg (fun hk => hq (processOrderKey_inj hk)), if_neg hq]
  -- an order already stored is not under the fresh ID
  have hne : ∀ id o, s.collects.get id = some o → id ≠ orderID := fun id o h hq => by
    have := (hI.stored id o h).1
    rw [hq, hnotin] at this
    cases this
  constructor
  · intro id o h
    rcases hget id o h with ⟨rfl, rfl⟩ | ⟨hq, h⟩
    · refine ⟨?_, hid, htype⟩
      show ((s.ok.addProcessOrder _).setOrder env.isValidAddr _).getOrder _ = _
      rw [← hid]
      exact Keeper.getOrder_setOrder_self _ hvN
    · obtain ⟨hs, hid', htype'⟩ := hI.stored id o h
      refine ⟨?_, hid', htype'⟩
      show ((s.ok.addProcessOrder _).setOrder env.isValidAddr _).getOrder _ = _
      rw [Keeper.getOrder_setOrder_of_ne _ _ _ (by rw [OrderCollect.getID_toOrder, hid]; exact hq)]
      exact hs
  · intro id o h
    rcases hget id o h with ⟨rfl, rfl⟩ | ⟨-, h⟩
    · exact hvN
    · exact hI.addr_valid id o h
  · intro id o h
    rcases hget id o h with ⟨rfl, rfl⟩ | ⟨-, h⟩
    · rw [hh]
      exact hhash
    · exact hI.hash_ne id o h
  · intro id o h hp
    rw [hprocess]
    rcases hget id o h with ⟨rfl, rfl⟩ | ⟨hq, h⟩
    · rw [if_pos rfl]
    · rw [if_neg hq]
      exact hI.pending_indexed id o h hp
  · intro id o h hp
    rcases hget id o h with ⟨rfl, rfl⟩ | ⟨-, h⟩
    · rw [hsym, hcu, hh, hi]
      exact hitem
    · exact hI.pending_unclaimed id o h hp
  · -- the scan read every pending report: none claims the new output
    have hfresh : ∀ id o, s.collects.get id = some o → o.depositStatus ≠ .confirmed →
        ¬(o.txhash = hash ∧ o.index = index) := fun id o h hp =>
      hscan id o (hI.getOrderCollect_eq h) (hI.pending_indexed id o h hp)
    intro id id' o o' h h' hp hp' hth hix
    rcases hget id o h with ⟨rfl, rfl⟩ | ⟨-, ho⟩
    · rcases hget id' o' h' with ⟨rfl, rfl⟩ | ⟨-, ho'⟩
      · rfl
      · exact absurd ⟨hth.symm.trans hh, hix.symm.trans hi⟩ (hfresh id' o' ho' hp')
    · rcases hget id' o' h' with ⟨rfl, rfl⟩ | ⟨-, ho'⟩
      · exact absurd ⟨hth.trans hh, hix.trans hi⟩ (hfresh id o ho hp)
      · exact hI.pending_distinct id id' o o' ho ho' hp hp' hth hix
  · intro id o h hc
    rcases hget id o h with ⟨rfl, rfl⟩ | ⟨-, h⟩
    · rw [hdep] at hc
      cases hc
    · exact hI.confirmed_voted id o h hc

theorem validateBasic_deposit {msg : MsgDeposit} {u : Unit} (h : msg.validateBasic env = .ok u) :
    msg.txhash ≠ "" ∧ env.isValidAddr msg.toCU = true := by
  simp only [MsgDeposit.validateBasic, bind_eq_ok, failIf_eq_ok] at h
  obtain ⟨_, -, _, -, _, hto, _, -, _, hhash, -⟩ := h
  exact ⟨hhash, by simpa using hto⟩

/-- **Every transaction of the deposit path keeps the invariant.** -/
theorem step (hI : DepositInv env s) (tx : DepositTx) : DepositInv env (depositStep env s tx) := by
  unfold depositStep
  refine commit_preserves (fun s' h => ?_) hI
  unfold deliverDepositTx at h
  split at h
  · rename_i msg _
    obtain ⟨u, hvb, h⟩ := bind_eq_ok.mp h
    obtain ⟨hhash, hto⟩ := validateBasic_deposit hvb
    obtain ⟨-, -, h⟩ := bind_eq_ok.mp h
    exact hI.deposit hhash hto h
  · obtain ⟨-, -, h⟩ := bind_eq_ok.mp h
    obtain ⟨-, -, h⟩ := bind_eq_ok.mp h
    obtain ⟨-, -, h⟩ := bind_eq_ok.mp h
    obtain ⟨s₁, h₁, h₂⟩ := bind_eq_ok.mp h
    exact (hI.processDepositOrderIDs h₁).processDepositOrderIDs h₂

/-- **The invariant holds in every state the deposit path reaches.** -/
theorem of_reachable {balance : CUAddress × Denom → ℤ} {cuAssets : CUAddress → Option CUAssetRecord}
    (hs : Reachable (depositStep env) (DepositState.init balance cuAssets) s) : DepositInv env s :=
  hs.invariant (init env balance cuAssets) (fun _ tx hI => hI.step tx)

end DepositInv

/-- **Two pending reports never claim one output.** In every state the
deposit path reaches, two collect orders whose deposits are not confirmed
and that claim one transaction output (hash and index) are one order:
while a report is pending, its index key keeps it in the scan by which
`Deposit` refuses a second report of its output. -/
theorem pending_reports_claim_distinct_outputs {balance : CUAddress × Denom → ℤ}
    {cuAssets : CUAddress → Option CUAssetRecord}
    (hs : Reachable (depositStep env) (DepositState.init balance cuAssets) s) (id id' : String)
    (o o' : OrderCollect) (ho : s.getOrderCollect id = some o) (ho' : s.getOrderCollect id' = some o')
    (hp : o.depositStatus ≠ .confirmed) (hp' : o'.depositStatus ≠ .confirmed)
    (hhash : o.txhash = o'.txhash) (hindex : o.index = o'.index) : id = id' :=
  (DepositInv.of_reachable hs).pending_distinct id id' o o' (collects_of_getOrderCollect ho)
    (collects_of_getOrderCollect ho') hp hp' hhash hindex

/-- **A pending report's output is not yet credited.** In every state the
deposit path reaches, the CU of a collect order whose deposit is not
confirmed has no deposit item of the order's output: a deposit item is
saved only by the confirmation of the one pending report of its output,
which leaves the pending reports then. -/
theorem pending_report_output_uncredited {balance : CUAddress × Denom → ℤ}
    {cuAssets : CUAddress → Option CUAssetRecord}
    (hs : Reachable (depositStep env) (DepositState.init balance cuAssets) s) (id : String)
    (o : OrderCollect) (ho : s.getOrderCollect id = some o) (hp : o.depositStatus ≠ .confirmed) :
    s.deposits.getDeposit o.symbol o.collectFromCU o.txhash o.index = none :=
  (DepositInv.of_reachable hs).pending_unclaimed id o (collects_of_getOrderCollect ho) hp

/-! ## Two reports of one output -/

/-- Four key nodes and `eth` as in `keyNodeWithdrawalEnv`, with a deposit
threshold of `1`. -/
def keyNodeDepositEnv : DepositEnv := { keyNodeWithdrawalEnv with depositThreshold := fun _ => 1 }

/-- `alice`'s CU holds an `eth` address. -/
def aliceCUAssets (a : CUAddress) : Option CUAssetRecord :=
  if a = "alice" then some ⟨.user, ⟨[Ibcasset.newAsset "eth" "0xa11ce" 1 true], []⟩⟩ else none

/-- `bob` reports a deposit of `5 eth` to `alice`'s address, output `0` of
transaction `h1`; then `carol` reports the same output. -/
def doubleReport : List DepositTx :=
  [⟨1, .deposit ⟨"bob", "alice", "0xa11ce", "eth", 5, 0, "h1", "d1", ""⟩⟩,
   ⟨1, .deposit ⟨"carol", "alice", "0xa11ce", "eth", 5, 0, "h1", "d2", ""⟩⟩]

/-- The deposit path after the two reports. -/
def afterDoubleReport : DepositState :=
  run (depositStep keyNodeDepositEnv) (DepositState.init (fun _ => 0) aliceCUAssets) doubleReport

/-- `bob`'s report as the order stores it. -/
def reportedDepositOrder : OrderCollect :=
  { cuAddress := "alice", id := "d1", orderType := .collect, symbol := "eth", status := .begin,
    height := 1, collectFromCU := "alice", collectFromAddress := "0xa11ce", collectToCU := "",
    amount := 5, gasPrice := 0, gasLimit := 0, costFee := 0, txhash := "h1", index := 0, memo := "",
    rawData := "", signedTx := "", extTxHash := "", depositStatus := .unconfirm }

/-- `carol`'s report is refused: `bob`'s is the one pending report of the
output. -/
theorem second_report_of_output_refused :
    afterDoubleReport.getOrderCollect "d1" = some reportedDepositOrder ∧
      afterDoubleReport.getOrderCollect "d2" = none ∧
      ∀ id o, afterDoubleReport.getOrderCollect id = some o → o.depositStatus ≠ .confirmed →
        o.txhash = "h1" → o.index = 0 → id = "d1" := by
  have hs : Reachable (depositStep keyNodeDepositEnv) (DepositState.init (fun _ => 0) aliceCUAssets)
      afterDoubleReport := ⟨_, rfl⟩
  have hd1 : afterDoubleReport.getOrderCollect "d1" = some reportedDepositOrder := by decide +kernel
  refine ⟨hd1, by decide +kernel, fun id o ho hp hh hi => ?_⟩
  exact pending_reports_claim_distinct_outputs keyNodeDepositEnv hs id "d1" o reportedDepositOrder ho hd1
    hp (by decide) hh hi

/-- While `bob`'s report is pending, `alice`'s CU has no item of its
output. -/
theorem reported_output_uncredited :
    afterDoubleReport.deposits.getDeposit "eth" "alice" "h1" 0 = none :=
  pending_report_output_uncredited keyNodeDepositEnv (⟨_, rfl⟩ :
    Reachable (depositStep keyNodeDepositEnv) (DepositState.init (fun _ => 0) aliceCUAssets)
      afterDoubleReport) "d1" reportedDepositOrder (by decide +kernel) (by decide)

end claims

end Transfer

