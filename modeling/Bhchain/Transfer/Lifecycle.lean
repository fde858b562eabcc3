import Bhchain.Transfer.Withdrawal
import Bhchain.Types.Dec

/-!
# The life cycle of a withdrawal (`x/transfer/keeper/withdrawal.go`, `x/transfer/handler.go`)

A withdrawal order walks `Begin → WaitSign → SignFinish → {Finish, Failed}`,
or ends `Cancel` before it is signed. Six handlers move it:

* `Withdrawal` (the user) checks the token, the address, the fee and the
  ID, locks the amount and the gas fee in the user's held balance and
  stores the order in `Begin`. An order of a UTXO token is valid at once;
  one of an account token waits for the key nodes;
* `WithdrawalConfirm` (each key node) casts `TxVote(0, valid)` in the box of
  the order ID. The ballot that confirms the box marks the order valid, or
  invalid, and then cancels it and releases its lock;
* `WithdrawalWaitSign` records the raw transaction that pays the orders out,
  and `WithdrawalSignFinish` the signed one with its hash;
* `WithdrawalFinish` settles the orders once the reports confirm the box of
  the transaction hash (module `Withdrawal`);
* `CancelWithdrawal` (the user) cancels a valid order not yet signed and
  releases its lock.

What the two signing handlers check of the operation CU (its asset record,
UTXOs, nonces and gas price limits) and of the chain node's decoding of the
raw and signed transactions is a parameter of the environment, as the
settlement side of `WithdrawalFinish` is: the model keeps what the handlers
do to the orders, the balances and the evidence boxes. `OrderRetry` changes
a withdrawal order in no way (it rewrites only key generation orders and a
retry count), and is left out.
-/

namespace Sdk

/-- `DefaultUtxoWithdrawTxSize`: one input and two outputs. -/
def defaultUtxoWithdrawTxSize : ℤ := 150 + 40 * 2

/-- **`IBCToken.WithdrawalFee`**: the token's `WithdrawalFeeRate` times the
gas of one withdrawal transaction, truncated, in the chain's token. The
rate is an argument: the model's token record does not carry it. -/
def IBCToken.withdrawalFee (t : IBCToken) (withdrawalFeeRate : Dec) : Except Failure Coin :=
  let baseGasFee :=
    if t.tokenType = .utxoBased then (defaultUtxoWithdrawTxSize * t.gasPrice).tdiv kiloBytes
    else t.gasPrice * t.gasLimit
  newCoin t.chain (withdrawalFeeRate.mul (Dec.ofInt baseGasFee)).truncateInt

end Sdk

namespace Transfer

open Sdk Transition OrderKeeper

/-- What the operation CU's side of `WithdrawalWaitSign` writes into the
orders. -/
structure WaitSignResult where
  /-- the address of the operation CU that pays -/
  fromAddr : String
  costFee : ℤ
  utxoInNum : ℕ
  deriving DecidableEq, Repr

/-- What the other withdrawal handlers read from the rest of the chain, in
addition to what `WithdrawalFinish` reads. -/
structure WithdrawalEnv extends Env where
  /-- `WithdrawalFeeRate` of the token of each symbol -/
  withdrawalFeeRate : Denom → Dec
  /-- `ValidAddress` of the chain node: whether an address is valid for a
  chain and a symbol, and its canonical form -/
  validAddress : Denom → Denom → String → Bool × String
  /-- `GetCUFromExtAddress` of the CU keeper: the CU that owns an external
  address, if any -/
  getCUFromExtAddress : Denom → String → Option CUAddress
  /-- what `WithdrawalWaitSign` checks of the operation CU and of the raw
  transaction, from `GetCurrentEpoch` to the update of the CU's assets -/
  opCUWaitSign : IBCToken → CUAddress → List OrderWithdrawal → List String → String →
    Except Failure WaitSignResult
  /-- what `WithdrawalSignFinish` checks of the operation CU and of the
  signed transaction: its hash -/
  opCUSignFinish : IBCToken → List OrderWithdrawal → String → Except Failure String

variable (env : WithdrawalEnv)

/-! ## The keeper -/

/-- **`BaseKeeper.Withdrawal`**: check the request, lock the amount and the
gas fee in the held balance, and store the order in `Begin`. -/
def withdrawal (s : State) (height : ℕ) (fromCUAddr : CUAddress) (toAddr orderID symbol : String)
    (amt gasFee : ℤ) : Except Failure State := do
  failIf (env.isIllegalOrderID orderID) (errInvalidTx "invalid OrderID:%v")
  let cuType ← orFail (env.getCU fromCUAddr) (errInvalidAccount fromCUAddr)
  failIf (cuType ≠ .user) (errInvalidTx "withdrawal from a non user CU :%v")
  let tokenInfo ← orFail (env.getIBCToken symbol) (errUnSupportToken symbol)
  let chain := tokenInfo.chain
  let validity := env.validAddress chain symbol toAddr
  failIf (!validity.1) (errInvalidAddr "%v is not a valid address")
  let canonicalToAddr := validity.2
  failIf (env.getCUFromExtAddress chain canonicalToAddr).isSome
    (errInvalidTx "withdrawal to a chain CU :%v not support, use send cmd directly instead")
  failIf (!tokenInfo.withdrawalEnabled || !tokenInfo.sendEnabled || !env.isSendEnabled)
    (errTransactionIsNotEnabled "%v's withdraw is not enabled temporary")
  failIf (s.ok.isExist orderID) (errInvalidTx "order %v already exists")
  let withdrawalFee ← tokenInfo.withdrawalFee (env.withdrawalFeeRate symbol)
  failIf (gasFee < withdrawalFee.2) (errInsufficientFee "need:%v, actual have:%v")
  let feeCoins := newCoins (← newCoin chain gasFee)
  let coins := newCoins (← newCoin symbol amt)
  let need := coins.add feeCoins
  let trk ← s.trk.lockCoins fromCUAddr need
  -- `NewOrder` does not refuse here: the ID was checked free above
  let created ← orFail
    (s.ok.newOrderWithdrawal height fromCUAddr orderID symbol amt gasFee 0 canonicalToAddr "" "")
    (errInvalidOrder "Fail to create order:%v")
  let withdrawalOrder := { created.1 with
    withdrawStatus := if tokenInfo.tokenType = .utxoBased then .valid else .unconfirmed }
  pure { s with ok := created.2.setOrder env.isValidAddr (.withdrawal withdrawalOrder), trk := trk }

/-- **`BaseKeeper.WithdrawalConfirm`**: cast `TxVote(0, valid)` in the box of
the order ID. The ballot that confirms the box marks the order valid, or
invalid, cancelling it and releasing the amount and the fee. -/
def withdrawalConfirm (s : State) (height : ℕ) (fromCUAddr : CUAddress) (orderID : String)
    (valid : Bool) : Except Failure State := do
  failIf (!env.isActiveKeyNode fromCUAddr) (errInvalidTx "withdrawal from not a validator :%v")
  let order ← orFail (s.ok.getOrder orderID) (errInvalidTx "orderid:%v does not exist")
  let withdrawOrder ← orFail order.asWithdrawal (errInvalidTx "Not withdraw order")
  failIf (withdrawOrder.status ≠ .begin) (errInvalidTx "invalid order status")
  let tokenInfo ← orFail (env.getIBCToken withdrawOrder.symbol) (errInternal "token %s not exists")
  failIf (tokenInfo.tokenType = .utxoBased) (errInvalidTx "unexpected token type")
  let voted := s.evidence.vote orderID fromCUAddr (newTxVote 0 valid) height env.keyNodeCount
  let s := { s with evidence := voted.2 }
  if voted.1.1 then
    if valid then
      pure { s with
        ok := s.ok.setOrder env.isValidAddr (.withdrawal { withdrawOrder with withdrawStatus := .valid }) }
    else do
      let withdrawOrder := { withdrawOrder with withdrawStatus := .invalid, status := .cancel }
      let feeCoins := newCoins (← newCoin tokenInfo.chain withdrawOrder.gasFee)
      let withdrawCoins := newCoins (← newCoin withdrawOrder.symbol withdrawOrder.amount)
      let totalCoins := withdrawCoins.add feeCoins
      let trk ← s.trk.unlockCoins withdrawOrder.cuAddress totalCoins
      pure { s with ok := s.ok.setOrder env.isValidAddr (.withdrawal withdrawOrder), trk := trk }
  else pure s

/-- The update loops of the two signing handlers: load each order, assert it
is a withdrawal (a Go type assertion, which panics on anything else), change
it, and store it back. -/
def updateWithdrawalOrders (update : OrderWithdrawal → OrderWithdrawal) (ok : Keeper) :
    List String → Except Failure Keeper
  | [] => .ok ok
  | orderID :: orderIDs => do
    let order ← orFail (ok.getOrder orderID) interfaceConversion
    let withdrawalOrder ← orFail order.asWithdrawal interfaceConversion
    updateWithdrawalOrders update (ok.setOrder env.isValidAddr (.withdrawal (update withdrawalOrder)))
      orderIDs

/-- **`BaseKeeper.WithdrawalWaitSign`**: record the operation CU and the raw
transaction on orders in `Begin`, which move to `WaitSign`. -/
def withdrawalWaitSign (s : State) (height : ℕ) (opCUAddr : CUAddress)
    (orderIDs signHashes : List String) (rawData : String) : Except Failure State := do
  let checked ← checkWithdrawalOrders env.toEnv s orderIDs .begin
  let signing ← env.opCUWaitSign checked.1 opCUAddr checked.2 signHashes rawData
  let ok ← updateWithdrawalOrders env
    (fun w =>
      { w with
        opCUaddress := opCUAddr, fromAddress := signing.fromAddr, costFee := signing.costFee,
        utxoInNum := signing.utxoInNum, height := height, status := .waitSign, rawData := rawData })
    s.ok orderIDs
  pure { s with ok := ok }

/-- **`BaseKeeper.WithdrawalSignFinish`**: record the signed transaction and
its hash on orders in `WaitSign`, which move to `SignFinish`. -/
def withdrawalSignFinish (s : State) (orderIDs : List String) (signedTx : String) :
    Except Failure State := do
  let checked ← checkWithdrawalOrders env.toEnv s orderIDs .waitSign
  let txHash ← env.opCUSignFinish checked.1 checked.2 signedTx
  let ok ← updateWithdrawalOrders env
    (fun w => { w with status := .signFinish, signedTx := signedTx, txhash := txHash }) s.ok orderIDs
  pure { s with ok := ok }

/-- **`BaseKeeper.CancelWithdrawal`**: the owner cancels a valid order in
`Begin` and gets the amount and the fee back. The token is read without a
nil check. -/
def cancelWithdrawal (s : State) (fromCUAddr : CUAddress) (orderID : String) :
    Except Failure State := do
  let _ ← orFail (env.getCU fromCUAddr) (errInvalidAccount fromCUAddr)
  let order ← orFail (s.ok.getOrder orderID) (errInvalidOrder "Get WithDrawalOrder(%v) Err")
  let withdrawalOrder ← orFail order.asWithdrawal (errInvalidOrder "order %v is not withdrawal order")
  failIf (withdrawalOrder.cuAddress ≠ fromCUAddr)
    (errInvalidAddr "cancel withdrawal order invalid addr(%v:%v)")
  failIf (withdrawalOrder.status ≠ .begin) (errInvalidTx "cancel withdrawal order status not ok:%v")
  failIf (withdrawalOrder.withdrawStatus ≠ .valid) (errInvalidTx "cancel withdrawal not confirmed")
  let tokenInfo ← orFail (env.getIBCToken withdrawalOrder.symbol) nilPointerDereference
  let feeCoins := newCoins (← newCoin tokenInfo.chain withdrawalOrder.gasFee)
  let coins := newCoins (← newCoin withdrawalOrder.symbol withdrawalOrder.amount)
  let need := coins.add feeCoins
  let trk ← s.trk.unlockCoins fromCUAddr need
  pure { s with
    ok := s.ok.setOrder env.isValidAddr (.withdrawal { withdrawalOrder with status := .cancel }),
    trk := trk }

/-! ## The messages -/

/-- `MsgWithdrawal`. -/
structure MsgWithdrawal where
  fromCU : String
  toMultisignAddress : String
  symbol : String
  amount : ℤ
  gasFee : ℤ
  orderID : String
  deriving DecidableEq, Repr

/-- `MsgWithdrawalConfirm`. -/
structure MsgWithdrawalConfirm where
  fromCU : String
  orderID : String
  valid : Bool
  deriving DecidableEq, Repr

/-- `MsgWithdrawalWaitSign`; sign hashes and raw data are byte strings. -/
structure MsgWithdrawalWaitSign where
  opCU : String
  orderIDs : List String
  signHashes : List String
  rawData : String
  validator : String
  deriving DecidableEq, Repr

/-- `MsgWithdrawalSignFinish`. -/
structure MsgWithdrawalSignFinish where
  orderIDs : List String
  signedTx : String
  validator : String
  deriving DecidableEq, Repr

/-- `MsgCancelWithdrawal`. -/
structure MsgCancelWithdrawal where
  fromCU : String
  orderID : String
  deriving DecidableEq, Repr

/-- **`MsgWithdrawal.ValidateBasic`**. -/
def MsgWithdrawal.validateBasic (msg : MsgWithdrawal) : Except Failure Unit := do
  failIf (env.cuAddressFromBase58 msg.fromCU).isNone (errInvalidAddress "address is invalid")
  failIf (msg.toMultisignAddress = "") (errInvalidAddress "address is invalid")
  failIf (msg.orderID = "") (errInvalidInput "orderid is nil")
  failIf (msg.amount ≤ 0) (errInvalidAmount "amount is not positive")
  failIf (msg.gasFee ≤ 0) (errInvalidAmount "gasFee is not positive")

/-- `MsgWithdrawalConfirm.ValidateBasic`. -/
def MsgWithdrawalConfirm.validateBasic (msg : MsgWithdrawalConfirm) : Except Failure Unit := do
  failIf (env.cuAddressFromBase58 msg.fromCU).isNone (errInvalidAddress "address is invalid")
  failIf (msg.orderID = "") (errInvalidInput "orderid is nil")

/-- `MsgWithdrawalWaitSign.ValidateBasic`. -/
def MsgWithdrawalWaitSign.validateBasic (msg : MsgWithdrawalWaitSign) : Except Failure Unit := do
  failIf (env.cuAddressFromBase58 msg.opCU).isNone (errInvalidAddress "address is invalid")
  failIf (env.cuAddressFromBase58 msg.validator).isNone (errInvalidAddress "address is invalid")
  failIf (isIllegalOrderIDList env.isIllegalOrderID [] msg.orderIDs) (errInvalidInput "orderid is nil")
  failIf (msg.rawData = "") (errInvalidInput "raw data is nil")
  failIf (msg.orderIDs = []) (errInvalidInput "orderid is nil")

/-- `MsgWithdrawalSignFinish.ValidateBasic`. -/
def MsgWithdrawalSignFinish.validateBasic (msg : MsgWithdrawalSignFinish) :
    Except Failure Unit := do
  failIf (env.cuAddressFromBase58 msg.validator).isNone (errInvalidAddress "address is invalid")
  failIf (isIllegalOrderIDList env.isIllegalOrderID [] msg.orderIDs) (errInvalidInput "orderid is nil")
  failIf (msg.signedTx = "") (errInvalidInput "sign tx is nil")
  failIf (msg.orderIDs = []) (errInvalidInput "orderid is nil")

/-- `MsgCancelWithdrawal.ValidateBasic`. -/
def MsgCancelWithdrawal.validateBasic (msg : MsgCancelWithdrawal) : Except Failure Unit := do
  failIf (env.cuAddressFromBase58 msg.fromCU).isNone (errInvalidAddress "address is invalid")
  failIf (env.isIllegalOrderID msg.orderID) (errInvalidInput "orderid is nil")

/-- **`handleMsgWithdrawal`**. -/
def handleMsgWithdrawal (s : State) (height : ℕ) (msg : MsgWithdrawal) : Except Failure State := do
  failIf (!env.isSendEnabled) errSendDisabled
  let fromCUAddr ← orFail (env.cuAddressFromBase58 msg.fromCU) (errInvalidAddr "invalid to CU:%v")
  withdrawal env s height fromCUAddr msg.toMultisignAddress msg.orderID msg.symbol msg.amount
    msg.gasFee

/-- **`handleMsgWithdrawalConfirm`**. -/
def handleMsgWithdrawalConfirm (s : State) (height : ℕ) (msg : MsgWithdrawalConfirm) :
    Except Failure State := do
  failIf (!env.isSendEnabled) errSendDisabled
  let fromCUAddr ← orFail (env.cuAddressFromBase58 msg.fromCU) (errInvalidAddr "invalid to CU:%v")
  withdrawalConfirm env s height fromCUAddr msg.orderID msg.valid

/-- **`handleMsgWithdrawalWaitSign`**. The error of parsing the operation
CU's address is dropped; `ValidateBasic` has parsed it. -/
def handleMsgWithdrawalWaitSign (s : State) (height : ℕ) (msg : MsgWithdrawalWaitSign) :
    Except Failure State := do
  failIf (!env.isSendEnabled) errSendDisabled
  let opCU := (env.cuAddressFromBase58 msg.opCU).getD ""
  withdrawalWaitSign env s height opCU msg.orderIDs msg.signHashes msg.rawData

/-- **`handleMsgWithdrawalSignFinish`**. -/
def handleMsgWithdrawalSignFinish (s : State) (msg : MsgWithdrawalSignFinish) :
    Except Failure State := do
  failIf (!env.isSendEnabled) errSendDisabled
  withdrawalSignFinish env s msg.orderIDs msg.signedTx

/-- **`handleMsgCancelWithdrawal`**. -/
def handleMsgCancelWithdrawal (s : State) (msg : MsgCancelWithdrawal) : Except Failure State := do
  failIf (!env.isSendEnabled) errSendDisabled
  let fromCUAddr ← orFail (env.cuAddressFromBase58 msg.fromCU) (errInvalidAddr "invalid to CU:%v")
  cancelWithdrawal env s fromCUAddr msg.orderID

/-! ## What the checks establish -/

section checks

variable {env₀ : Env} {s : State} {orderStatus firstStatus : OrderStatus} {chain symbol : Denom}
  {first : OrderWithdrawal}

/-- **What `checkWithdrawalOrders` checks of one order**: it is stored as a
withdrawal, in a status that the expected one matches and that equals the
first order's, confirmed valid, with the first order's symbol and
transaction hash. -/
def WithdrawalOrderChecked (s : State) (orderStatus firstStatus : OrderStatus) (symbol : Denom)
    (txhash orderID : String) (w : OrderWithdrawal) : Prop :=
  s.ok.getOrder orderID = some (.withdrawal w) ∧ orderStatus.match w.status = true ∧
    w.status = firstStatus ∧ w.withdrawStatus = .valid ∧ w.symbol = symbol ∧ w.txhash = txhash

theorem checkWithdrawalOrder_eq_ok {orderID : String} {w : OrderWithdrawal}
    (h : checkWithdrawalOrder env₀ s orderStatus firstStatus chain symbol first orderID = .ok w) :
    WithdrawalOrderChecked s orderStatus firstStatus symbol first.txhash orderID w := by
  unfold checkWithdrawalOrder at h
  simp only [bind_eq_ok, orFail_eq_ok, failIf_eq_ok] at h
  obtain ⟨order, hget, w', hw', -, hmatch, -, hfirst, -, hvalid, -, -, -, -, -, hsym, -, hhash, -, -,
    -, -, _cuType, -, -, -, _feeCoin, -, _coin, -, hlast⟩ := h
  rw [Order.asWithdrawal_eq_some] at hw'
  subst hw'
  -- both branches of the balance check end in `pure w'`
  have hw : w = w' := by
    split at hlast
    · obtain ⟨-, -, hpure⟩ := bind_eq_ok.mp hlast
      exact (pure_eq_ok.mp hpure).symm
    · obtain ⟨-, -, hrest⟩ := bind_eq_ok.mp hlast
      obtain ⟨-, -, hrest⟩ := bind_eq_ok.mp hrest
      obtain ⟨-, -, hpure⟩ := bind_eq_ok.mp hrest
      exact (pure_eq_ok.mp hpure).symm
  subst hw
  exact ⟨hget, by simpa using hmatch, (not_not.mp hfirst).symm, not_not.mp hvalid, not_not.mp hsym,
    not_not.mp hhash⟩

/-- The loop of `checkWithdrawalOrders`: distinct IDs not seen before, each
of a checked order, and the orders it returns among them. -/
theorem checkWithdrawalOrderList_eq_ok :
    ∀ (seen orderIDs : List String) {ws : List OrderWithdrawal},
      checkWithdrawalOrderList env₀ s orderStatus firstStatus chain symbol first seen orderIDs =
        .ok ws →
      (∀ id ∈ orderIDs, id ∉ seen) ∧ orderIDs.Nodup ∧
        (∀ id ∈ orderIDs, ∃ w,
          WithdrawalOrderChecked s orderStatus firstStatus symbol first.txhash id w) ∧
        ∀ w ∈ ws, ∃ id ∈ orderIDs,
          WithdrawalOrderChecked s orderStatus firstStatus symbol first.txhash id w
  | _, [], _, h => by
    cases h
    simp
  | seen, orderID :: orderIDs, _, h => by
    simp only [checkWithdrawalOrderList, bind_eq_ok, failIf_eq_ok, pure_eq_ok] at h
    obtain ⟨-, hfresh, w, hw, ws, hrest, rfl⟩ := h
    obtain ⟨hunseen, hnodup, hall, hmem⟩ := checkWithdrawalOrderList_eq_ok (orderID :: seen) orderIDs hrest
    have hcheck := checkWithdrawalOrder_eq_ok hw
    refine ⟨fun id hid => ?_, List.nodup_cons.mpr ⟨fun h => hunseen orderID h List.mem_cons_self,
      hnodup⟩, fun id hid => ?_, fun w' hw' => ?_⟩
    · rcases List.mem_cons.mp hid with rfl | hid
      · exact hfresh
      · exact fun h => hunseen id hid (List.mem_cons_of_mem _ h)
    · rcases List.mem_cons.mp hid with rfl | hid
      · exact ⟨w, hcheck⟩
      · exact hall id hid
    · rcases List.mem_cons.mp hw' with rfl | hw'
      · exact ⟨orderID, List.mem_cons_self, hcheck⟩
      · obtain ⟨id, hid, hc⟩ := hmem w' hw'
        exact ⟨id, List.mem_cons_of_mem _ hid, hc⟩

/-- **What `checkWithdrawalOrders` establishes**: a first order of a known
token, and distinct IDs, each of an order checked against the first one;
the orders it returns are among them. -/
theorem checkWithdrawalOrders_eq_ok {orderIDs : List String} {tokenInfo : IBCToken}
    {ws : List OrderWithdrawal}
    (h : checkWithdrawalOrders env₀ s orderIDs orderStatus = .ok (tokenInfo, ws)) :
    ∃ orderID₀ w₀, orderIDs.head? = some orderID₀ ∧ s.ok.getOrder orderID₀ = some (.withdrawal w₀) ∧
      env₀.getIBCToken w₀.symbol = some tokenInfo ∧ orderIDs.Nodup ∧
      (∀ id ∈ orderIDs, ∃ w,
        WithdrawalOrderChecked s orderStatus w₀.status w₀.symbol w₀.txhash id w) ∧
      ∀ w ∈ ws, ∃ id ∈ orderIDs,
        WithdrawalOrderChecked s orderStatus w₀.status w₀.symbol w₀.txhash id w := by
  unfold checkWithdrawalOrders at h
  simp only [bind_eq_ok, orFail_eq_ok, failIf_eq_ok, pure_eq_ok] at h
  obtain ⟨orderID₀, hhead, order, hget, w₀, hw₀, tokenInfo', htoken, -, -, ws', hlist, -, -, heq⟩ := h
  rw [Order.asWithdrawal_eq_some] at hw₀
  subst hw₀
  obtain ⟨rfl, rfl⟩ := Prod.mk.inj heq
  obtain ⟨-, hnodup, hall, hmem⟩ := checkWithdrawalOrderList_eq_ok [] orderIDs hlist
  exact ⟨orderID₀, w₀, hhead, hget, htoken, hnodup, hall, hmem⟩

end checks

/-! ## What each call does -/

section calls

variable {env} {s s' : State} {height : ℕ} {fromCUAddr : CUAddress} {orderID : String}

/-- **A withdrawal request** of a CU, for a known token and a fresh ID, locks
the amount and the fee and stores a new order in `Begin`. -/
theorem withdrawal_eq_ok {toAddr symbol : String} {amt gasFee : ℤ}
    (h : withdrawal env s height fromCUAddr toAddr orderID symbol amt gasFee = .ok s') :
    ∃ cuType tokenInfo w₀ w, env.getCU fromCUAddr = some cuType ∧
      env.getIBCToken symbol = some tokenInfo ∧ s.ok.getOrder orderID = none ∧
      s.trk.lockCoins fromCUAddr ((newCoins (symbol, amt)).add (newCoins (tokenInfo.chain, gasFee))) =
        .ok s'.trk ∧
      w₀.id = orderID ∧ w₀.orderType = .withdrawal ∧ w.id = orderID ∧ w.cuAddress = fromCUAddr ∧
      w.symbol = symbol ∧ w.amount = amt ∧ w.gasFee = gasFee ∧ w.status = .begin ∧
      s'.ok = (s.ok.addProcessOrder (.withdrawal w₀)).setOrder env.isValidAddr (.withdrawal w) ∧
      s'.evidence = s.evidence := by
  unfold withdrawal at h
  simp only [bind_eq_ok, orFail_eq_ok, failIf_eq_ok, pure_eq_ok] at h
  obtain ⟨-, -, cuType, hcu, -, -, tokenInfo, htoken, -, -, -, -, -, -, -, hfresh, -, -, -, -,
    feeCoin, hfeeCoin, coin, hcoin, trk, hlock, created, hcreated, rfl⟩ := h
  obtain ⟨-, -, rfl⟩ := newCoin_eq_ok.mp hfeeCoin
  obtain ⟨-, -, rfl⟩ := newCoin_eq_ok.mp hcoin
  obtain ⟨-, hid, haddr, hsym, hamt, hfee, hstatus, htype, hok⟩ := Keeper.newOrderWithdrawal_eq_some hcreated
  have hnone : s.ok.getOrder orderID = none := by
    simpa [Keeper.isExist, KVStore.Store.has, Keeper.getOrder] using hfresh
  exact ⟨cuType, tokenInfo, created.1, { created.1 with
    withdrawStatus := if tokenInfo.tokenType = .utxoBased then .valid else .unconfirmed }, hcu, htoken,
    hnone, hlock, hid, htype, hid, haddr, hsym, hamt, hfee, hstatus, by rw [hok], rfl⟩

/-- **A confirmation report** on an order in `Begin` casts its ballot; the
ballot that confirms the box marks the order valid, or cancels it and
releases the amount and the fee. -/
theorem withdrawalConfirm_eq_ok {valid : Bool}
    (h : withdrawalConfirm env s height fromCUAddr orderID valid = .ok s') :
    ∃ w tokenInfo flags ev, s.ok.getOrder orderID = some (.withdrawal w) ∧ w.status = .begin ∧
      env.getIBCToken w.symbol = some tokenInfo ∧
      s.evidence.vote orderID fromCUAddr (newTxVote 0 valid) height env.keyNodeCount = (flags, ev) ∧
      s'.evidence = ev ∧
      (flags.1 = false → s'.ok = s.ok ∧ s'.trk = s.trk) ∧
      (flags.1 = true → valid = true →
        s'.ok = s.ok.setOrder env.isValidAddr (.withdrawal { w with withdrawStatus := .valid }) ∧
          s'.trk = s.trk) ∧
      (flags.1 = true → valid = false →
        s'.ok = s.ok.setOrder env.isValidAddr
          (.withdrawal { w with withdrawStatus := .invalid, status := .cancel }) ∧
        s.trk.unlockCoins w.cuAddress
          ((newCoins (w.symbol, w.amount)).add (newCoins (tokenInfo.chain, w.gasFee))) = .ok s'.trk) := by
  unfold withdrawalConfirm at h
  simp only [bind_eq_ok, orFail_eq_ok, failIf_eq_ok] at h
  obtain ⟨-, -, order, hget, w, hw, -, hbegin, tokenInfo, htoken, -, -, h⟩ := h
  rw [Order.asWithdrawal_eq_some] at hw
  subst hw
  refine ⟨w, tokenInfo,
    (s.evidence.vote orderID fromCUAddr (newTxVote 0 valid) height env.keyNodeCount).1,
    (s.evidence.vote orderID fromCUAddr (newTxVote 0 valid) height env.keyNodeCount).2, hget,
    not_not.mp hbegin, htoken, rfl, ?_⟩
  -- the branch on the first-confirmation flag, then on the report
  cases hflag : (s.evidence.vote orderID fromCUAddr (newTxVote 0 valid) height
    env.keyNodeCount).1.1 with
  | false =>
    rw [hflag, if_neg Bool.false_ne_true, pure_eq_ok] at h
    subst h
    exact ⟨rfl, fun _ => ⟨rfl, rfl⟩, fun h => absurd h Bool.false_ne_true,
      fun h => absurd h Bool.false_ne_true⟩
  | true =>
    rw [hflag, if_pos rfl] at h
    cases valid with
    | true =>
      rw [if_pos rfl, pure_eq_ok] at h
      subst h
      exact ⟨rfl, fun h => Bool.noConfusion h, fun _ _ => ⟨rfl, rfl⟩, fun _ h => Bool.noConfusion h⟩
    | false =>
      rw [if_neg Bool.false_ne_true] at h
      simp only [bind_eq_ok, pure_eq_ok] at h
      obtain ⟨feeCoin, hfeeCoin, coin, hcoin, trk, hunlock, rfl⟩ := h
      obtain ⟨-, -, rfl⟩ := newCoin_eq_ok.mp hfeeCoin
      obtain ⟨-, -, rfl⟩ := newCoin_eq_ok.mp hcoin
      exact ⟨rfl, fun h => Bool.noConfusion h, fun _ h => Bool.noConfusion h, fun _ _ => ⟨rfl, hunlock⟩⟩

/-- **A cancellation** by the owner of a valid order in `Begin` releases the
amount and the fee and ends the order `Cancel`. -/
theorem cancelWithdrawal_eq_ok (h : cancelWithdrawal env s fromCUAddr orderID = .ok s') :
    ∃ w tokenInfo, s.ok.getOrder orderID = some (.withdrawal w) ∧ w.cuAddress = fromCUAddr ∧
      w.status = .begin ∧ env.getIBCToken w.symbol = some tokenInfo ∧
      s.trk.unlockCoins fromCUAddr
        ((newCoins (w.symbol, w.amount)).add (newCoins (tokenInfo.chain, w.gasFee))) = .ok s'.trk ∧
      s'.ok = s.ok.setOrder env.isValidAddr (.withdrawal { w with status := .cancel }) ∧
      s'.evidence = s.evidence := by
  unfold cancelWithdrawal at h
  simp only [bind_eq_ok, orFail_eq_ok, failIf_eq_ok, pure_eq_ok] at h
  obtain ⟨-, -, order, hget, w, hw, -, haddr, -, hbegin, -, -, tokenInfo, htoken, feeCoin, hfeeCoin,
    coin, hcoin, trk, hunlock, rfl⟩ := h
  rw [Order.asWithdrawal_eq_some] at hw
  subst hw
  obtain ⟨-, -, rfl⟩ := newCoin_eq_ok.mp hfeeCoin
  obtain ⟨-, -, rfl⟩ := newCoin_eq_ok.mp hcoin
  exact ⟨w, tokenInfo, hget, not_not.mp haddr, not_not.mp hbegin, htoken, hunlock, rfl, rfl⟩

/-- **The update loop on distinct stored withdrawals** writes each one's
update in its place, leaves every other order, and keeps the store
invariant, for an update that keeps the ID and the owner. -/
theorem updateWithdrawalOrders_eq_ok {update : OrderWithdrawal → OrderWithdrawal}
    (hid : ∀ w, (update w).id = w.id) (haddr : ∀ w, (update w).cuAddress = w.cuAddress) :
    ∀ (orderIDs : List String) {ok ok' : Keeper}, ok.WF env.isValidAddr → orderIDs.Nodup →
      (∀ id ∈ orderIDs, ∃ w, ok.getOrder id = some (.withdrawal w)) →
      updateWithdrawalOrders env update ok orderIDs = .ok ok' →
      ok'.WF env.isValidAddr ∧ (∀ id ∉ orderIDs, ok'.getOrder id = ok.getOrder id) ∧
        ∀ id ∈ orderIDs, ∃ w, ok.getOrder id = some (.withdrawal w) ∧
          ok'.getOrder id = some (.withdrawal (update w))
  | [], _, _, hk, _, _, h => by
    cases h
    exact ⟨hk, fun _ _ => rfl, fun _ h => (by cases h)⟩
  | orderID :: orderIDs, ok, ok', hk, hnodup, hstored, h => by
    simp only [updateWithdrawalOrders, bind_eq_ok, orFail_eq_ok] at h
    obtain ⟨order, hget, w, hw, hrest⟩ := h
    rw [Order.asWithdrawal_eq_some] at hw
    subst hw
    obtain ⟨hnotin, hnodup'⟩ := List.nodup_cons.mp hnodup
    -- the written order sits under its own ID, which the rest of the loop does not visit
    have hself : (ok.setOrder env.isValidAddr (.withdrawal (update w))).getOrder orderID =
        some (.withdrawal (update w)) :=
      hk.getOrder_setOrder_update hget (by simp [hid]) (by simp [Order.getCUAddress, Order.base,
        haddr])
    have hframe : ∀ id, id ≠ orderID →
        (ok.setOrder env.isValidAddr (.withdrawal (update w))).getOrder id = ok.getOrder id := by
      intro id hne
      refine Keeper.getOrder_setOrder_of_ne _ _ _ ?_
      rw [Order.getID_withdrawal, hid, ← Order.getID_withdrawal, hk.keys_agree orderID _ hget]
      exact hne
    have hstored' : ∀ id ∈ orderIDs, ∃ w',
        (ok.setOrder env.isValidAddr (.withdrawal (update w))).getOrder id = some (.withdrawal w') := by
      intro id hid'
      obtain ⟨w', hw'⟩ := hstored id (List.mem_cons_of_mem _ hid')
      exact ⟨w', (hframe id fun h => hnotin (h ▸ hid')).trans hw'⟩
    obtain ⟨hk', hout, hin⟩ := updateWithdrawalOrders_eq_ok hid haddr orderIDs (hk.setOrder _) hnodup'
      hstored' hrest
    refine ⟨hk', fun id hid' => ?_, fun id hid' => ?_⟩
    · rw [List.mem_cons, not_or] at hid'
      rw [hout id hid'.2, hframe id hid'.1]
    · by_cases hmem : id ∈ orderIDs
      · obtain ⟨w', hw', hw''⟩ := hin id hmem
        exact ⟨w', (hframe id fun h => hnotin (h ▸ hmem)).symm.trans hw', hw''⟩
      · have hid'' : id = orderID := (List.mem_cons.mp hid').resolve_right hmem
        subst hid''
        exact ⟨w, hget, (hout id hmem).trans hself⟩

/-- **A signing step** (`WithdrawalWaitSign` from `Begin`, `WithdrawalSignFinish`
from `WaitSign`): distinct orders, all stored withdrawals in the expected
status, are rewritten by an update that keeps ID, owner, symbol, amount
and fee and sets the next status; nothing else changes. -/
def SignsOrders (env : WithdrawalEnv) (s s' : State) (orderIDs : List String)
    (before after : OrderStatus) : Prop :=
  orderIDs.Nodup ∧ (∀ id ∈ orderIDs, ∃ w, s.ok.getOrder id = some (.withdrawal w) ∧ w.status = before) ∧
    (∃ update : OrderWithdrawal → OrderWithdrawal,
      (∀ w, (update w).id = w.id ∧ (update w).cuAddress = w.cuAddress ∧ (update w).symbol = w.symbol ∧
        (update w).amount = w.amount ∧ (update w).gasFee = w.gasFee ∧ (update w).status = after) ∧
      updateWithdrawalOrders env update s.ok orderIDs = .ok s'.ok) ∧
    s'.trk = s.trk ∧ s'.evidence = s.evidence

/-- The checks of a signing step, read for an expected status other than
`SignFinish`, which matches only itself. -/
theorem checked_status {orderStatus : OrderStatus} (hs : orderStatus ≠ .signFinish) {s : State}
    {firstStatus : OrderStatus} {symbol : Denom} {txhash id : String} {w : OrderWithdrawal}
    (h : WithdrawalOrderChecked s orderStatus firstStatus symbol txhash id w) :
    s.ok.getOrder id = some (.withdrawal w) ∧ w.status = orderStatus :=
  ⟨h.1, ((OrderStatus.match_iff_of_ne hs).mp h.2.1).symm⟩

theorem withdrawalWaitSign_eq_ok {opCUAddr : CUAddress} {orderIDs signHashes : List String}
    {rawData : String} (h : withdrawalWaitSign env s height opCUAddr orderIDs signHashes rawData = .ok s') :
    SignsOrders env s s' orderIDs .begin .waitSign := by
  unfold withdrawalWaitSign at h
  simp only [bind_eq_ok, pure_eq_ok] at h
  obtain ⟨⟨tokenInfo, ws⟩, hcheck, signing, -, ok, hloop, rfl⟩ := h
  obtain ⟨_, _w₀, -, -, -, hnodup, hall, -⟩ := checkWithdrawalOrders_eq_ok hcheck
  refine ⟨hnodup, fun id hid => ?_, ⟨_, fun w => ?_, hloop⟩, rfl, rfl⟩
  · obtain ⟨w, hw⟩ := hall id hid
    exact ⟨w, checked_status (by decide) hw⟩
  · exact ⟨rfl, rfl, rfl, rfl, rfl, rfl⟩

theorem withdrawalSignFinish_eq_ok {orderIDs : List String} {signedTx : String}
    (h : withdrawalSignFinish env s orderIDs signedTx = .ok s') :
    SignsOrders env s s' orderIDs .waitSign .signFinish := by
  unfold withdrawalSignFinish at h
  simp only [bind_eq_ok, pure_eq_ok] at h
  obtain ⟨⟨tokenInfo, ws⟩, hcheck, txHash, -, ok, hloop, rfl⟩ := h
  obtain ⟨_, _w₀, -, -, -, hnodup, hall, -⟩ := checkWithdrawalOrders_eq_ok hcheck
  refine ⟨hnodup, fun id hid => ?_, ⟨_, fun w => ?_, hloop⟩, rfl, rfl⟩
  · obtain ⟨w, hw⟩ := hall id hid
    exact ⟨w, checked_status (by decide) hw⟩
  · exact ⟨rfl, rfl, rfl, rfl, rfl, rfl⟩

end calls

/-! ## The machine

The transfer module's handler (`NewHandler`) on the withdrawal messages,
and the chain applying one transaction after another. -/

namespace Lifecycle

/-- The withdrawal messages of the transfer module. -/
inductive Msg where
  | withdrawal (msg : MsgWithdrawal)
  | withdrawalConfirm (msg : MsgWithdrawalConfirm)
  | withdrawalWaitSign (msg : MsgWithdrawalWaitSign)
  | withdrawalSignFinish (msg : MsgWithdrawalSignFinish)
  | withdrawalFinish (msg : MsgWithdrawalFinish)
  | cancelWithdrawal (msg : MsgCancelWithdrawal)
  deriving DecidableEq, Repr

/-- `ValidateBasic` of each message. -/
def Msg.validateBasic : Msg → Except Failure Unit
  | .withdrawal msg => msg.validateBasic env
  | .withdrawalConfirm msg => msg.validateBasic env
  | .withdrawalWaitSign msg => msg.validateBasic env
  | .withdrawalSignFinish msg => msg.validateBasic env
  | .withdrawalFinish msg => msg.validateBasic env.toEnv
  | .cancelWithdrawal msg => msg.validateBasic env

/-- **`NewHandler`** on the withdrawal messages. -/
def handler (s : State) (height : ℕ) : Msg → Except Failure State
  | .withdrawal msg => handleMsgWithdrawal env s height msg
  | .withdrawalConfirm msg => handleMsgWithdrawalConfirm env s height msg
  | .withdrawalWaitSign msg => handleMsgWithdrawalWaitSign env s height msg
  | .withdrawalSignFinish msg => handleMsgWithdrawalSignFinish env s msg
  | .withdrawalFinish msg => handleMsgWithdrawalFinish env.toEnv s height msg
  | .cancelWithdrawal msg => handleMsgCancelWithdrawal env s msg

/-- A transaction carrying one withdrawal message, at a block height. -/
structure Tx where
  height : ℕ
  msg : Msg
  deriving DecidableEq, Repr

/-- `DeliverTx`: the checks of `ValidateBasic`, then the handler. -/
def deliverTx (s : State) (tx : Tx) : Except Failure State := do
  tx.msg.validateBasic env
  handler env s tx.height tx.msg

/-- A transaction's effect on the state: its writes, or none of them. -/
def step (s : State) (tx : Tx) : State := commit (fun s => deliverTx env s tx) s

/-- The state at genesis: the balances, nothing held, no order and no vote. -/
def init (balance : CUAddress × Denom → ℤ) : State :=
  ⟨Keeper.empty, ⟨balance, fun _ => 0⟩, Evidence.Keeper.empty⟩

end Lifecycle

end Transfer
