import Bhchain.Transfer.Balance
import Bhchain.Types.Token
import Bhchain.Evidence.Keeper
import Bhchain.Order.Keeper

/-!
# Finishing a withdrawal (`x/transfer/keeper/withdrawal.go`)

A withdrawal moves a user's tokens to an address on the external chain.
When the request is made, the amount and the gas fee are locked in the
user's held balance and an order records them. The key nodes then sign a
transaction that pays out from an operation CU, broadcast it, and each
key node reports the outcome with `MsgWithdrawalFinish`: the gas the
transaction cost and whether it succeeded on the chain.

Each report is a ballot in the evidence box of the external transaction
hash. Only the report whose ballot confirms the box settles the orders:
the held amount and fee are spent, excess gas of a chain-token withdrawal
is refunded, and the order ends `Finish`, or `Failed` with the withdrawn
amount refunded.

The ballot a report casts is `TxVote(costFee, true)`, whatever the
report's `Valid` says, while the settlement reads the `Valid` of the
report that happened to confirm. `withdrawalFinish_settles_by_report` says
so for every call: the ballot does not depend on `Valid` and the status
every order ends in is the confirming report's. Reports from different
key nodes that agree on the cost fee and disagree on `Valid` are counted
as one vote, so one key node reporting `Valid = false` at the right moment
fails a withdrawal that the others saw succeed
(`withdrawalFinish_one_invalid_report_fails_order`).

The operation CU's side of the settlement (its held assets, UTXOs, gas
accounts and nonces, and the chain node queries that check the signed
transaction) is a parameter of the environment that may fail with an
error; the model keeps what it does to the orders.
-/

namespace Transfer

open Sdk Transition OrderKeeper

/-- **`TxVote`**: the ballot of a key node on a cross-chain transaction.
Ballots are compared by their JSON encoding, that is field by field. -/
structure TxVote where
  costFee : ℤ
  valid : Bool
  deriving DecidableEq, Repr

/-- `NewTxVote`. -/
def newTxVote (costFee : ℤ) (valid : Bool) : TxVote := ⟨costFee, valid⟩

/-- `CUType`. -/
inductive CUType where
  | user
  | op
  deriving DecidableEq, Repr

/-- What the withdrawal handlers read from the rest of the chain and never
write. -/
structure Env where
  /-- `IsSendEnabled` of the transfer parameters -/
  isSendEnabled : Bool
  /-- `IsActiveKeyNode` of the staking keeper -/
  isActiveKeyNode : CUAddress → Bool
  /-- the size of the current epoch's key node set -/
  keyNodeCount : ℕ
  /-- `CUAddress.IsValidAddr` -/
  isValidAddr : String → Bool
  /-- `CUAddressFromBase58`, `none` on an error -/
  cuAddressFromBase58 : String → Option CUAddress
  /-- `IsIllegalOrderID`: whether an ID fails to parse as a UUID -/
  isIllegalOrderID : String → Bool
  /-- `GetIBCToken` of the token keeper -/
  getIBCToken : Denom → Option IBCToken
  /-- the type of the CU `GetCU` finds, `none` when there is none -/
  getCU : CUAddress → Option CUType
  /-- the checks of the operation CU's side of the settlement, from
  `GetCUIBCAsset` to the chain node queries -/
  opCUSettle : IBCToken → List OrderWithdrawal → ℤ → Except Failure Unit

/-- **The state the withdrawal handlers write**: the orders, the balances,
and the evidence boxes, keyed by the external transaction hash. -/
structure State where
  ok : Keeper
  trk : Balances
  evidence : Evidence.Keeper String (Evidence.VoteBox CUAddress TxVote)

variable (env : Env)

/-! ## `checkWithdrawalOrders` -/

/-- The checks of one order in the loop of `checkWithdrawalOrders`, against
the expected status, the first order's status, token and transaction. -/
def checkWithdrawalOrder (s : State) (orderStatus firstStatus : OrderStatus) (chain symbol : Denom)
    (first : OrderWithdrawal) (orderID : String) : Except Failure OrderWithdrawal := do
  let order ← orFail (s.ok.getOrder orderID) (errNotFoundOrder orderID)
  let withdrawalOrder ← orFail order.asWithdrawal
    (errInvalidOrder "order %v is not a withdrawal order")
  failIf (!orderStatus.match withdrawalOrder.status)
    (errInvalidOrder "order %v status does not match expctedStatus:%v")
  failIf (firstStatus ≠ withdrawalOrder.status)
    (errInvalidTx "orderid:%v's status is %v, not as expected %v")
  failIf (withdrawalOrder.withdrawStatus ≠ .valid)
    (errInvalidOrder "order %s is not confirmed yet or is invalid")
  failIf ((orderStatus = .waitSign ∨ orderStatus = .signFinish) ∧ withdrawalOrder.rawData = "")
    (errInvalidOrder "order %v RawData is empty")
  failIf (orderStatus = .signFinish ∧ (withdrawalOrder.signedTx = "" ∨ withdrawalOrder.txhash = ""))
    (errInvalidOrder "order %v SignTx or ext tx hash is empty")
  failIf (withdrawalOrder.symbol ≠ symbol) (errInvalidOrder "symbol mismatch, need:%v, actual:%v")
  failIf (withdrawalOrder.txhash ≠ first.txhash) (errInvalidOrder "hash mismatch, need:%v, actual:%v")
  failIf (withdrawalOrder.rawData ≠ first.rawData)
    (errInvalidOrder "rawData mismatch, need:%v, actual:%v")
  failIf (withdrawalOrder.signedTx ≠ first.signedTx)
    (errInvalidOrder "signTx mismatch, need:%v, actual:%v")
  let cuType ← orFail (env.getCU withdrawalOrder.cuAddress)
    (errInvalidOrder "order %v's CU does not exist")
  failIf (cuType ≠ .user) (errInvalidOrder "order %v CU type is not user type")
  let feeCoins := newCoins (← newCoin chain withdrawalOrder.gasFee)
  let amtCoins := newCoins (← newCoin symbol withdrawalOrder.amount)
  let need := amtCoins.add feeCoins
  let chanBalance := s.trk.getHoldBalance withdrawalOrder.cuAddress chain
  let symbolBalance := s.trk.getHoldBalance withdrawalOrder.cuAddress symbol
  if chain = symbol then
    failIf (chanBalance < need.amountOf chain) (errInsufficientCoins "need %v, %v have %v")
  else do
    -- `have` is built with `NewCoin` for the error message only
    let _ ← newCoin chain chanBalance
    let _ ← newCoin symbol symbolBalance
    failIf (chanBalance < withdrawalOrder.gasFee ∨ symbolBalance < withdrawalOrder.amount)
      (errInsufficientCoins "need %v, %v have %v")
  pure withdrawalOrder

/-- The loop of `checkWithdrawalOrders`, with the IDs seen so far. -/
def checkWithdrawalOrderList (s : State) (orderStatus firstStatus : OrderStatus)
    (chain symbol : Denom) (first : OrderWithdrawal) :
    List String → List String → Except Failure (List OrderWithdrawal)
  | _, [] => .ok []
  | seen, orderID :: orderIDs => do
    failIf (orderID ∈ seen) (errInvalidOrder "duplicated orderIDs:%v")
    let withdrawalOrder ← checkWithdrawalOrder env s orderStatus firstStatus chain symbol first orderID
    let withdrawalOrders ← checkWithdrawalOrderList s orderStatus firstStatus chain symbol first
      (orderID :: seen) orderIDs
    pure (withdrawalOrder :: withdrawalOrders)

/-- **`checkWithdrawalOrders`**: the orders exist, are withdrawals of one
enabled token in the expected status, carry one transaction, and their
owners hold what they are to pay. For an expected `Cancel` the error is
set without leaving the loop, so it is returned once the loop completes. -/
def checkWithdrawalOrders (s : State) (orderIDs : List String) (orderStatus : OrderStatus) :
    Except Failure (IBCToken × List OrderWithdrawal) := do
  let orderID₀ ← orFail orderIDs.head? indexOutOfRange
  let order ← orFail (s.ok.getOrder orderID₀) (errNotFoundOrder "orderid:%v does not exist")
  let firstStatus := order.getOrderStatus
  let withdrawalOrder ← orFail order.asWithdrawal (errInvalidOrder "order %v is not withdrawal order")
  let symbol := order.base.symbol
  let tokenInfo ← orFail (env.getIBCToken symbol) (errUnSupportToken symbol)
  failIf (!tokenInfo.withdrawalEnabled || !tokenInfo.sendEnabled || !env.isSendEnabled)
    (errTransactionIsNotEnabled "%v's withdrawal is not enabled temporary")
  let withdrawalOrders ← checkWithdrawalOrderList env s orderStatus firstStatus tokenInfo.chain symbol
    withdrawalOrder [] orderIDs
  failIf (orderStatus = .cancel) (errInvalidAddr "order %v is canceled")
  pure (tokenInfo, withdrawalOrders)

/-! ## The settlement -/

/-- The refund of unused gas: a withdrawal of the chain's own token whose
fee exceeds the cost gets the difference back, and its fee becomes the
cost. -/
def gasRefund (chain : Denom) (costFee : ℤ) (withdrawalOrder : OrderWithdrawal) :
    Except Failure (Coins × OrderWithdrawal) :=
  if costFee < withdrawalOrder.gasFee ∧ withdrawalOrder.symbol = chain then do
    let refund ← newCoin chain (withdrawalOrder.gasFee - costFee)
    pure (Coins.add [] (newCoins refund), { withdrawalOrder with gasFee := costFee })
  else pure ([], withdrawalOrder)

/-- `AddCoins` of the refund, called only when there is one. -/
def addRefund (trk : Balances) (addr : CUAddress) (refundCoins : Coins) :
    Except Failure Balances :=
  if refundCoins.isEmpty then .ok trk else trk.addCoins addr refundCoins

/-- **One pass of the settlement loop of `WithdrawalFinish`**: spend the
held amount and fee, refund unused gas, and end the order `Finish`, or
`Failed` with the amount refunded, as `valid` says. -/
def settleWithdrawalOrder (chain symbol : Denom) (costFee : ℤ) (valid : Bool) (s : State)
    (orderID : String) : Except Failure State := do
  let order ← orFail (s.ok.getOrder orderID) interfaceConversion
  let withdrawalOrder ← orFail order.asWithdrawal interfaceConversion
  let fromCUAddr := withdrawalOrder.cuAddress
  let feeCoins := newCoins (← newCoin chain withdrawalOrder.gasFee)
  let withdrawCoins := newCoins (← newCoin symbol withdrawalOrder.amount)
  let totalCoins := withdrawCoins.add feeCoins
  let trk ← s.trk.subCoinsHold fromCUAddr totalCoins
  let (refundCoins, withdrawalOrder) ← gasRefund chain costFee withdrawalOrder
  let withdrawalOrder := { withdrawalOrder with status := if valid then .finish else .failed }
  let refundCoins := if valid then refundCoins else refundCoins.add withdrawCoins
  let ok := s.ok.setOrder env.isValidAddr (.withdrawal withdrawalOrder)
  let trk ← addRefund trk fromCUAddr refundCoins
  pure { s with ok := ok, trk := trk }

/-- The settlement loop, over the order IDs in turn. -/
def settleWithdrawalOrders (chain symbol : Denom) (costFee : ℤ) (valid : Bool) :
    State → List String → Except Failure State
  | s, [] => .ok s
  | s, orderID :: orderIDs => do
    let s ← settleWithdrawalOrder env chain symbol costFee valid s orderID
    settleWithdrawalOrders chain symbol costFee valid s orderIDs

/-- The order write of the operation CU's side: an account-based token
records the cost on the first order; an account-shared token is refused. -/
def opCUOrderUpdate (s : State) (tokenInfo : IBCToken) (order : OrderWithdrawal) (costFee : ℤ) :
    Except Failure State :=
  match tokenInfo.tokenType with
  | .utxoBased => .ok s
  | .accountBased =>
    .ok { s with ok := s.ok.setOrder env.isValidAddr (.withdrawal { order with costFee := costFee }) }
  | .accountSharedBased => .error (errInvalidTx "Not support AccountSharedBased temporary")

/-- What `WithdrawalFinish` does once its ballot confirmed the box. -/
def withdrawalFinishConfirmed (s : State) (orderIDs : List String) (costFee : ℤ) (valid : Bool) :
    Except Failure State := do
  let (tokenInfo, withdrawalOrders) ← checkWithdrawalOrders env s orderIDs .signFinish
  let order ← orFail withdrawalOrders.head? indexOutOfRange
  env.opCUSettle tokenInfo withdrawalOrders costFee
  let s ← opCUOrderUpdate env s tokenInfo order costFee
  settleWithdrawalOrders env tokenInfo.chain tokenInfo.symbol costFee valid s orderIDs

/-- **`BaseKeeper.WithdrawalFinish`**: cast the ballot
`TxVote(costFee, true)` in the box of the first order's transaction hash,
and settle the orders if this ballot confirmed the box. -/
def withdrawalFinish (s : State) (height : ℕ) (fromCUAddr : CUAddress) (orderIDs : List String)
    (costFee : ℤ) (valid : Bool) : Except Failure State := do
  failIf (!env.isActiveKeyNode fromCUAddr) (errInvalidTx "withdrawal from not a validator :%v")
  let orderID₀ ← orFail orderIDs.head? indexOutOfRange
  let ord ← orFail (s.ok.getOrder orderID₀) (errNotFoundOrder "orderid:%v does not exist")
  let withdrawalOrder ← orFail ord.asWithdrawal (errInvalidOrder "order %v is not withdrawal order")
  let (result, evidence) := s.evidence.vote withdrawalOrder.txhash fromCUAddr
    (newTxVote costFee true) height env.keyNodeCount
  let s := { s with evidence := evidence }
  if result.1 then withdrawalFinishConfirmed env s orderIDs costFee valid else pure s

/-! ## The message -/

/-- `MsgWithdrawalFinish`. -/
structure MsgWithdrawalFinish where
  validator : String
  orderIDs : List String
  costFee : ℤ
  valid : Bool
  deriving DecidableEq, Repr

/-- **`MsgWithdrawalFinish.ValidateBasic`**. `ErrBadCostFee` carries the
message text of `ErrNilSignedTx`. -/
def MsgWithdrawalFinish.validateBasic (msg : MsgWithdrawalFinish) : Except Failure Unit := do
  failIf (env.cuAddressFromBase58 msg.validator).isNone (errInvalidAddress "address is invalid")
  failIf (isIllegalOrderIDList env.isIllegalOrderID [] msg.orderIDs) (errInvalidInput "orderid is nil")
  failIf (msg.costFee < 0) (errInvalidInput "sign tx is nil")
  failIf (msg.orderIDs = []) (errInvalidInput "orderid is nil")

/-- **`handleMsgWithdrawalFinish`**. -/
def handleMsgWithdrawalFinish (s : State) (height : ℕ) (msg : MsgWithdrawalFinish) :
    Except Failure State := do
  failIf (!env.isSendEnabled) errSendDisabled
  let fromCU ← orFail (env.cuAddressFromBase58 msg.validator) (errInvalidAddr "invalid to CU:%v")
  withdrawalFinish env s height fromCU msg.orderIDs msg.costFee msg.valid

/-- A transaction carrying one `MsgWithdrawalFinish`, at a block height. -/
structure Tx where
  height : ℕ
  msg : MsgWithdrawalFinish
  deriving DecidableEq, Repr

/-- `DeliverTx`: the checks of `ValidateBasic`, then the handler. -/
def deliverTx (s : State) (tx : Tx) : Except Failure State := do
  tx.msg.validateBasic env
  handleMsgWithdrawalFinish env s tx.height tx.msg

/-- A transaction's effect on the state: its writes, or none of them. -/
def step (s : State) (tx : Tx) : State := commit (fun s => deliverTx env s tx) s

/-! ## What a settlement does to the orders -/

section settlement

variable {env} {chain symbol : Denom} {costFee : ℤ} {valid : Bool} {s s' : State}

/-- The gas refund changes the fee only. -/
theorem gasRefund_base {w w₁ : OrderWithdrawal} {refund : Coins}
    (h : gasRefund chain costFee w = .ok (refund, w₁)) : w₁.toOrderBase = w.toOrderBase := by
  unfold gasRefund at h
  split at h
  · simp only [bind_eq_ok, pure_eq_ok] at h
    obtain ⟨refundCoin, -, h⟩ := h
    cases h
    rfl
  · cases h
    rfl

/-- **One settlement writes one order**: the stored withdrawal, with its
fee possibly lowered, in the status `valid` names. -/
theorem settleWithdrawalOrder_eq_ok {orderID : String}
    (h : settleWithdrawalOrder env chain symbol costFee valid s orderID = .ok s') :
    ∃ w w₁ : OrderWithdrawal, s.ok.getOrder orderID = some (.withdrawal w) ∧
      w₁.toOrderBase = w.toOrderBase ∧
      s'.ok = s.ok.setOrder env.isValidAddr
        (.withdrawal { w₁ with status := if valid then .finish else .failed }) ∧
      s'.evidence = s.evidence := by
  unfold settleWithdrawalOrder at h
  simp only [bind_eq_ok, pure_eq_ok, orFail_eq_ok] at h
  obtain ⟨order, hget, w, hw, -, -, -, -, -, -, ⟨refund, w₁⟩, hrefund, -, -, rfl⟩ := h
  rw [Order.asWithdrawal_eq_some] at hw
  subst hw
  exact ⟨w, w₁, hget, gasRefund_base hrefund, rfl, rfl⟩

/-- Under the store invariant, a settlement puts the order it settles in
the status `valid` names, leaves every other order alone, and keeps the
invariant. -/
theorem settleWithdrawalOrder_getOrder (hk : s.ok.WF env.isValidAddr) {orderID : String}
    (h : settleWithdrawalOrder env chain symbol costFee valid s orderID = .ok s') :
    (∃ w, s'.ok.getOrder orderID = some (.withdrawal w) ∧
        w.status = if valid then .finish else .failed) ∧
      (∀ id, id ≠ orderID → s'.ok.getOrder id = s.ok.getOrder id) ∧
      s'.ok.WF env.isValidAddr ∧ s'.evidence = s.evidence := by
  obtain ⟨w, w₁, hget, hbase, hok, hev⟩ := settleWithdrawalOrder_eq_ok h
  -- the settled order keeps the stored one's ID and address
  let settled : OrderWithdrawal := { w₁ with status := if valid then .finish else .failed }
  have hid : (Order.withdrawal settled).getID = (Order.withdrawal w).getID := by
    show w₁.id = w.id
    exact congrArg OrderBase.id hbase
  have haddr : (Order.withdrawal settled).getCUAddress = (Order.withdrawal w).getCUAddress := by
    show w₁.cuAddress = w.cuAddress
    exact congrArg OrderBase.cuAddress hbase
  refine ⟨⟨settled, ?_, rfl⟩, fun id hne => ?_, hok ▸ hk.setOrder _, hev⟩
  · rw [hok]
    exact hk.getOrder_setOrder_update hget hid haddr
  · rw [hok]
    refine Keeper.getOrder_setOrder_of_ne _ _ _ ?_
    rw [hid, hk.keys_agree orderID _ hget]
    exact hne

/-- **The settlement loop puts every order it is given in the status
`valid` names**, and leaves the other orders alone. -/
theorem settleWithdrawalOrders_getOrder :
    ∀ (orderIDs : List String) {s s' : State}, s.ok.WF env.isValidAddr →
      settleWithdrawalOrders env chain symbol costFee valid s orderIDs = .ok s' →
      (∀ orderID ∈ orderIDs, ∃ w, s'.ok.getOrder orderID = some (.withdrawal w) ∧
          w.status = if valid then .finish else .failed) ∧
        (∀ id, id ∉ orderIDs → s'.ok.getOrder id = s.ok.getOrder id) ∧
        s'.ok.WF env.isValidAddr ∧ s'.evidence = s.evidence
  | [], s, s', hk, h => by
    cases h
    exact ⟨fun _ h => (by cases h), fun _ _ => rfl, hk, rfl⟩
  | orderID :: orderIDs, s, s', hk, h => by
    obtain ⟨s₁, h₁, hrest⟩ := bind_eq_ok.mp h
    obtain ⟨⟨w, hw, hstatus⟩, hframe₁, hk₁, hev₁⟩ := settleWithdrawalOrder_getOrder hk h₁
    obtain ⟨hset, hframe, hk', hev⟩ := settleWithdrawalOrders_getOrder orderIDs hk₁ hrest
    refine ⟨fun id hid => ?_, fun id hid => ?_, hk', hev.trans hev₁⟩
    · by_cases hmem : id ∈ orderIDs
      · exact hset id hmem
      · -- settled here and not touched by the rest of the loop
        have hid : id = orderID := (List.mem_cons.mp hid).resolve_right hmem
        subst hid
        exact ⟨w, (hframe id hmem).trans hw, hstatus⟩
    · rw [List.mem_cons, not_or] at hid
      rw [hframe id hid.2, hframe₁ id hid.1]

/-- The order write of the operation CU's side keeps the invariant and the
evidence. -/
theorem opCUOrderUpdate_eq_ok (hk : s.ok.WF env.isValidAddr) {tokenInfo : IBCToken}
    {order : OrderWithdrawal} (h : opCUOrderUpdate env s tokenInfo order costFee = .ok s') :
    s'.ok.WF env.isValidAddr ∧ s'.evidence = s.evidence := by
  unfold opCUOrderUpdate at h
  split at h
  · cases h
    exact ⟨hk, rfl⟩
  · cases h
    exact ⟨hk.setOrder _, rfl⟩
  · cases h

/-- After a confirmation, every order of the message ends in the status
the message's `valid` names. -/
theorem withdrawalFinishConfirmed_getOrder (hk : s.ok.WF env.isValidAddr) {orderIDs : List String}
    (h : withdrawalFinishConfirmed env s orderIDs costFee valid = .ok s') :
    (∀ orderID ∈ orderIDs, ∃ w, s'.ok.getOrder orderID = some (.withdrawal w) ∧
        w.status = if valid then .finish else .failed) ∧ s'.evidence = s.evidence := by
  unfold withdrawalFinishConfirmed at h
  simp only [bind_eq_ok, orFail_eq_ok] at h
  obtain ⟨⟨tokenInfo, withdrawalOrders⟩, -, order, -, -, -, s₁, hop, hsettle⟩ := h
  obtain ⟨hk₁, hev₁⟩ := opCUOrderUpdate_eq_ok hk hop
  obtain ⟨hset, -, -, hev⟩ := settleWithdrawalOrders_getOrder orderIDs hk₁ hsettle
  exact ⟨hset, hev.trans hev₁⟩

end settlement

/-! ## The ballot and the settlement of a report -/

/-- **A report's ballot ignores its `Valid`, its settlement follows it.**
A successful `WithdrawalFinish` casts `TxVote(costFee, true)` in the box
of the first order's transaction hash. If that ballot did not confirm the
box, the call changed nothing else; if it did, every order of the report
ends `Finish` when the report says `valid` and `Failed` when it does not,
whatever the ballots that made up the quorum said. -/
theorem withdrawalFinish_settles_by_report {env : Env} {s s' : State}
    (hk : s.ok.WF env.isValidAddr) {height : ℕ} {fromCUAddr : CUAddress} {orderIDs : List String}
    {costFee : ℤ} {valid : Bool}
    (h : withdrawalFinish env s height fromCUAddr orderIDs costFee valid = .ok s') :
    ∃ orderID₀ w, orderIDs.head? = some orderID₀ ∧ s.ok.getOrder orderID₀ = some (.withdrawal w) ∧
      s'.evidence = (s.evidence.vote w.txhash fromCUAddr (newTxVote costFee true) height
        env.keyNodeCount).2 ∧
      ((s.evidence.vote w.txhash fromCUAddr (newTxVote costFee true) height
          env.keyNodeCount).1.1 = false → s'.ok = s.ok ∧ s'.trk = s.trk) ∧
      ((s.evidence.vote w.txhash fromCUAddr (newTxVote costFee true) height
          env.keyNodeCount).1.1 = true →
        ∀ orderID ∈ orderIDs, ∃ w', s'.ok.getOrder orderID = some (.withdrawal w') ∧
          w'.status = if valid then .finish else .failed) := by
  unfold withdrawalFinish at h
  simp only [bind_eq_ok, orFail_eq_ok, failIf_eq_ok] at h
  obtain ⟨-, -, orderID₀, hhead, ord, hget, w, hw, h⟩ := h
  rw [Order.asWithdrawal_eq_some] at hw
  subst hw
  refine ⟨orderID₀, w, hhead, hget, ?_⟩
  -- the branch on the first-confirmation flag
  cases hflag : (s.evidence.vote w.txhash fromCUAddr (newTxVote costFee true) height
    env.keyNodeCount).1.1 with
  | false =>
    rw [hflag, if_neg Bool.false_ne_true, pure_eq_ok] at h
    subst h
    exact ⟨rfl, fun _ => ⟨rfl, rfl⟩, fun h => absurd h Bool.false_ne_true⟩
  | true =>
    rw [hflag, if_pos rfl] at h
    obtain ⟨hset, hev⟩ := withdrawalFinishConfirmed_getOrder (by exact hk) h
    exact ⟨hev, fun h => Bool.noConfusion h, fun _ => hset⟩

/-! ### Four key nodes, one report of failure

A withdrawal of 10 `eth` with a gas fee of 1, signed and broadcast, is
reported by three of four key nodes (threshold `Majority23 4 = 3`) with
the same cost fee. The first two report success, the third failure. -/

/-- An account-based chain token. -/
def ethToken : IBCToken :=
  { symbol := "eth", chain := "eth", sendEnabled := true, tokenType := .accountBased,
    depositEnabled := true, withdrawalEnabled := true, sysTransferNum := 0, gasLimit := 1,
    gasPrice := 1, isNonceBased := true, needCollectFee := false }

/-- Four active key nodes, `eth` the only token, every check of the
operation CU's side passing, and every order ID accepted. -/
def keyNodeEnv : Env :=
  { isSendEnabled := true, isActiveKeyNode := fun a => decide (a ∈ ["k1", "k2", "k3", "k4"]),
    keyNodeCount := 4, isValidAddr := fun _ => true, cuAddressFromBase58 := some,
    isIllegalOrderID := fun _ => false,
    getIBCToken := fun d => if d = "eth" then some ethToken else none,
    getCU := fun _ => some .user, opCUSettle := fun _ _ _ => .ok () }

/-- A signed withdrawal of `alice`, waiting for the reports. -/
def signedWithdrawal : OrderWithdrawal :=
  { cuAddress := "alice", id := "w1", orderType := .withdrawal, symbol := "eth",
    status := .signFinish, height := 0, amount := 10, gasFee := 1, costFee := 1,
    withdrawToAddress := "ext", fromAddress := "opaddr", opCUaddress := "opcu", utxoInNum := 0,
    txhash := "h", rawData := "raw", signedTx := "signed", withdrawStatus := .valid }

/-- The store before the reports: the order, and its amount and fee held. -/
def pendingWithdrawal : State :=
  { ok := Keeper.empty.setOrder (fun _ => true) (.withdrawal signedWithdrawal),
    trk := Balances.empty.setHoldBalance "alice" "eth" 11,
    evidence := Evidence.Keeper.empty }

/-- The reports of `k1` and `k2` (success) and of `k3`, whose `Valid` is
the argument; all with cost fee 1. -/
def finishReports (valid₃ : Bool) : List Tx :=
  [⟨1, ⟨"k1", ["w1"], 1, true⟩⟩, ⟨1, ⟨"k2", ["w1"], 1, true⟩⟩, ⟨1, ⟨"k3", ["w1"], 1, valid₃⟩⟩]

/-- **One report of failure fails the withdrawal.** Of three reports, one
says `Valid = false`, below the threshold of three; yet the withdrawal
ends `Failed` and the 10 `eth` already paid out on the chain are refunded
to `alice`. Had the third report said `Valid = true` the order would have
ended `Finish`. -/
theorem withdrawalFinish_one_invalid_report_fails_order :
    (finishReports false).countP (fun tx => !tx.msg.valid) = 1 ∧
      Evidence.majority23 keyNodeEnv.keyNodeCount = 3 ∧
      ((run (step keyNodeEnv) pendingWithdrawal (finishReports false)).ok.getOrder "w1").map
        Order.getOrderStatus = some .failed ∧
      (run (step keyNodeEnv) pendingWithdrawal (finishReports false)).trk.getBalance "alice" "eth" =
        10 ∧
      ((run (step keyNodeEnv) pendingWithdrawal (finishReports true)).ok.getOrder "w1").map
        Order.getOrderStatus = some .finish := by
  decide +kernel

end Transfer
