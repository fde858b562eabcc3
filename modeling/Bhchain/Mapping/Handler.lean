import Bhchain.Mapping.Keeper

/-!
# The mapping messages and their handler (`x/mapping/handler.go`,
`x/mapping/types/msgs.go`)

A transaction of the swap messages runs in two stages. `runTx` first calls
the message's `ValidateBasic`, which checks the message on its own: the
addresses, the order ID, the symbols and that every amount is positive.
The handler then resolves the sender's custody unit, refuses to create an
order whose ID is taken, and calls the keeper. A failure at either stage
rolls the transaction back, which `Transition.commit` models.

`MsgMappingSwap` and the mapping-info messages do not touch the swap
orders or the pool and are left out.
-/

namespace Mapping

open Sdk Transfer Transition

/-- `MaxDescLength`. -/
def maxDescLength : ℕ := 1000

/-- `MsgCreateFreeSwap` (`From` is `fromAddr`). -/
structure MsgCreateFreeSwap where
  fromAddr : String
  orderID : String
  swapInfo : FreeSwapInfo
  deriving DecidableEq, Repr

/-- `MsgCreateDirectSwap`. -/
structure MsgCreateDirectSwap where
  fromAddr : String
  orderID : String
  swapInfo : DirectSwapInfo
  deriving DecidableEq, Repr

/-- `MsgSwapSymbol`. -/
structure MsgSwapSymbol where
  fromAddr : String
  dstOrderID : String
  swapAmount : ℤ
  swapType : ℤ
  deriving DecidableEq, Repr

/-- `MsgCancelSwap`. -/
structure MsgCancelSwap where
  fromAddr : String
  swapType : ℤ
  orderID : String
  deriving DecidableEq, Repr

/-- The swap messages the mapping handler routes. -/
inductive Msg where
  | createFreeSwap (msg : MsgCreateFreeSwap)
  | createDirectSwap (msg : MsgCreateDirectSwap)
  | swapSymbol (msg : MsgSwapSymbol)
  | cancelSwap (msg : MsgCancelSwap)
  deriving DecidableEq, Repr

/-- The check every message starts with: a non-empty, valid sender. -/
def checkFrom (env : Env) (fromAddr : String) (msg : String) : Except Failure Unit :=
  failIf (fromAddr = "" ∨ env.isValidAddr fromAddr = false) (errInvalidAddress msg)

/-- The check of the swap type in `MsgSwapSymbol` and `MsgCancelSwap`. -/
def checkSwapType (swapType : ℤ) : Except Failure Unit :=
  failIf (swapType ≠ swapTypeFree ∧ swapType ≠ swapTypeDirect)
    (errInvalidAddress "err swap type:%v")

/-- `MsgCreateFreeSwap.ValidateBasic`. -/
def MsgCreateFreeSwap.validateBasic (env : Env) (msg : MsgCreateFreeSwap) :
    Except Failure Unit := do
  checkFrom env msg.fromAddr "from address can not be empty or invalid:%v"
  failIf (env.isIllegalOrderID msg.orderID = true) (errInvalidOrder "invalid orderid:%v")
  failIf (validDenom msg.swapInfo.srcSymbol = false ∨ validDenom msg.swapInfo.targetSymbol = false ∨
      msg.swapInfo.targetSymbol = msg.swapInfo.srcSymbol)
    (errInvalidSymbol "invalid symbol:%v, %v")
  failIf (msg.swapInfo.totalAmount ≤ 0 ∨ msg.swapInfo.minSwapAmount ≤ 0 ∨
      msg.swapInfo.maxSwapAmount ≤ 0 ∨ msg.swapInfo.maxSwapAmount < msg.swapInfo.minSwapAmount)
    (errInvalidAmount "swap count invalid:%v, %v")
  -- `len` of a Go string counts bytes
  failIf (msg.swapInfo.desc.utf8ByteSize > maxDescLength) (errInvalidTx "description too long")

/-- `MsgCreateDirectSwap.ValidateBasic`: the receiver's address is checked
with the sender's. -/
def MsgCreateDirectSwap.validateBasic (env : Env) (msg : MsgCreateDirectSwap) :
    Except Failure Unit := do
  failIf (msg.fromAddr = "" ∨ env.isValidAddr msg.fromAddr = false ∨
      env.isValidAddr msg.swapInfo.receiveAddr = false)
    (errInvalidAddress "from address can not be empty or invalid:%v, %v")
  failIf (env.isIllegalOrderID msg.orderID = true) (errInvalidOrder "invalid orderid:%v")
  failIf (validDenom msg.swapInfo.srcSymbol = false ∨ validDenom msg.swapInfo.targetSymbol = false ∨
      msg.swapInfo.targetSymbol = msg.swapInfo.srcSymbol)
    (errInvalidSymbol "invalid symbol:%v, %v")
  failIf (msg.swapInfo.amount ≤ 0 ∨ msg.swapInfo.swapAmount ≤ 0)
    (errInvalidAmount "swap count invalid:%v, %v")
  failIf (msg.swapInfo.desc.utf8ByteSize > maxDescLength) (errInvalidTx "description too long")

/-- `MsgSwapSymbol.ValidateBasic`. -/
def MsgSwapSymbol.validateBasic (env : Env) (msg : MsgSwapSymbol) : Except Failure Unit := do
  checkFrom env msg.fromAddr "from address can not be empty or invalid:%v"
  checkSwapType msg.swapType
  failIf (env.isIllegalOrderID msg.dstOrderID = true) (errInvalidOrder "invalid orderid:%v")
  failIf (msg.swapAmount ≤ 0) (errInvalidAmount "swap count invalid:%v")

/-- `MsgCancelSwap.ValidateBasic`. -/
def MsgCancelSwap.validateBasic (env : Env) (msg : MsgCancelSwap) : Except Failure Unit := do
  checkFrom env msg.fromAddr "from address can not be empty or invalid:%v"
  checkSwapType msg.swapType
  failIf (env.isIllegalOrderID msg.orderID = true) (errInvalidOrder "invalid orderid:%v")

/-- `ValidateBasic` of a message. -/
def Msg.validateBasic (env : Env) : Msg → Except Failure Unit
  | .createFreeSwap msg => msg.validateBasic env
  | .createDirectSwap msg => msg.validateBasic env
  | .swapSymbol msg => msg.validateBasic env
  | .cancelSwap msg => msg.validateBasic env

/-- The sender's custody unit, the first step of every handler. -/
def fromCU (env : Env) (fromAddr : String) : Except Failure CUAddress := do
  let fromCUAddr ← orFail (env.cuAddressFromBase58 fromAddr) (errInvalidAddr "invalid from CU:%v")
  failIf (env.getCU fromCUAddr = false) (errInvalidAccount "from CU does not exist")
  pure fromCUAddr

/-- `handleMsgCreateFreeSwap`. -/
def handleMsgCreateFreeSwap (env : Env) (s : State) (msg : MsgCreateFreeSwap) :
    Except Failure State := do
  let fromCUAddr ← fromCU env msg.fromAddr
  failIf (s.isSwapOrderExist msg.orderID swapTypeFree = true)
    (errInvalidOrder "free swap order exitst(%v)")
  createFreeSwapOrder s fromCUAddr msg.swapInfo msg.orderID

/-- `handleMsgCreateDirectSwap` (its error text says "free" as well). -/
def handleMsgCreateDirectSwap (env : Env) (s : State) (msg : MsgCreateDirectSwap) :
    Except Failure State := do
  let fromCUAddr ← fromCU env msg.fromAddr
  failIf (s.isSwapOrderExist msg.orderID swapTypeDirect = true)
    (errInvalidOrder "free swap order exitst(%v)")
  createDirectSwapOrder s fromCUAddr msg.swapInfo msg.orderID

/-- `handleMsgSwapSymbol`. -/
def handleMsgSwapSymbol (env : Env) (s : State) (blockTime : ℤ) (msg : MsgSwapSymbol) :
    Except Failure State := do
  let fromCUAddr ← fromCU env msg.fromAddr
  swapSymbol env s blockTime fromCUAddr msg.swapType msg.dstOrderID msg.swapAmount

/-- `handleMsgCancelSwap`. -/
def handleMsgCancelSwap (env : Env) (s : State) (msg : MsgCancelSwap) : Except Failure State := do
  let fromCUAddr ← fromCU env msg.fromAddr
  cancelSwap s fromCUAddr msg.swapType msg.orderID

/-- **`NewHandler`**, for the swap messages. -/
def handler (env : Env) (s : State) (blockTime : ℤ) : Msg → Except Failure State
  | .createFreeSwap msg => handleMsgCreateFreeSwap env s msg
  | .createDirectSwap msg => handleMsgCreateDirectSwap env s msg
  | .swapSymbol msg => handleMsgSwapSymbol env s blockTime msg
  | .cancelSwap msg => handleMsgCancelSwap env s msg

/-- A transaction of one swap message, in a block of the given time. -/
structure Tx where
  blockTime : ℤ
  msg : Msg
  deriving DecidableEq, Repr

/-- **`runTx` of a swap message**: `ValidateBasic`, then the handler. -/
def deliverTx (env : Env) (s : State) (tx : Tx) : Except Failure State := do
  tx.msg.validateBasic env
  handler env s tx.blockTime tx.msg

/-- One transaction, rolled back when it fails. -/
def step (env : Env) (s : State) (tx : Tx) : State := commit (fun s => deliverTx env s tx) s

/-- The mapping store at genesis, over any balances. -/
def State.init (trk : Balances) : State := ⟨.empty, .empty, none, trk⟩

/-! ### What the checks guarantee -/

section spec

variable {env : Env} {s s' : State}

theorem fromCU_eq_ok {fromAddr : String} {a : CUAddress} (h : fromCU env fromAddr = .ok a) :
    env.cuAddressFromBase58 fromAddr = some a ∧ env.getCU a = true := by
  unfold fromCU at h
  simp only [bind_eq_ok, orFail_eq_ok, failIf_eq_ok, pure_eq_ok, Bool.not_eq_false] at h
  obtain ⟨a', ha', -, hcu, rfl⟩ := h
  exact ⟨ha', hcu⟩

/-- A free swap order that passed `ValidateBasic` offers a positive amount. -/
theorem MsgCreateFreeSwap.totalAmount_pos {msg : MsgCreateFreeSwap} {u : Unit}
    (h : msg.validateBasic env = .ok u) : 0 < msg.swapInfo.totalAmount := by
  unfold MsgCreateFreeSwap.validateBasic at h
  simp only [bind_eq_ok, failIf_eq_ok] at h
  obtain ⟨-, -, -, -, -, -, -, hamount, -⟩ := h
  omega

/-- A direct swap order that passed `ValidateBasic` offers a positive amount. -/
theorem MsgCreateDirectSwap.amount_pos {msg : MsgCreateDirectSwap} {u : Unit}
    (h : msg.validateBasic env = .ok u) : 0 < msg.swapInfo.amount := by
  unfold MsgCreateDirectSwap.validateBasic at h
  simp only [bind_eq_ok, failIf_eq_ok] at h
  obtain ⟨-, -, -, -, -, -, -, hamount, -⟩ := h
  omega

theorem handleMsgCreateFreeSwap_eq_ok {msg : MsgCreateFreeSwap}
    (h : handleMsgCreateFreeSwap env s msg = .ok s') :
    ∃ fromCUAddr, s.freeSwapOrders.get msg.orderID = none ∧
      createFreeSwapOrder s fromCUAddr msg.swapInfo msg.orderID = .ok s' := by
  unfold handleMsgCreateFreeSwap at h
  simp only [bind_eq_ok, failIf_eq_ok] at h
  obtain ⟨fromCUAddr, -, -, hfree, hcreate⟩ := h
  refine ⟨fromCUAddr, ?_, hcreate⟩
  simpa [State.isSwapOrderExist, swapTypeFree, KVStore.Store.has] using hfree

theorem handleMsgCreateDirectSwap_eq_ok {msg : MsgCreateDirectSwap}
    (h : handleMsgCreateDirectSwap env s msg = .ok s') :
    ∃ fromCUAddr, s.directSwapOrders.get msg.orderID = none ∧
      createDirectSwapOrder s fromCUAddr msg.swapInfo msg.orderID = .ok s' := by
  unfold handleMsgCreateDirectSwap at h
  simp only [bind_eq_ok, failIf_eq_ok] at h
  obtain ⟨fromCUAddr, -, -, hfree, hcreate⟩ := h
  refine ⟨fromCUAddr, ?_, hcreate⟩
  simpa [State.isSwapOrderExist, swapTypeFree, swapTypeDirect, KVStore.Store.has] using hfree

end spec

/-! ### The checks never panic

`ValidateBasic` and the handler's own checks fail with `sdk.Error`s only, so
a transaction that panics with `negativeCoinAmount` did so in the keeper. -/

section subPanic

variable {env : Env} {s : State}

theorem Msg.validateBasic_ne_negativeCoinAmount (msg : Msg) :
    msg.validateBasic env ≠ .error negativeCoinAmount := by
  intro h
  cases msg <;>
    simp only [Msg.validateBasic, MsgCreateFreeSwap.validateBasic,
      MsgCreateDirectSwap.validateBasic, MsgSwapSymbol.validateBasic, MsgCancelSwap.validateBasic,
      checkFrom, checkSwapType, bind_eq_error, failIf_eq_error, errInvalidAddress, errInvalidOrder,
      errInvalidSymbol, errInvalidAmount, errInvalidTx, error_ne_negativeCoinAmount, and_false,
      or_false, exists_false] at h

theorem fromCU_ne_negativeCoinAmount (fromAddr : String) :
    fromCU env fromAddr ≠ .error negativeCoinAmount := by
  intro h
  simp only [fromCU, bind_eq_error, orFail_eq_error, failIf_eq_error, pure_eq_error, errInvalidAddr,
    errInvalidAccount, error_ne_negativeCoinAmount, and_false, or_false, exists_false] at h

/-- **Only `SwapSymbol` and `CancelSwap` can panic in `Sub`**, in the keeper
call the handler makes. -/
theorem deliverTx_eq_negativeCoinAmount {tx : Tx}
    (h : deliverTx env s tx = .error negativeCoinAmount) :
    ∃ fromCUAddr,
      (∃ msg : MsgSwapSymbol, swapSymbol env s tx.blockTime fromCUAddr msg.swapType msg.dstOrderID
        msg.swapAmount = .error negativeCoinAmount) ∨
      (∃ msg : MsgCancelSwap,
        cancelSwap s fromCUAddr msg.swapType msg.orderID = .error negativeCoinAmount) := by
  obtain ⟨blockTime, msg⟩ := tx
  unfold deliverTx at h
  rcases bind_eq_error.mp h with h | ⟨-, -, h⟩
  · exact absurd h (Msg.validateBasic_ne_negativeCoinAmount _)
  -- past `ValidateBasic`, the handler resolves the sender first
  cases msg with
  | createFreeSwap msg =>
    simp only [handler, handleMsgCreateFreeSwap, bind_eq_error, failIf_eq_error, errInvalidOrder,
      error_ne_negativeCoinAmount, fromCU_ne_negativeCoinAmount,
      createFreeSwapOrder_ne_negativeCoinAmount, and_false, or_false, exists_false] at h
  | createDirectSwap msg =>
    simp only [handler, handleMsgCreateDirectSwap, bind_eq_error, failIf_eq_error, errInvalidOrder,
      error_ne_negativeCoinAmount, fromCU_ne_negativeCoinAmount,
      createDirectSwapOrder_ne_negativeCoinAmount, and_false, or_false, exists_false] at h
  | swapSymbol msg =>
    simp only [handler, handleMsgSwapSymbol, bind_eq_error, fromCU_ne_negativeCoinAmount, false_or] at h
    obtain ⟨fromCUAddr, -, h⟩ := h
    exact ⟨fromCUAddr, .inl ⟨msg, h⟩⟩
  | cancelSwap msg =>
    simp only [handler, handleMsgCancelSwap, bind_eq_error, fromCU_ne_negativeCoinAmount, false_or] at h
    obtain ⟨fromCUAddr, -, h⟩ := h
    exact ⟨fromCUAddr, .inr ⟨msg, h⟩⟩

end subPanic

end Mapping
