import Mathlib.Logic.Basic

/-!
# How a handler stops early (`types/errors.go`, `baseapp/baseapp.go`)

A message handler either returns a `Result` carrying an `sdk.Error`, or it
panics. `runTx` recovers a panic into `ErrInternal("recovered: ...")`, and in
both cases the transaction's writes are dropped, since the cached store is
written back only for a result with code OK. An end-block hook has no such
recovery: a panic there stops the node.

The two ways are kept apart as the two constructors of `Failure`, because
several properties of the modules are exactly that one particular panic is
never reached. An error is its code and the format string of its message.
-/

namespace Sdk

/-- The `CodeType`s that the modelled handlers return (`types/errors.go`). -/
inductive CodeType where
  | internal
  | insufficientFunds
  | unknownRequest
  | invalidAddress
  | insufficientCoins
  | invalidCoins
  | invalidAmount
  | invalidAccount
  | invalidSymbol
  | notFoundOrder
  | invalidOrder
  | invalidTx
  | unsupportToken
  | transactionIsNotEnabled
  | insufficientValidtorNumber
  /-- `CodeInvalidValidator` of the staking module's codespace -/
  | invalidValidator
  /-- `CodeInvalidInput` of the staking module's codespace -/
  | stakingInvalidInput
  /-- `CodeInvalidInput` of the transfer module's codespace -/
  | invalidInput
  /-- `CodeSendDisabled` of the transfer module's codespace -/
  | sendDisabled
  | insufficientFee
  deriving DecidableEq, Repr

/-- **How handling a message stops early.** -/
inductive Failure where
  /-- an `sdk.Error`, returned in the handler's `Result` -/
  | error (code : CodeType) (msg : String)
  /-- a Go panic, with its message -/
  | panic (msg : String)
  deriving DecidableEq, Repr

/-- The errors of `types/errors.go` are `newErrorWithRootCodespace` of one
code each; the model keeps one constructor per code used. -/
def errInvalidAddress (msg : String) : Failure := .error .invalidAddress msg

/-- `ErrInvalidAddr` carries the same code as `ErrInvalidAddress`. -/
def errInvalidAddr (msg : String) : Failure := .error .invalidAddress msg

def errInternal (msg : String) : Failure := .error .internal msg

def errInsufficientFunds (msg : String) : Failure := .error .insufficientFunds msg

def errUnknownRequest (msg : String) : Failure := .error .unknownRequest msg

def errInsufficientCoins (msg : String) : Failure := .error .insufficientCoins msg

def errInvalidCoins (msg : String) : Failure := .error .invalidCoins msg

def errInvalidAmount (msg : String) : Failure := .error .invalidAmount msg

def errInvalidAccount (msg : String) : Failure := .error .invalidAccount msg

def errInvalidSymbol (msg : String) : Failure := .error .invalidSymbol msg

def errNotFoundOrder (msg : String) : Failure := .error .notFoundOrder msg

def errInvalidOrder (msg : String) : Failure := .error .invalidOrder msg

def errInvalidTx (msg : String) : Failure := .error .invalidTx msg

def errUnSupportToken (msg : String) : Failure := .error .unsupportToken msg

def errTransactionIsNotEnabled (msg : String) : Failure := .error .transactionIsNotEnabled msg

def errInsufficientValidatorNum (msg : String) : Failure := .error .insufficientValidtorNumber msg

def errInsufficientFee (msg : String) : Failure := .error .insufficientFee msg

/-- The transfer module's errors of code `CodeInvalidInput` (`ErrNilOrderID`,
`ErrBadCostFee`, ...), with their fixed messages. -/
def errInvalidInput (msg : String) : Failure := .error .invalidInput msg

/-- The transfer module's `ErrSendDisabled`. -/
def errSendDisabled : Failure := .error .sendDisabled "send transactions are currently disabled"

/-- The panic of a method called on a nil interface value. -/
def nilPointerDereference : Failure :=
  .panic "runtime error: invalid memory address or nil pointer dereference"

/-- The panic of indexing the first element of an empty slice. -/
def indexOutOfRange : Failure := .panic "runtime error: index out of range [0] with length 0"

/-- The panic of a type assertion `x.(*T)` on a value of another type, or
on a nil interface value. -/
def interfaceConversion : Failure := .panic "interface conversion"

end Sdk
