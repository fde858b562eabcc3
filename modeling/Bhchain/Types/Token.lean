import Bhchain.Types.Coins

/-!
# Cross-chain tokens (`types/token.go`)

An `IBCToken` describes a token of an external chain: the chain's own
token (`Chain`, which pays the gas), how the chain keeps balances
(`TokenType`), switches that stop deposits, withdrawals and sends, and the
gas parameters the fees are computed from.

The fees are products of gas parameters, so they are nonnegative for
nonnegative parameters; whether a fee fits the amount it is charged on is
up to the handler that charges it.
-/

namespace Sdk

/-- `TokenType`. -/
inductive TokenType where
  /-- a token like BTC -/
  | utxoBased
  /-- a token like ETH: every user has an account of its own -/
  | accountBased
  /-- a token like EOS or XRP: users share an account, told apart by a memo -/
  | accountSharedBased
  deriving DecidableEq, Repr

/-- **`IBCToken`**, with the fields the modelled handlers read. -/
structure IBCToken where
  symbol : Denom
  chain : Denom
  sendEnabled : Bool
  tokenType : TokenType
  depositEnabled : Bool
  withdrawalEnabled : Bool
  sysTransferNum : ℤ
  gasLimit : ℤ
  gasPrice : ℤ
  isNonceBased : Bool
  needCollectFee : Bool
  deriving DecidableEq, Repr

/-- `KiloBytes`. -/
def kiloBytes : ℤ := 1024

/-- `DefaultUtxoCollectTxSize`: one input and one output. -/
def defaultUtxoCollectTxSize : ℤ := 150 + 40

namespace IBCToken

/-- `SysTransferAmount`. -/
def sysTransferAmount (t : IBCToken) : ℤ := t.gasPrice * t.gasLimit * t.sysTransferNum

/-- **`CollectFee`**: nothing for a token that needs no collect fee;
otherwise the gas of one collect transaction, and for a token that is not
its chain's own token also the gas sent ahead to pay for it. -/
def collectFee (t : IBCToken) : Except Failure Coin :=
  if !t.needCollectFee then newCoin t.chain 0
  else
    let baseGasFee :=
      if t.tokenType = .utxoBased then (defaultUtxoCollectTxSize * t.gasPrice).tdiv kiloBytes
      else t.gasPrice * t.gasLimit
    if t.chain ≠ t.symbol then newCoin t.chain (t.sysTransferAmount + baseGasFee)
    else newCoin t.chain baseGasFee

end IBCToken

end Sdk
