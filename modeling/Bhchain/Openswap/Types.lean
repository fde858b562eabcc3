import Bhchain.Types.Dec
import Bhchain.Transfer.Balance
import Bhchain.Order.Keeper
import Bhchain.Lib.BigEndian

/-!
# The records of the swap module (`x/openswap/types`)

A *trading pair* of two tokens in a dex holds the reserves of an
automated market maker and the total of the liquidity shares issued on
it. Dex `0` is the default dex; a pair of another dex may be *public*,
which sends its liquidity and its swaps to the pair of the same tokens in
dex `0`.

A *limit order* offers `AmountIn` of one token of a pair at a price in the
other. What it has not yet spent sits in `LockedFund`, locked in the
owner's held balance; it is spent in fills against the pair, and what is
left is unlocked when the order is cancelled or expires. `Filled`,
`Canceled` and `Expired` are final.

The store holds byte keys. Those of the unfinished-order index and of the
liquidity are written here as `keys.go` builds and reads them; the keeper
model keys its maps by what they encode, and `Keys.lean` proves when the
two agree.

The module's parameters, validated by `Params.Validate`, what it reads of
the token keeper, and the bytes of an address form the environment of
every call.
-/

namespace Openswap

open Sdk Transfer
open OrderKeeper (Bytes bytesOf)

/-- A token symbol (`sdk.Symbol`). -/
abbrev Symbol := String

/-- The status of a limit order. -/
inductive OrderStatus where
  | new
  | partiallyFilled
  | filled
  | canceled
  | expired
  deriving DecidableEq, Repr

/-- The side of a limit order: a buy pays the quote token for the base
token, a sell the other way. -/
inductive OrderSide where
  | buy
  | sell
  deriving DecidableEq, Repr

/-- **`FeeRate`**: what a swap pays, as fractions of its input. -/
structure FeeRate where
  lpRewardRate : Dec
  repurchaseRate : Dec
  refererRewardRate : Dec
  deriving DecidableEq, Repr

/-- `TotalFeeRate`. -/
def FeeRate.totalFeeRate (f : FeeRate) : Dec :=
  (f.lpRewardRate.add f.refererRewardRate).add f.repurchaseRate

/-- **`Order`**, a limit order. `From` is `fromAddr`. -/
structure Order where
  orderID : String
  dexID : ℕ
  fromAddr : CUAddress
  referer : CUAddress
  receiver : CUAddress
  createdTime : ℤ
  expiredTime : ℤ
  finishedTime : ℤ
  status : OrderStatus
  side : OrderSide
  baseSymbol : Symbol
  quoteSymbol : Symbol
  price : Dec
  amountIn : ℤ
  lockedFund : ℤ
  feeRate : FeeRate
  deriving DecidableEq, Repr

namespace Order

/-- `IsFinished`. -/
def isFinished (o : Order) : Bool :=
  o.status == .filled || o.status == .canceled || o.status == .expired

/-- **`LessThan`**: by price, then by creation time, then by ID. -/
def lessThan (o o₂ : Order) : Bool :=
  if o.price.equal o₂.price then
    if o.createdTime = o₂.createdTime then decide (o.orderID < o₂.orderID)
    else decide (o.createdTime < o₂.createdTime)
  else o.price.lt o₂.price

/-- `compareOrderByExpiredTime`, as "comes strictly before": by expiry
time, then by ID. -/
def expiresBefore (o o₂ : Order) : Bool :=
  if o.expiredTime = o₂.expiredTime then decide (o.orderID < o₂.orderID)
  else decide (o.expiredTime < o₂.expiredTime)

end Order

/-- A key of the pair store: the dex and the two tokens, in the order
`TradingPairKey` writes them. -/
abbrev PairKey := ℕ × Symbol × Symbol

/-- **`TradingPair`**. -/
structure TradingPair where
  dexID : ℕ
  tokenA : Symbol
  tokenB : Symbol
  tokenAAmount : ℤ
  tokenBAmount : ℤ
  totalLiquidity : ℤ
  isPublic : Bool
  lpRewardRate : Dec
  refererRewardRate : Dec
  deriving DecidableEq, Repr

namespace TradingPair

/-- The key `SaveTradingPair` stores a pair under. -/
def key (p : TradingPair) : PairKey := (p.dexID, p.tokenA, p.tokenB)

/-- `NewDefaultTradingPair`: a public pair of dex `0`. -/
def newDefault (tokenA tokenB : Symbol) (initialLiquidity : ℤ) : TradingPair :=
  ⟨0, tokenA, tokenB, 0, 0, initialLiquidity, true, Dec.zero, Dec.zero⟩

/-- `NewCustomTradingPair`. -/
def newCustom (dexID : ℕ) (tokenA tokenB : Symbol) (isPublic : Bool)
    (lpRewardRate refererRewardRate : Dec) : TradingPair :=
  ⟨dexID, tokenA, tokenB, 0, 0, 0, isPublic, lpRewardRate, refererRewardRate⟩

/-- `Price`: the reserve of `B` per unit of `A`. -/
def price (p : TradingPair) : Dec :=
  if h : p.tokenAAmount = 0 then Dec.zero
  else (Dec.ofInt p.tokenBAmount).quoNonzero (Dec.ofInt p.tokenAAmount) (Dec.ofInt_val_ne_zero h)

end TradingPair

/-- **`Dex`**. -/
structure Dex where
  id : ℕ
  name : String
  owner : CUAddress
  incomeReceiver : CUAddress
  deriving DecidableEq, Repr

/-- What the swap module reads of a token (`sdk.Token`). -/
structure TokenInfo where
  weight : ℤ
  sendEnabled : Bool
  deriving DecidableEq, Repr

/-! ## The store keys (`keys.go`) -/

/-- `sdk.AddrLen`. -/
def addrLen : ℕ := 20

/-- `LiquidityKeyPrefix`. -/
def liquidityKeyPrefix : Bytes := [3]

/-- `UnfinishedOrderKeyPrefix`. -/
def unfinishedOrderKeyPrefix : Bytes := [5]

/-- `sdk.Uint32ToBigEndian`. -/
def uint32ToBigEndian (i : ℕ) : Bytes := BigEndian.encode 256 4 i

/-- `AddrLiquidityKeyPrefix`. -/
def addrLiquidityKeyPrefix (addr : Bytes) : Bytes := liquidityKeyPrefix ++ addr

/-- `AddrLiquidityKeyPrefixWithDexID`. -/
def addrLiquidityKeyPrefixWithDexID (addr : Bytes) (dexID : ℕ) : Bytes :=
  addrLiquidityKeyPrefix addr ++ uint32ToBigEndian dexID

/-- **`LiquidityKey`**: the address prefix with the dex, then
`"<tokenA>-<tokenB>"`. -/
def liquidityKey (addr : Bytes) (dexID : ℕ) (tokenA tokenB : Symbol) : Bytes :=
  addrLiquidityKeyPrefixWithDexID addr dexID ++ bytesOf (tokenA ++ "-" ++ tokenB)

/-- The runtime's panic on a slice past the end of its key. -/
def sliceBoundsOutOfRange : Failure := .panic "runtime error: slice bounds out of range"

/-- **`DecodeLiquidityKey`**: the dex in the four bytes after the address,
and the two parts of the rest split on `-` (the byte `45`). -/
def decodeLiquidityKey (key : Bytes) : Except Failure (ℕ × Bytes × Bytes) :=
  let addrPrefixLen := liquidityKeyPrefix.length + addrLen
  if key.length < addrPrefixLen + 4 then .error sliceBoundsOutOfRange
  else
    let dexID := BigEndian.decode ((key.drop addrPrefixLen).take 4)
    match (key.drop (addrPrefixLen + 4)).splitOn 45 with
    | [tokenA, tokenB] => .ok (dexID, tokenA, tokenB)
    | _ => .error (.panic "invalid key and prefix")

/-- `UnfinishedOrderKeyPrefixWithAddr`. -/
def unfinishedOrderKeyPrefixWithAddr (addr : Bytes) : Bytes := unfinishedOrderKeyPrefix ++ addr

/-- `UnfinishedOrderKeyPrefixWithPair`: the address prefix, the dex, then
`"<base>-<quote>:"`. -/
def unfinishedOrderKeyPrefixWithPair (addr : Bytes) (dexID : ℕ) (baseSymbol quoteSymbol : Symbol) :
    Bytes :=
  unfinishedOrderKeyPrefixWithAddr addr ++ uint32ToBigEndian dexID ++
    bytesOf (baseSymbol ++ "-" ++ quoteSymbol ++ ":")

/-- **`UnfinishedOrderKey`**: the pair prefix of the order's owner, then
its ID. -/
def unfinishedOrderKey (addrBytes : CUAddress → Bytes) (order : Order) : Bytes :=
  unfinishedOrderKeyPrefixWithPair (addrBytes order.fromAddr) order.dexID order.baseSymbol
    order.quoteSymbol ++ bytesOf order.orderID

/-- **`GetOrderIDFromUnfinishedOrderKey`**: the second of the parts of
what follows the dex, split on `:` (the byte `58`). -/
def getOrderIDFromUnfinishedOrderKey (key : Bytes) : Except Failure Bytes :=
  let prefixLen := unfinishedOrderKeyPrefix.length + addrLen + 4
  if key.length < prefixLen then .error sliceBoundsOutOfRange
  else
    match (key.drop prefixLen).splitOn 58 with
    | [_, orderID] => .ok orderID
    | _ => .error (.panic "invalid key")

/-- **The environment of the swap module**: its parameters and what it
reads of the token keeper and of the address format. -/
structure Env where
  minimumLiquidity : ℤ
  maxFeeRate : Dec
  lpRewardRate : Dec
  repurchaseRate : Dec
  refererTransactionBonusRate : Dec
  repurchaseDuration : ℤ
  repurchaseToken : Symbol
  /-- `GetToken` of the token keeper -/
  getToken : Symbol → Option TokenInfo
  /-- `CUAddress.IsValidAddr` -/
  isValidAddr : CUAddress → Bool
  /-- the bytes of an address (`sdk.CUAddress`), which its store keys hold -/
  addrBytes : CUAddress → Bytes
  /-- `IsIllegalOrderID` -/
  isIllegalOrderID : String → Bool
  /-- `Symbol.IsValid` -/
  isValidSymbol : Symbol → Bool
  /-- the module's own CU address, which receives repurchased tokens -/
  moduleCUAddress : CUAddress

/-- **`Params.Validate`**, as a property of the environment. -/
structure Env.Valid (env : Env) : Prop where
  minimumLiquidity_pos : 0 < env.minimumLiquidity
  maxFeeRate_nonneg : 0 ≤ env.maxFeeRate.val
  maxFeeRate_le_one : env.maxFeeRate.val ≤ Dec.one.val
  lpRewardRate_nonneg : 0 ≤ env.lpRewardRate.val
  repurchaseRate_nonneg : 0 ≤ env.repurchaseRate.val
  refererTransactionBonusRate_nonneg : 0 ≤ env.refererTransactionBonusRate.val
  sum_le_maxFeeRate : env.lpRewardRate.val + env.repurchaseRate.val +
    env.refererTransactionBonusRate.val ≤ env.maxFeeRate.val
  repurchaseDuration_pos : 0 < env.repurchaseDuration

end Openswap
