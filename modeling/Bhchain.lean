import Bhchain.Lib.SortedMerge
import Bhchain.Lib.Transition
import Bhchain.Types.Errors
import Bhchain.Evidence.VoteBox
import Bhchain.Evidence.Keeper
import Bhchain.Types.Coins
import Bhchain.Transfer.Balance
import Bhchain.Lib.KVStore
import Bhchain.Mapping.Keeper
import Bhchain.Mapping.Handler
import Bhchain.Mapping.Pool
import Bhchain.Types.Order
import Bhchain.Order.Keeper
import Bhchain.Types.Token
import Bhchain.Transfer.Withdrawal
import Bhchain.Types.Dec
import Bhchain.Openswap.Types
import Bhchain.Openswap.Orderbook
import Bhchain.Openswap.Keeper
import Bhchain.Openswap.Pool
import Bhchain.Openswap.Matching
import Bhchain.Openswap.Handler
import Bhchain.Openswap.Expiry
import Bhchain.Openswap.Shares
import Bhchain.Openswap.Liquidity
import Bhchain.Lib.Median
import Bhchain.Token.GasPrice
import Bhchain.Openswap.FeeRates
import Bhchain.Openswap.Quotes
import Bhchain.Ibcasset.CUAsset
import Bhchain.Staking.Epoch
import Bhchain.Lib.RingBuffer
import Bhchain.Lib.BigEndian
import Bhchain.Evidence.Behaviour
import Bhchain.Openswap.Mining
import Bhchain.Lib.Overlay
import Bhchain.CacheKV.Iterator
import Bhchain.CacheKV.Store
import Bhchain.Lib.SortedTree
import Bhchain.Openswap.OrderbookTrees
import Bhchain.Lib.ByteString
import Bhchain.Openswap.Keys
import Bhchain.Openswap.Termination
import Bhchain.Lib.ConstantProduct
import Bhchain.Openswap.Trades
import Bhchain.Openswap.Value
import Bhchain.Openswap.Quoted
import Bhchain.Transfer.Lifecycle
import Bhchain.Transfer.Ledger
import Bhchain.Ibcasset.Deposits
import Bhchain.Lib.KeyedList
import Bhchain.Types.Collect
import Bhchain.Transfer.Deposit
