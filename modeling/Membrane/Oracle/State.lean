import Membrane.Lib.KeyMap
import Membrane.Lib.Fueled
import Membrane.Types

/-!
# State of the oracle

The storage of `contracts/oracle`, its errors and the answers it gets (`state.rs`,
`error.rs`, `packages/membrane/src/oracle.rs`).
-/

namespace Membrane.Oracle

/-- `ContractError`, the cases the handlers raise. -/
inductive ContractError where
  | std (error : StdError)
  | unauthorized
  | duplicateOracle (basketId : String)
  | assetInUse (asset : String)
  deriving DecidableEq, Repr

/-- A call of the oracle. -/
abbrev Result (α : Type) := Outcome ContractError α

/-- `?` on a runtime error inside a handler. -/
def liftStd {α : Type} (x : Outcome StdError α) : Result α := Outcome.mapErr .std x

@[simp]
theorem liftStd_eq_ok {α : Type} {x : Outcome StdError α} {a : α} :
    liftStd x = .ok a ↔ x = .ok a := Outcome.mapErr_eq_ok

structure VaultTokenInfo where
  vaultContract : String
  underlyingToken : String
  deriving DecidableEq, Repr

/-- `AssetOracleInfo`: where the price of an asset comes from for one basket. -/
structure AssetOracleInfo where
  basketId : Nat
  pythPriceFeedId : Option String
  poolsForOsmoTwap : List TWAPPoolInfo
  isUsdPar : Bool
  lpPoolInfo : Option PoolInfo
  vaultInfo : Option VaultTokenInfo
  decimals : Nat
  deriving DecidableEq, Repr

structure PriceInfo where
  source : String
  price : Decimal
  deriving DecidableEq, Repr

/-- `PriceResponse`, with the sources the price was put together from. -/
structure PriceResponse extends Membrane.PriceResponse where
  prices : List PriceInfo
  deriving DecidableEq, Repr

structure Config where
  owner : Addr
  positionsContract : Option Addr
  osmosisProxyContract : Option Addr
  osmoUsdPythFeedId : String
  pythOsmosisAddress : Option Addr
  poolsForUsdParTwap : List TWAPPoolInfo
  deriving DecidableEq, Repr

/-- `ASSETS`: the oracles of each asset, one for each basket. -/
abbrev Assets := KeyMap String (List AssetOracleInfo)

structure State where
  config : Config
  assets : Assets
  ownershipTransfer : Option Addr

/-- The price of a Pyth feed, to be scaled by a power of ten. -/
structure PythPrice where
  price : Int
  expo : Int
  deriving DecidableEq, Repr

/-- A Pyth feed, as what `get_ema_price_no_older_than` takes from it at a time and with a
    limit on its age. -/
abbrev PriceFeed := Nat → Nat → Option PythPrice

structure PoolStateResponse where
  assets : List Coin
  shares : Coin
  deriving DecidableEq, Repr

structure Owner where
  owner : Addr
  isPositionContract : Bool
  deriving DecidableEq, Repr

/-- The answers of the chain and of the other contracts: the Pyth contract, the TWAP module,
    the vaults, the token proxy with its pools, the position contracts and an oracle to
    copy from. -/
structure Deps where
  addrValid : String → Bool
  fromHex : String → Except String String
  priceFeed : Addr → String → Except StdError PriceFeed
  defaultFeed : PriceFeed
  geometricTwapToNow : TWAPPoolInfo → Nat → Except StdError Decimal
  vaultTokenUnderlying : Addr → Nat → Except StdError Nat
  poolState : Addr → Nat → Except StdError PoolStateResponse
  proxyOwners : Addr → Except StdError (List Owner)
  basket : Addr → Except StdError Basket
  oracleConfig : Addr → Except StdError Config
  oracleAssets : Addr → Except StdError (List (AssetInfo × List AssetOracleInfo))

/-- What a price query asks for besides the assets, and the time it is asked at. The
    timeframe is in minutes, the limit on the age of a Pyth price in seconds. -/
structure Query where
  blockTime : Nat
  twapTimeframe : Nat
  oracleTimeLimit : Nat
  basketId : Option Nat
  deriving DecidableEq, Repr

/-- The basket of a query, the first one by default. -/
def Query.basket (query : Query) : Nat := query.basketId.getD 1

end Membrane.Oracle
