import Membrane.Oracle.State
import Mathlib.Data.List.Sort

/-!
# Prices

The price queries of `contracts/oracle`: an asset is priced by its Pyth feed, or else along
a route of TWAP pools that ends in OSMO or in an asset that is priced in turn; a vault token
by its underlying token, an LP share by the assets of its pool. The recursion follows what
is stored, so it runs on fuel.
-/

namespace Membrane.Oracle

/-- `STATIC_USD_PRICE`. -/
def staticUsdPrice : Decimal := Decimal.one

/-- `ASSETS.load`. -/
def loadAsset (assets : Assets) (asset : String) : Outcome StdError (List AssetOracleInfo) :=
  Outcome.ofOption (assets.lookup asset)
    (.notFound "alloc::vec::Vec<membrane::types::AssetOracleInfo>")

def oracleInfoFor (assets : Assets) (basketId : Nat) (asset : String) :
    Outcome StdError AssetOracleInfo := do
  let oracles ← loadAsset assets asset
  Outcome.ofOption (oracles.find? fun oracle => oracle.basketId == basketId)
    (.genericErr "Invalid basket_id")

def startTime (query : Query) : Outcome StdError Nat := do
  let timeframe ← Uint64.mul query.twapTimeframe 60
  subUint query.blockTime timeframe

/-! ## Pyth -/

/-- The price of a feed with its exponent applied. -/
def scalePrice (price : PythPrice) : Outcome StdError Decimal := do
  let ten ← Decimal.fromRatio 10 1
  let digits ← (if price.price < 0 then Outcome.fail (.genericErr "Error parsing whole")
    else pure (Decimal.ofNat price.price.toNat))
  if 0 < price.expo then do
    decimalMultiplication digits (← ten.checkedPow price.expo.toNat)
  else do
    -- `i32::MIN` has no opposite
    Outcome.guardPanic (price.expo = -2 ^ 31)
    decimalDivision digits (← ten.checkedPow (-price.expo).toNat)

/-- The Pyth part of `get_asset_price`: what it pushes to the sources, and the price it
    returns with. A feed that errored is the default one, whose price is not used. -/
def pythPrice (deps : Deps) (config : Config) (query : Query) (oracleInfo : AssetOracleInfo) :
    Outcome StdError (List PriceInfo × Option Decimal) :=
  match config.pythOsmosisAddress, oracleInfo.pythPriceFeedId with
  | some address, some feedId => do
      let id ← Outcome.mapErr StdError.genericErr (Outcome.ofExcept (deps.fromHex feedId))
      let (feed, errored) := match deps.priceFeed address id with
        | .ok feed => (feed, false)
        | .error _ => (deps.defaultFeed, true)
      match feed query.blockTime query.oracleTimeLimit with
      | some price => do
          let scaled ← scalePrice price
          pure ([⟨"pyth", scaled⟩], if errored then none else some scaled)
      | none => pure ([], none)
  | _, _ => pure ([], none)

/-! ## OSMO -/

def twaps (deps : Deps) (pools : List TWAPPoolInfo) (start : Nat) :
    Outcome StdError (List Decimal) :=
  pools.mapM fun pool => Outcome.ofExcept (deps.geometricTwapToNow pool start)

/-- Move the decimal point of a price from the decimals of its asset to those of its quote. -/
def moveDecimals (decimals quoteDecimals : Nat) (price : Decimal) : Outcome StdError Decimal :=
  if quoteDecimals < decimals then do
    let exp ← subUint (decimals % 2 ^ 32) (quoteDecimals % 2 ^ 32)
    let scale ← Decimal.fromRatio (← Uint128.checkedPow 10 exp) 1
    decimalMultiplication price scale
  else if decimals < quoteDecimals then do
    let exp ← subUint (quoteDecimals % 2 ^ 32) (decimals % 2 ^ 32)
    let scale ← Decimal.fromRatio 1 (← Uint128.checkedPow 10 exp)
    decimalDivision price scale
  else pure price

/-- The quote of the last pool of an asset's TWAP route. -/
def AssetOracleInfo.lastQuote (oracleInfo : AssetOracleInfo) : Option String :=
  oracleInfo.poolsForOsmoTwap.getLast?.map (·.quoteAssetDenom)

/-- The price of an asset along its TWAP route: in OSMO, or in the quote of the last pool. -/
def assetPriceInOsmo (deps : Deps) (assets : Assets) (query : Query)
    (oracleInfo : AssetOracleInfo) (asset : String) (start : Nat) : Outcome StdError Decimal := do
  let steps ← twaps deps oracleInfo.poolsForOsmoTwap start
  Outcome.guardErr (steps.length = 0 ∧ asset ≠ "uosmo") (.genericErr "No OSMO TWAP prices found")
  let finalPrice ← (if asset = "uosmo" then pure Decimal.one
    else steps.foldlM decimalMultiplication Decimal.one)
  match oracleInfo.lastQuote with
  | some denom => do
      let trailing ← oracleInfoFor assets query.basket denom
      moveDecimals oracleInfo.decimals trailing.decimals finalPrice
  | none => pure finalPrice

def median (prices : List Decimal) : Outcome StdError Decimal :=
  if prices.length % 2 = 0 then do
    let upper ← Outcome.index prices (prices.length / 2)
    let lower ← Outcome.index prices (prices.length / 2 - 1)
    Outcome.orAbort (decimalDivision (← Decimal.add upper lower) (Decimal.percent 200))
  else if prices.length ≠ 1 then Outcome.index prices (prices.length / 2)
  else Outcome.index prices 0

def usdParPrice (deps : Deps) (config : Config) (start : Nat) : Outcome StdError PriceInfo := do
  Outcome.guardErr (config.poolsForUsdParTwap = []) (.genericErr "No USD-par price feeds")
  let prices ← twaps deps config.poolsForUsdParTwap start
  pure ⟨"osmosis", ← median (prices.insertionSort fun a b => a ≤ b)⟩

/-- The price of OSMO: from its Pyth feed, or else from the USD-par pools. -/
def osmoUsdPrice (deps : Deps) (config : Config) (query : Query) (start : Nat) :
    Outcome StdError PriceInfo :=
  match config.pythOsmosisAddress with
  | some address =>
    match deps.priceFeed address config.osmoUsdPythFeedId with
    | .ok feed =>
      match feed query.blockTime query.oracleTimeLimit with
      | some price => do pure ⟨"pyth", ← scalePrice price⟩
      | none => usdParPrice deps config start
    | .error _ => usdParPrice deps config start
  | none => usdParPrice deps config start

/-! ## Assets -/

/-- Prices found so far, by the text of the asset. -/
abbrev Queried := List (String × PriceResponse)

def Queried.price (queried : Queried) (asset : String) : Option PriceResponse :=
  (queried.find? fun entry => entry.1 == asset).map (·.2)

/-- The quote of an asset that is to be priced in turn: the last one of its route, if that
    is not OSMO. -/
def AssetOracleInfo.quotedIn (oracleInfo : AssetOracleInfo) : Option String :=
  oracleInfo.lastQuote.filter (· ≠ "uosmo")

def priceByQuote (oracleInfo : AssetOracleInfo) (oraclePrices : List PriceInfo)
    (priceInQuote : Decimal) (quote : PriceResponse) : Outcome StdError PriceResponse := do
  let source := quote.prices.foldl (fun source info => source ++ info.source ++ ", ") ""
  pure ⟨⟨← decimalMultiplication priceInQuote quote.price, oracleInfo.decimals⟩,
    oraclePrices ++ [⟨source, quote.price⟩]⟩

/-- The price of OSMO, which is found when it is not given, and what is pushed to the sources
    for it. -/
def osmoQuote (deps : Deps) (config : Config) (query : Query) (start : Nat)
    (osmoQuotePrice : Option Decimal) : Outcome StdError (List PriceInfo × Decimal) :=
  match osmoQuotePrice with
  | none => do
      let info ← osmoUsdPrice deps config query start
      pure ([info], info.price)
  | some quotePrice => pure ([], quotePrice)

def priceByOsmo (deps : Deps) (config : Config) (query : Query) (oracleInfo : AssetOracleInfo)
    (oraclePrices : List PriceInfo) (priceInOsmo : Decimal) (start : Nat)
    (osmoQuotePrice : Option Decimal) : Outcome StdError (PriceResponse × Option Decimal) := do
  let quote ← osmoQuote deps config query start osmoQuotePrice
  let assetPrice ← decimalMultiplication priceInOsmo quote.2
  let assetPrice := if oracleInfo.isUsdPar ∧ staticUsdPrice < assetPrice then staticUsdPrice
    else assetPrice
  pure (⟨⟨assetPrice, oracleInfo.decimals⟩, oraclePrices ++ quote.1⟩, some quote.2)

/-- `get_asset_price`: the price of an asset, and that of OSMO if it was used. A quote that
    was not queried before is priced with the same query. -/
def getAssetPrice (deps : Deps) (s : State) (query : Query) : (fuel : Nat) → AssetInfo →
    Option Queried → Option Decimal → Fueled StdError (PriceResponse × Option Decimal)
  | 0, _, _, _ => .outOfFuel
  | fuel + 1, assetInfo, queriedAssetPrices, osmoQuotePrice => do
      let oracleInfo ← .lift (oracleInfoFor s.assets query.basket assetInfo.toText)
      let start ← .lift (startTime query)
      let (oraclePrices, pyth) ← .lift (pythPrice deps s.config query oracleInfo)
      match pyth with
      | some price => pure (⟨⟨price, oracleInfo.decimals⟩, oraclePrices⟩, none)
      | none => do
          let priceInOsmo ← .lift
            (assetPriceInOsmo deps s.assets query oracleInfo assetInfo.toText start)
          let oraclePrices := oraclePrices ++ [⟨"osmosis", priceInOsmo⟩]
          match oracleInfo.quotedIn, queriedAssetPrices with
          | some denom, some queried =>
            match queried.price denom with
            | some quote => do
                let price ← .lift (priceByQuote oracleInfo oraclePrices priceInOsmo quote)
                pure (price, osmoQuotePrice)
            | none => do
                let (quote, osmoQuotePrice) ← Fueled.mapErr
                  (fun _ => StdError.genericErr ("No " ++ denom ++ " price found"))
                  (getAssetPrice deps s query fuel (.nativeToken denom) queriedAssetPrices
                    osmoQuotePrice)
                let price ← .lift (priceByQuote oracleInfo oraclePrices priceInOsmo quote)
                pure (price, osmoQuotePrice)
          | _, _ => .lift (priceByOsmo deps s.config query oracleInfo oraclePrices priceInOsmo
              start osmoQuotePrice)

/-! ## Vault tokens and LP shares -/

/-- The price of one vault token from that of its underlying token. -/
def vaultTokenPrice (deps : Deps) (vaultInfo : VaultTokenInfo) (decimals : Nat)
    (underlying : PriceResponse) : Outcome StdError PriceResponse := do
  Outcome.guardPanic (Uint128.limit ≤ 10 ^ (decimals % 2 ^ 32))
  let underlyingTokenAmount ← Outcome.ofExcept
    (deps.vaultTokenUnderlying vaultInfo.vaultContract (10 ^ (decimals % 2 ^ 32)))
  let vaultTokenValue ← underlying.getValue underlyingTokenAmount
  pure ⟨⟨vaultTokenValue, decimals⟩,
    underlying.prices ++ [⟨"vault_contract", vaultTokenValue⟩]⟩

def getVaultTokenPrice (deps : Deps) (s : State) (query : Query) (fuel : Nat)
    (vaultInfo : VaultTokenInfo) (decimals : Nat) (queriedAssetPrices : Option Queried)
    (osmoQuotePrice : Option Decimal) : Fueled StdError (PriceResponse × Option Decimal) := do
  let (underlying, osmoQuotePrice) ← getAssetPrice deps s query fuel
    (.nativeToken vaultInfo.underlyingToken) queriedAssetPrices osmoQuotePrice
  let price ← .lift (vaultTokenPrice deps vaultInfo decimals underlying)
  pure (price, osmoQuotePrice)

def PoolStateResponse.sharesValue (self : PoolStateResponse) (numShares : Nat) :
    Outcome StdError (List Coin) :=
  self.assets.mapM fun coin => do
    let product ← Uint128.mul coin.amount numShares
    pure ⟨coin.denom, ← Uint128.div product self.shares.amount⟩

def poolShare : Nat := 1000000000000000000

def shareValue (shareAssetAmounts : List Coin) (price : PriceResponse) (info : AssetInfo) :
    Outcome StdError Decimal := do
  let share ← Outcome.ofOption
    (shareAssetAmounts.find? fun coin => AssetInfo.nativeToken coin.denom == info)
    (.genericErr ("Invalid asset denom: " ++ info.toText))
  price.getValue share.amount

/-- The price of one LP share from those of the assets of its pool. -/
def lpSharePrice (deps : Deps) (config : Config) (poolInfo : PoolInfo)
    (prices : List PriceResponse) : Outcome StdError PriceResponse := do
  let proxy ← Outcome.unwrap config.osmosisProxyContract
  let pool ← Outcome.ofExcept (deps.poolState proxy poolInfo.poolId)
  let shareAssetAmounts ← pool.sharesValue poolShare
  let assetValues ← (prices.zip poolInfo.assetInfos).mapM fun entry =>
    shareValue shareAssetAmounts entry.1 entry.2.info
  pure ⟨⟨← Decimal.sum assetValues, 18⟩, prices.flatMap (·.prices)⟩

/-- `get_lp_price`, where `getPrices` prices the assets of a pool. -/
def getLpPrice (deps : Deps) (config : Config) (poolInfo : PoolInfo)
    (getPrices : List AssetInfo → Fueled StdError (List PriceResponse)) :
    Fueled StdError PriceResponse := do
  let prices ← getPrices (poolInfo.assetInfos.map (·.info))
  .lift (lpSharePrice deps config poolInfo prices)

/-! ## Batches -/

/-- What the loop of `get_asset_prices` goes on with. -/
structure Batch where
  priceResponses : List PriceResponse
  pricePropagations : Queried
  osmoQuotePrice : Option Decimal

/-- A price that later assets of the list may use. -/
def Batch.propagate (batch : Batch) (asset : AssetInfo) (price : PriceResponse)
    (osmoQuotePrice : Option Decimal) : Batch :=
  ⟨batch.priceResponses ++ [price], batch.pricePropagations ++ [(asset.toText, price)],
    osmoQuotePrice⟩

/-- One asset in the loop of `get_asset_prices`, where `getPrices` prices the assets of a
    pool. The first oracle of the asset says what it is. -/
def priceEntry (deps : Deps) (s : State) (query : Query) (fuel : Nat)
    (getPrices : List AssetInfo → Option Queried → Option Decimal →
      Fueled StdError (List PriceResponse)) (batch : Batch) (asset : AssetInfo) :
    Fueled StdError Batch := do
  let oracles ← .lift (loadAsset s.assets asset.toText)
  let oracleInfo ← .lift (Outcome.index oracles 0)
  match oracleInfo.lpPoolInfo with
  | some poolInfo => do
      let price ← getLpPrice deps s.config poolInfo fun assetInfos =>
        getPrices assetInfos (some batch.pricePropagations) batch.osmoQuotePrice
      pure { batch with priceResponses := batch.priceResponses ++ [price] }
  | none =>
    match oracleInfo.vaultInfo with
    | some vaultInfo => do
        let (price, quotePrice) ← getVaultTokenPrice deps s query fuel vaultInfo
          oracleInfo.decimals (some batch.pricePropagations) batch.osmoQuotePrice
        pure (batch.propagate asset price quotePrice)
    | none =>
      match batch.pricePropagations.price asset.toText with
      | some price => pure { batch with priceResponses := batch.priceResponses ++ [price] }
      | none => do
          let (price, quotePrice) ← getAssetPrice deps s query fuel asset
            (some batch.pricePropagations) batch.osmoQuotePrice
          pure (batch.propagate asset price quotePrice)

def getAssetPrices (deps : Deps) (s : State) (query : Query) : (fuel : Nat) → List AssetInfo →
    Option Queried → Option Decimal → Fueled StdError (List PriceResponse)
  | 0, _, _, _ => .outOfFuel
  | fuel + 1, assetInfos, queriedAssetPrices, osmoQuotePrice => do
      .lift (Outcome.guardErr (50 < assetInfos.length)
        (.genericErr "Max asset_infos length is 50"))
      let batch ← assetInfos.foldlM
        (priceEntry deps s query fuel (getAssetPrices deps s query fuel))
        ⟨[], queriedAssetPrices.getD [], osmoQuotePrice⟩
      pure batch.priceResponses

/-- `QueryMsg::Price`. -/
def queryPrice (deps : Deps) (s : State) (query : Query) (assetInfo : AssetInfo) (fuel : Nat) :
    Fueled StdError (List PriceResponse) :=
  getAssetPrices deps s query fuel [assetInfo] none none

/-- `QueryMsg::Prices`, which asks for no basket. -/
def queryPrices (deps : Deps) (s : State) (query : Query) (assetInfos : List AssetInfo)
    (fuel : Nat) : Fueled StdError (List PriceResponse) :=
  getAssetPrices deps s { query with basketId := none } fuel assetInfos none none

end Membrane.Oracle
