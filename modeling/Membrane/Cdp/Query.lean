import Membrane.Cdp.State

/-!
# Prices, values and loan-to-value

`query.rs`: asset prices from storage or the oracle, the values and ratios of a
list of collateral, the volatility trackers that a price read updates, and the
insolvency check.
-/

namespace Membrane.Cdp

def volatilityListLimit : Nat := 48

/-- The prices of one asset that `query_prices` finds in storage, if they are
    recent enough. -/
def storedPriceIfRecent (env : Env) (config : Config) (prices : PriceStore)
    (assetInfo : AssetInfo) :
    Outcome StdError (Option PriceResponse) :=
  match prices.storedPrices.lookup assetInfo.toText with
  | none => pure none
  | some stored => do
      let timeElapsed ← subUint env.blockTime stored.lastTimeUpdated
      pure (if timeElapsed ≤ config.oracleTimeLimit then some stored.price else none)

/-- One asset of the first loop of `query_prices`: a usable stored price is taken
    and the asset leaves the bulk query. -/
def collectStoredPrice (env : Env) (config : Config) (prices : PriceStore)
    (isDepositFunction : Bool)
    (acc : List (String × PriceResponse) × List AssetInfo) (assetInfo : AssetInfo) :
    Outcome StdError (List (String × PriceResponse) × List AssetInfo) := do
  let oldPrice ← storedPriceIfRecent env config prices assetInfo
  match isDepositFunction, oldPrice with
  | false, some price =>
    pure (acc.1 ++ [(assetInfo.toText, price)], acc.2.filter fun asset => !asset.equal assetInfo)
  | _, _ => pure acc

/-- The last loop of `query_prices` for one asset: its prices move from the
    unsorted list to the sorted one. Indices are those of the list before the
    round, as in the source. -/
def takePrices (acc : List PriceResponse × List (String × PriceResponse)) (assetInfo : AssetInfo) :
    Outcome StdError (List PriceResponse × List (String × PriceResponse)) :=
  acc.2.zipIdx.foldlM (fun acc entry =>
    if entry.1.1 = assetInfo.toText then do
      let rest ← Outcome.removeIndex acc.2 entry.2
      pure (acc.1 ++ [entry.1.2], rest)
    else pure acc) acc

def queryPrices (deps : Deps) (env : Env) (config : Config) (prices : PriceStore)
    (assetInfos : List AssetInfo) (basket : Basket) (isDepositFunction : Bool) :
    Outcome StdError (List PriceResponse) := do
  let first ← Outcome.index assetInfos 0
  let twapTimeframe :=
    if first.equal basket.creditAsset.info then config.creditTwapTimeframe
    else config.collateralTwapTimeframe
  let (found, bulk) ←
    assetInfos.foldlM (collectStoredPrice env config prices isDepositFunction) ([], assetInfos)
  let queried ←
    (if bulk.length ≠ 0 then do
      let res ← Outcome.ofExcept (deps.oraclePrices (addrOr config.oracleContract) bulk
        twapTimeframe config.oracleTimeLimit)
      res.zipIdx.mapM fun entry => do
        let asset ← Outcome.index bulk entry.2
        pure (asset.toText, entry.1)
    else pure [])
  let (sorted, _) ← assetInfos.foldlM takePrices ([], found ++ queried)
  pure sorted

/-- `get_asset_values`: the values and the prices of a list of collateral. -/
def getAssetValues (deps : Deps) (env : Env) (config : Config) (prices : PriceStore)
    (assets : List CAsset) (basket : Basket) (isDepositFunction : Bool) :
    Outcome StdError (List Decimal × List PriceResponse) := do
  Outcome.guardErr (50 < assets.length) (.genericErr "Max asset_infos length is 50")
  if config.oracleContract.isSome ∧ 0 < assets.length then do
    let cAssetPrices ← queryPrices deps env config prices (assets.map (·.asset.info)) basket
      isDepositFunction
    let cAssetValues ← assets.zipIdx.mapM fun entry => do
      let price ← Outcome.index cAssetPrices entry.2
      price.getValue entry.1.asset.amount
    pure (cAssetValues, cAssetPrices)
  else pure ([], [])

def ratiosOf (cAssetValues : List Decimal) (totalValue : Decimal) :
    Outcome StdError (List Decimal) :=
  cAssetValues.mapM fun value =>
    if totalValue.isZero then pure Decimal.zero else decimalDivision value totalValue

/-- The new volatility tracker of an asset whose price moved from `stored` to
    `price`. -/
def updateVolatility (env : Env) (stored : StoredPrice) (price : PriceResponse)
    (volatilityStore : CollateralVolatility) : Outcome StdError CollateralVolatility := do
  let newVolatility ← decimalDivision (price.price.absDiff stored.price.price) stored.price.price
  let timeElapsed ← subUint env.blockTime stored.lastTimeUpdated
  let speedOfVolatility ←
    Outcome.recover (decimalDivision newVolatility (Decimal.ofNat timeElapsed)) Decimal.zero
  let pushed := volatilityStore.volatilityList ++ [speedOfVolatility]
  let kept := if volatilityListLimit < pushed.length then pushed.drop 1 else pushed
  let avgVolatility ← decimalDivision (← Decimal.sum kept) (Decimal.ofNat kept.length)
  let changeInIndex ← decimalDivision avgVolatility speedOfVolatility
  -- a change below one becomes one minus the new volatility, or 1% when that is negative
  let changeInIndex ←
    (if changeInIndex < Decimal.one then
      Outcome.recover (Decimal.checkedSub Decimal.one newVolatility) (Decimal.percent 1)
    else pure changeInIndex)
  let index ← decimalMultiplication volatilityStore.index changeInIndex
  pure ⟨Decimal.min Decimal.one index, kept⟩

/-- One asset of the loop in `get_cAsset_ratios`: a new price is stored, and if it
    replaces another the volatility tracker moves. -/
def trackPrice (env : Env) (cAssetPrices : List PriceResponse) (prices : PriceStore)
    (entry : CAsset × Nat) : Outcome StdError PriceStore := do
  let key := entry.1.asset.info.toText
  let price ← Outcome.index cAssetPrices entry.2
  let newStored : StoredPrice := ⟨price, env.blockTime⟩
  match prices.storedPrices.lookup key with
  | none => pure { prices with storedPrices := prices.storedPrices.insert key newStored }
  | some stored =>
    if stored.price.price = price.price then pure prices
    else do
      let volatilityStore := (prices.volatility.lookup key).getD ⟨Decimal.one, []⟩
      let moved ← updateVolatility env stored price volatilityStore
      pure ⟨prices.storedPrices.insert key newStored, prices.volatility.insert key moved⟩

/-- `get_cAsset_ratios`: the ratios and prices of a list of collateral, with the
    price store after the read. -/
def getCAssetRatios (deps : Deps) (env : Env) (config : Config) (prices : PriceStore)
    (collateralAssets : List CAsset) (basket : Basket) :
    Outcome StdError (PriceStore × List Decimal × List PriceResponse) := do
  let (cAssetValues, cAssetPrices) ←
    getAssetValues deps env config prices collateralAssets basket false
  let prices' ← collateralAssets.zipIdx.foldlM (trackPrice env cAssetPrices) prices
  let totalValue ← Decimal.sum cAssetValues
  let cAssetRatios ← ratiosOf cAssetValues totalValue
  pure (prices', cAssetRatios, cAssetPrices)

/-- `get_cAsset_ratios_imut`: the ratios without tracking prices. -/
def getCAssetRatiosImut (deps : Deps) (env : Env) (config : Config) (prices : PriceStore)
    (collateralAssets : List CAsset) (basket : Basket) :
    Outcome StdError (List Decimal × List PriceResponse) := do
  let (cAssetValues, cAssetPrices) ←
    getAssetValues deps env config prices collateralAssets basket false
  let totalValue ← Decimal.sum cAssetValues
  let cAssetRatios ← ratiosOf cAssetValues totalValue
  pure (cAssetRatios, cAssetPrices)

/-- What `calculate_avg_LTV` returns. -/
structure AvgLTV where
  avgBorrowLTV : Decimal
  avgMaxLTV : Decimal
  totalValue : Decimal
  cAssetPrices : List PriceResponse
  cAssetRatios : List Decimal
  deriving DecidableEq, Repr

/-- The average of one limit of the collateral, weighted by value. -/
def weightedLTV (limit : CAsset → Decimal) (cAssetRatios : List Decimal)
    (collateralAssets : List CAsset) : Outcome StdError Decimal :=
  collateralAssets.zipIdx.foldlM (fun acc entry => do
    let ratio ← Outcome.index cAssetRatios entry.2
    Decimal.add acc (← decimalMultiplication ratio (limit entry.1))) Decimal.zero

def calculateAvgLTV (cAssetValues : List Decimal) (cAssetPrices : List PriceResponse)
    (collateralAssets : List CAsset) : Outcome StdError AvgLTV := do
  let totalValue ← Decimal.sum cAssetValues
  let cAssetRatios ← ratiosOf cAssetValues totalValue
  if cAssetRatios.length = 0 then
    pure ⟨Decimal.percent 0, Decimal.percent 0, Decimal.percent 0, [], []⟩
  else if cAssetRatios.length = 1 then do
    let only ← Outcome.index collateralAssets 0
    pure ⟨only.maxBorrowLTV, only.maxLTV, totalValue, cAssetPrices, cAssetRatios⟩
  else do
    let avgBorrowLTV ← weightedLTV CAsset.maxBorrowLTV cAssetRatios collateralAssets
    let avgMaxLTV ← weightedLTV CAsset.maxLTV cAssetRatios collateralAssets
    pure ⟨avgBorrowLTV, avgMaxLTV, totalValue, cAssetPrices, cAssetRatios⟩

def getAvgLTV (deps : Deps) (env : Env) (config : Config) (prices : PriceStore) (basket : Basket)
    (collateralAssets : List CAsset) (isDepositFunction : Bool) : Outcome StdError AvgLTV := do
  let (cAssetValues, cAssetPrices) ←
    getAssetValues deps env config prices collateralAssets basket isDepositFunction
  calculateAvgLTV cAssetValues cAssetPrices collateralAssets

/-- `insolvency_check_calc`: whether the debt is above the limit, the current
    loan-to-value and the available fee. -/
def insolvencyCheckCalc (avgLTVs : AvgLTV) (collateralAssets : List CAsset) (creditAmount : Nat)
    (creditPrice : PriceResponse) (maxBorrow : Bool) : Outcome StdError (Bool × Decimal × Nat) := do
  let totalAssets ← Uint128.sum (collateralAssets.map (·.asset.amount))
  if totalAssets = 0 ∧ creditAmount ≠ 0 then pure (true, Decimal.percent 100, 0)
  else if creditAmount = 0 then pure (false, Decimal.percent 0, 0)
  else do
    let debtValue ← creditPrice.getValue creditAmount
    let currentLTV ← Outcome.mapErr (fun _ => .genericErr
      ("Division by zero in insolvency_check_calc, line 907. debt_value: " ++ debtValue.toText ++
        ", total_asset_value: " ++ avgLTVs.totalValue.toText))
      (Decimal.checkedDiv debtValue avgLTVs.totalValue)
    let check : Bool :=
      if maxBorrow then decide (avgLTVs.avgBorrowLTV < currentLTV)
      else decide (avgLTVs.avgMaxLTV < currentLTV)
    let availableFee ←
      (if check ∧ avgLTVs.avgMaxLTV < currentLTV then do
        let fee ← Decimal.checkedSub currentLTV avgLTVs.avgMaxLTV
        let liqRange ← Decimal.checkedSub currentLTV avgLTVs.avgBorrowLTV
        let share ← Outcome.mapErr (fun _ => .genericErr
          ("Division by zero in insolvency_check_calc, line 926. liq_range: " ++ liqRange.toText ++
            ", current_LTV: " ++ currentLTV.toText)) (Decimal.checkedDiv liqRange currentLTV)
        Decimal.mulUint 1 (← Decimal.checkedMul (← Decimal.checkedMul share debtValue) fee)
      else pure 0)
    pure (check, currentLTV, availableFee)

def insolvencyCheck (deps : Deps) (env : Env) (config : Config) (prices : PriceStore)
    (basket : Basket) (collateralAssets : List CAsset) (creditAmount : Nat)
    (creditPrice : PriceResponse) (maxBorrow : Bool) :
    Outcome StdError ((Bool × Decimal × Nat) × AvgLTV) := do
  let avgLTVs ← getAvgLTV deps env config prices basket collateralAssets false
  let res ← insolvencyCheckCalc avgLTVs collateralAssets creditAmount creditPrice maxBorrow
  pure (res, avgLTVs)

end Membrane.Cdp
