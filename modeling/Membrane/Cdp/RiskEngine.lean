import Membrane.Cdp.Query

/-!
# Supply and debt caps

`risk_engine.rs`, with `transform_caps_based_on_volatility` of `rates.rs` that it
uses: the running tally of supplied collateral, the caps it must stay under, and
the debt cap of each collateral type.
-/

namespace Membrane.Cdp

def transformCapsBasedOnVolatility (prices : PriceStore) (basket : Basket) : List SupplyCap :=
  basket.collateralSupplyCaps.map fun cap =>
    match prices.volatility.lookup cap.assetInfo.toText with
    | none => cap
    | some volStore =>
      if volStore.volatilityList.length = volatilityListLimit then
        match decimalMultiplication cap.supplyCapRatio volStore.index with
        | .ok newSupplyCap => { cap with supplyCapRatio := newSupplyCap }
        | .error _ => cap
      else cap

/-- `assert_basket_assets`: the assets as collateral of the basket. -/
def assertBasketAssets (basket : Basket) (assets : List Asset) : Result (List CAsset) :=
  assets.mapM fun asset => do
    let cAsset ← Outcome.ofOption
      (basket.collateralTypes.find? fun cAsset => cAsset.asset.info.equal asset.info)
      .invalidCollateral
    pure { cAsset with asset := asset }

def findCap (caps : List SupplyCap) (info : AssetInfo) : Option (Nat × SupplyCap) :=
  (caps.findIdx? fun cap => cap.assetInfo.equal info).bind fun i => caps[i]?.map fun cap => (i, cap)

def holdsAsset (assets : List CAsset) (info : AssetInfo) : Bool :=
  assets.any fun cAsset => cAsset.asset.info.equal info

/-- One asset of the tally loop in `update_basket_tally`. -/
def tallyAsset (addToCAsset : Bool) (basket : Basket) (cAsset : CAsset) : Result Basket :=
  match findCap basket.collateralSupplyCaps cAsset.asset.info with
  | none => pure basket
  | some (i, cap) => do
      let currentSupply ←
        (if addToCAsset then Uint128.add cap.currentSupply cAsset.asset.amount
        else pure ((Uint128.checkedSub cap.currentSupply cAsset.asset.amount).getD 0))
      let caps ← Outcome.setIndex basket.collateralSupplyCaps i
        { cap with currentSupply := currentSupply }
      let basketAsset ← Outcome.index basket.collateralTypes i
      let types ← Outcome.setIndex basket.collateralTypes i
        { basketAsset with asset := { basketAsset.asset with amount := currentSupply } }
      pure { basket with collateralSupplyCaps := caps, collateralTypes := types }

/-- Whether a cap on `info` concerns the position, given whether an earlier asset
    of the same cap made it do so. A withdrawn asset counts only if it is still in
    the position next to another one. -/
def concernsPosition (addToCAsset : Bool) (collateralAssets fullPositionsAssets : List CAsset)
    (inPosition : Bool) (info : AssetInfo) : Bool :=
  if addToCAsset then holdsAsset collateralAssets info || inPosition
  else if holdsAsset collateralAssets info then
    holdsAsset fullPositionsAssets info && decide (1 < fullPositionsAssets.length)
  else holdsAsset fullPositionsAssets info || inPosition

/-- The cap of one collateral type in `update_basket_tally`. The caps and the
    collateral types are extended together, so each ratio has its cap. -/
def assertSupplyCap (addToCAsset : Bool) (collateralAssets fullPositionsAssets : List CAsset)
    (supplyCaps : List SupplyCap) (entry : Decimal × Nat) : Result PUnit := do
  let cap ← Outcome.index supplyCaps entry.2
  let inPosition :=
    concernsPosition addToCAsset collateralAssets fullPositionsAssets false cap.assetInfo
  Outcome.guardErr (cap.supplyCapRatio < entry.1 ∧ inPosition = true) (.customError
    ("Supply cap ratio for " ++ cap.assetInfo.toText ++ " is over the limit (" ++ entry.1.toText ++
      " > " ++ cap.supplyCapRatio.toText ++ ")"))

/-- The summed ratio of the assets of a multi-asset cap. -/
def multiAssetRatio (basket : Basket) (basketRatios : List Decimal) (assets : List AssetInfo) :
    Outcome StdError Decimal :=
  assets.foldlM (fun totalRatio asset =>
    match findCap basket.collateralSupplyCaps asset with
    | none => pure totalRatio
    | some (i, _) => do Decimal.add totalRatio (← Outcome.index basketRatios i)) Decimal.zero

/-- One multi-asset cap in `update_basket_tally`. -/
def assertMultiAssetCap (addToCAsset : Bool) (collateralAssets fullPositionsAssets : List CAsset)
    (basket : Basket) (newBasketRatios : List Decimal) (multiAssetCap : MultiAssetSupplyCap) :
    Result PUnit := do
  let totalRatio ← liftStd (multiAssetRatio basket newBasketRatios multiAssetCap.assets)
  let inPosition := multiAssetCap.assets.foldl
    (concernsPosition addToCAsset collateralAssets fullPositionsAssets) false
  Outcome.guardErr (multiAssetCap.supplyCapRatio < totalRatio ∧ inPosition = true) (.customError
    ("Multi-Asset supply cap ratio for [" ++
      String.intercalate ", " (multiAssetCap.assets.map AssetInfo.toDebugText) ++
      "] is over the limit (" ++ totalRatio.toText ++ " > " ++
      multiAssetCap.supplyCapRatio.toText ++ ")"))

/-- `update_basket_tally`: the basket with its supply tallies moved, and the price
    store after the cap check, which a liquidation skips. -/
def updateBasketTally (deps : Deps) (env : Env) (config : Config) (prices : PriceStore)
    (basket : Basket) (collateralAssets fullPositionsAssets : List CAsset) (addToCAsset : Bool)
    (fromLiquidation : Bool) : Result (PriceStore × Basket) := do
  let basket ← collateralAssets.foldlM (tallyAsset addToCAsset) basket
  let supplyCaps := transformCapsBasedOnVolatility prices basket
  if fromLiquidation then pure (prices, basket)
  else do
    let (prices, newBasketRatios, _) ←
      liftStd (getCAssetRatios deps env config prices basket.collateralTypes basket)
    newBasketRatios.zipIdx.forM
      (assertSupplyCap addToCAsset collateralAssets fullPositionsAssets supplyCaps)
    basket.multiAssetSupplyCaps.forM
      (assertMultiAssetCap addToCAsset collateralAssets fullPositionsAssets basket newBasketRatios)
    pure (prices, basket)

def getStabilityPoolLiquidity (deps : Deps) (stabilityPool : Addr) : Outcome StdError Nat := do
  let resp ← Outcome.ofExcept (deps.stabilityPoolRaw stabilityPool)
  let assetPool ← Outcome.ofOption resp (.genericErr "Asset pool not found")
  pure assetPool.creditAmount

/-- `get_asset_liquidity`, asked of the configured contract. -/
def getAssetLiquidity (deps : Deps) (config : Config) (asset : AssetInfo) : Outcome StdError Nat :=
  Outcome.ofExcept (deps.liquidity (addrOr config.liquidityContract) asset)

def getOwnerLiquidityMultiplier (deps : Deps) (owner proxyAddr : Addr) :
    Outcome StdError (Decimal × Decimal) := do
  let resp ← Outcome.ofExcept (deps.getOwner proxyAddr owner)
  pure (resp.1, resp.2.getD Decimal.zero)

/-- The share of the total debt that collateral type `i` carries, written into its
    caps: those of the basket and entry `i` of the transformed ones. -/
def splitDebt (cAssetRatios : List Decimal) (creditAmount : Nat)
    (acc : List SupplyCap × List SupplyCap) (entry : CAsset × Nat) :
    Outcome StdError (List SupplyCap × List SupplyCap) :=
  acc.1.foldlM (fun (done, supplyCaps) cap =>
    if cap.assetInfo.equal entry.1.asset.info then do
      let ratio ← Outcome.index cAssetRatios entry.2
      let share ← Outcome.recover
        (decimalMultiplication ratio (← Decimal.fromRatio creditAmount 1)) Decimal.zero
      let debtTotal := share.toUintFloor
      let supplyCaps ←
        (if 0 < supplyCaps.length then do
          let volCap ← Outcome.index supplyCaps entry.2
          Outcome.setIndex supplyCaps entry.2 { volCap with debtTotal := debtTotal }
        else pure supplyCaps)
      pure (done ++ [{ cap with debtTotal := debtTotal }], supplyCaps)
    else pure (done ++ [cap], supplyCaps)) ([], acc.2)

/-- The debt cap of collateral type `i`. -/
def perAssetDebtCap (basket : Basket) (spLiquidity : Decimal) (debtCap : Nat)
    (entry : Decimal × Nat) : Outcome StdError Nat :=
  if basket.collateralSupplyCaps.isEmpty then Decimal.mulUint debtCap entry.1
  else do
    let cap ← Outcome.index basket.collateralSupplyCaps entry.2
    if cap.supplyCapRatio.isZero then pure 0
    else
      match cap.stabilityPoolRatioForDebtCap with
      | some spRatio => do Decimal.mulUint 1 (← decimalMultiplication spLiquidity spRatio)
      | none => Decimal.mulUint debtCap entry.1

/-- The debt cap of the whole basket, and the stability pool's liquidity that caps
    based on it use. -/
def basketDebtCap (deps : Deps) (env : Env) (config : Config) (basket : Basket)
    (cdtLiquidity : Option Nat) : Outcome StdError (Nat × Decimal) := do
  let ownerParams ← rewrapStd "Error at line 259: "
    (getOwnerLiquidityMultiplier deps env.contractAddress (addrOr config.osmosisProxy))
  let liquidity ←
    (if cdtLiquidity.getD 0 = 0 then getAssetLiquidity deps config basket.creditAsset.info
    else pure (cdtLiquidity.getD 0))
  let debtCap ← Decimal.mulUint 1
    (← decimalMultiplication (← Decimal.fromRatio liquidity 1) ownerParams.1)
  let raw ← Outcome.attempt (getStabilityPoolLiquidity deps (addrOr config.stabilityPool))
  let spLiquidity ←
    (match raw with
    | .ok amount => pure amount
    | .error _ => do
        let spPool ← Outcome.ofExcept (deps.stabilityPoolAsset (addrOr config.stabilityPool) none)
        pure spPool.creditAmount)
  let spLiquidity ← Decimal.fromRatio spLiquidity 1
  let spCapSpace ← decimalMultiplication spLiquidity ownerParams.2
  let debtCap ← Uint128.add debtCap (← Decimal.mulUint 1 spCapSpace)
  let minimumCap ← Uint128.mul config.baseDebtCapMultiplier config.debtMinimum
  let debtCap := if debtCap < minimumCap then minimumCap else debtCap
  -- debt under a cap based on the stability pool is not counted twice
  let debtCap ← basket.collateralSupplyCaps.foldlM (fun debtCap cap =>
    match cap.stabilityPoolRatioForDebtCap with
    | some spRatio => do
        subUint debtCap (← Decimal.mulUint 1 (← decimalMultiplication spCapSpace spRatio))
    | none => pure debtCap) debtCap
  pure (debtCap, spLiquidity)

/-- `get_basket_debt_caps`: the basket with its debt split and negative rates
    switched off at the cap, the transformed supply caps with the same split, and
    the debt cap of each collateral type. -/
def getBasketDebtCaps (deps : Deps) (env : Env) (config : Config) (prices : PriceStore)
    (basket : Basket) (supplyCaps : List SupplyCap) (cdtLiquidity : Option Nat) :
    Outcome StdError (Basket × List SupplyCap × List Nat) := do
  let (cAssetRatios, _) ←
    getCAssetRatiosImut deps env config prices basket.collateralTypes basket
  let (caps, supplyCaps) ← basket.collateralTypes.zipIdx.foldlM
    (splitDebt cAssetRatios basket.creditAsset.amount) (basket.collateralSupplyCaps, supplyCaps)
  let basket := { basket with collateralSupplyCaps := caps }
  let (debtCap, spLiquidity) ← basketDebtCap deps env config basket cdtLiquidity
  let proportion ← Decimal.fromRatio basket.creditAsset.amount debtCap
  let basket :=
    if Decimal.one ≤ proportion then { basket with negativeRates := false } else basket
  let perAssetDebtCaps ← cAssetRatios.zipIdx.mapM (perAssetDebtCap basket spLiquidity debtCap)
  pure (basket, supplyCaps, perAssetDebtCaps)

end Membrane.Cdp
