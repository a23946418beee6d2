import Membrane.Cdp.RiskEngine

/-!
# Interest

`rates.rs`: interest rates per collateral type, the rate indices, and the accrual
of interest to a position's debt, to the basket's total and to its pending
revenue. The source reads the configuration from storage inside these functions;
it is the one the handler loaded, so it is passed along.
-/

namespace Membrane.Cdp

/-- `SECONDS_PER_YEAR`. -/
def secondsPerYear : Nat := 31536000

/-- `MINIMUM_LIQUIDITY`. -/
def minimumLiquidity : Nat := 2000000000000

def accumulateInterestDec (decimal rate : Decimal) (timeElapsed : Nat) :
    Outcome StdError Decimal := do
  let appliedRate ← Decimal.checkedMul rate (← Decimal.fromRatio timeElapsed secondsPerYear)
  decimalMultiplication decimal appliedRate

/-- The rate of a collateral type before utilization: the hiked one, or the base
    rate over the liquidation limit. -/
def baseRate (config : Config) (basket : Basket) (asset : CAsset) : Outcome StdError Decimal :=
  match config.rateHikeRate, asset.hikeRates with
  | some hike, some true => pure hike
  | _, _ => do
    decimalMultiplication basket.baseInterestRate (← decimalDivision Decimal.one asset.maxLTV)

/-- The filled proportions of a cap: debt, then supply. A zero cap counts as full. -/
def filledProportions (debtCaps : List Nat) (basketRatios : List Decimal)
    (entry : SupplyCap × Nat) :
    Outcome StdError (Decimal × Decimal) := do
  if entry.1.supplyCapRatio.isZero then pure (Decimal.percent 100, Decimal.percent 100)
  else do
    let debtCap ← Outcome.index debtCaps entry.2
    if debtCap = 0 then pure (Decimal.zero, Decimal.zero)
    else do
      let debtProportion ← Decimal.fromRatio entry.1.debtTotal debtCap
      let ratio ← Outcome.index basketRatios entry.2
      let supplyProportion ← decimalDivision ratio entry.1.supplyCapRatio
      pure (debtProportion, supplyProportion)

/-- The multiplier of the second slope: one for each percent over the desired
    utilization, plus one, times the configured slope. -/
def slopeMultiplier (config : Config) (proportion : Decimal) : Outcome StdError Decimal := do
  let percentOverDesired ←
    decimalMultiplication (← decimalSubtraction proportion Decimal.one) (Decimal.percent 10000)
  let multiplier ← Decimal.add percentOverDesired Decimal.one
  Decimal.mul multiplier config.rateSlopeMultiplier

def slopeTwoRate (config : Config) (rate proportion : Decimal) : Outcome StdError Decimal := do
  let multiplier ← slopeMultiplier config proportion
  let scaled ← decimalMultiplication rate proportion
  pure (Decimal.min (← decimalMultiplication scaled multiplier) Decimal.one)

/-- The two-slope rate of collateral type `i`. -/
def twoSlopeRate (config : Config) (proportions : List (Decimal × Decimal))
    (entry : Decimal × Nat) :
    Outcome StdError Decimal := do
  let (debt, supply) ← Outcome.index proportions entry.2
  if supply ≤ Decimal.one ∨ (Decimal.one < debt ∧ supply < debt) then
    if Decimal.one < debt then slopeTwoRate config entry.1 debt
    else do pure (Decimal.min (← decimalMultiplication entry.1 debt) Decimal.one)
  else if config.rateHikeRate = some entry.1 then do
    -- a hiked rate is added to, not multiplied
    let multiplier ← slopeMultiplier config supply
    let scaled ← decimalMultiplication entry.1 supply
    pure (Decimal.min
      (← Decimal.add scaled (← decimalDivision multiplier (Decimal.percent 10000))) Decimal.one)
  else slopeTwoRate config entry.1 supply

/-- One multi-asset cap in `get_interest_rates`: when it is fuller than the caps of
    its assets, it sets their rates. -/
def applyMultiAssetCap (config : Config) (basket : Basket) (basketRatios rates : List Decimal)
    (proportions : List (Decimal × Decimal)) (twoSlopeRates : List Decimal)
    (multiAssetCap : MultiAssetSupplyCap) : Outcome StdError (List Decimal) := do
  let totalRatio ← multiAssetRatio basket basketRatios multiAssetCap.assets
  let proportion ← decimalDivision totalRatio multiAssetCap.supplyCapRatio
  multiAssetCap.assets.foldlM (fun twoSlopeRates asset =>
    match findCap basket.collateralSupplyCaps asset with
    | none => pure twoSlopeRates
    | some (i, _) => do
        let (debt, supply) ← Outcome.index proportions i
        if Decimal.one < proportion ∧ supply < proportion ∧ debt < proportion then do
          let rate ← Outcome.index rates i
          Outcome.setIndex twoSlopeRates i (← slopeTwoRate config rate proportion)
        else pure twoSlopeRates) twoSlopeRates

/-- `get_interest_rates`, with the price store and the basket it leaves. -/
def getInterestRates (deps : Deps) (env : Env) (config : Config) (prices : PriceStore)
    (basket : Basket) (supplyCaps : List SupplyCap) (cdtLiquidity : Option Nat) :
    Outcome StdError (PriceStore × Basket × List Decimal) := do
  let rates ← basket.collateralTypes.mapM (baseRate config basket)
  let (basket, supplyCaps, debtCaps) ← rewrapStd "Error at line 214: "
    (getBasketDebtCaps deps env config prices basket supplyCaps cdtLiquidity)
  let (prices, basketRatios, _) ←
    getCAssetRatios deps env config prices basket.collateralTypes basket
  let proportions ← supplyCaps.zipIdx.mapM (filledProportions debtCaps basketRatios)
  let twoSlopeRates ← rates.zipIdx.mapM (twoSlopeRate config proportions)
  let twoSlopeRates ← basket.multiAssetSupplyCaps.foldlM
    (applyMultiAssetCap config basket basketRatios rates proportions) twoSlopeRates
  pure (prices, basket, twoSlopeRates)

/-- A collateral rate with the repayment rate added or taken off. -/
def addRepaymentRate (negativeRate : Bool) (creditPriceRate rate : Decimal) :
    Outcome StdError Decimal :=
  if negativeRate then
    if rate < creditPriceRate then pure Decimal.zero else decimalSubtraction rate creditPriceRate
  else Decimal.add rate creditPriceRate

def updateRateIndices (deps : Deps) (env : Env) (config : Config) (prices : PriceStore)
    (basket : Basket) (supplyCaps : List SupplyCap) (negativeRate : Bool)
    (creditPriceRate : Decimal) (cdtLiquidity : Option Nat) :
    Outcome StdError (PriceStore × Basket) := do
  let (prices, basket, interestRates) ← rewrapStd "Error at line 109: "
    (getInterestRates deps env config prices basket supplyCaps cdtLiquidity)
  let interestRates ← interestRates.mapM (addRepaymentRate negativeRate creditPriceRate)
  let timeElapsed ← subUint env.blockTime basket.ratesLastAccrued
  let collateralTypes ← basket.collateralTypes.zipIdx.mapM fun entry => do
    let rate ← Outcome.index interestRates entry.2
    let accruedRate ← accumulateInterestDec entry.1.rateIndex rate timeElapsed
    let rateIndex ← Decimal.add entry.1.rateIndex accruedRate
    pure { entry.1 with rateIndex := rateIndex }
  pure (prices, { basket with
    lastestCollateralRates := interestRates.map fun rate => ⟨rate, env.blockTime⟩
    collateralTypes := collateralTypes
    ratesLastAccrued := env.blockTime })

/-- One asset of the loop in `get_credit_rate_of_change`: its share of the change
    of the index, and the asset with the basket's index. -/
def indexChange (basket : Basket) (ratios : List Decimal) (acc : Decimal × List CAsset)
    (entry : CAsset × Nat) : Outcome StdError (Decimal × List CAsset) :=
  match basket.collateralTypes.find? fun basketAsset =>
      basketAsset.asset.info.equal entry.1.asset.info with
  | none => pure (acc.1, acc.2 ++ [entry.1])
  | some basketAsset => do
      let ratio ← Outcome.index ratios entry.2
      let change ← decimalDivision basketAsset.rateIndex entry.1.rateIndex
      -- an overflow of this product is an explicit panic in the source
      let share ← (match decimalMultiplication ratio change with
        | .ok share => pure share
        | .error _ => Outcome.abort)
      let sum ← Decimal.add acc.1 share
      pure (sum, acc.2 ++ [{ entry.1 with rateIndex := basketAsset.rateIndex }])

/-- `get_credit_rate_of_change`: the rate, the ratios, and the price store, basket
    and collateral it leaves. -/
def getCreditRateOfChange (deps : Deps) (env : Env) (config : Config) (prices : PriceStore)
    (basket : Basket) (collateralAssets : List CAsset) (negativeRate : Bool)
    (creditPriceRate : Decimal) (cdtLiquidity : Option Nat) :
    Outcome StdError (PriceStore × Basket × List CAsset × Decimal × List Decimal) := do
  let (prices, ratios, _) ← rewrapStd "Error at line 400: "
    (getCAssetRatios deps env config prices collateralAssets basket)
  let supplyCaps := transformCapsBasedOnVolatility prices basket
  let (prices, basket) ← rewrapStd "Error at line 416: "
    (updateRateIndices deps env config prices basket supplyCaps negativeRate creditPriceRate
      cdtLiquidity)
  let (rateOfChange, collateralAssets) ←
    collateralAssets.zipIdx.foldlM (indexChange basket ratios) (Decimal.zero, [])
  pure (prices, basket, collateralAssets, rateOfChange, ratios)

def getDiscountedInterest (deps : Deps) (discountsContract : Addr) (user : String)
    (undiscountedInterest : Nat) : Outcome StdError Nat := do
  let discount ← Outcome.ofExcept (deps.userDiscount discountsContract user)
  let percentOfInterest ← decimalSubtraction Decimal.one discount
  let discounted ←
    decimalMultiplication (← Decimal.fromRatio undiscountedInterest 1) percentOfInterest
  Decimal.mulUint 1 discounted

/-- The share of the debt supply that the market's liquidity makes up. -/
def liquidityRatio (liquidity currentSupply : Nat) : Outcome StdError Decimal :=
  if currentSupply ≠ 0 then do
    decimalDivision (← Decimal.fromRatio liquidity 1) (← Decimal.fromRatio currentSupply 1)
  else pure Decimal.one

/-- The market price of the debt token, nothing when the oracle fails or says zero. -/
def creditTwapPrice (deps : Deps) (env : Env) (config : Config) (prices : PriceStore)
    (basket : Basket) (isDepositFunction : Bool) : Outcome StdError (Option Decimal) := do
  let creditAsset : CAsset :=
    ⟨basket.creditAsset, Decimal.zero, Decimal.zero, Decimal.one, none, some false⟩
  let asked ← Outcome.attempt
    (getAssetValues deps env config prices [creditAsset] basket isDepositFunction)
  match asked with
  | .ok assets => do
      let price ← Outcome.index assets.2 0
      pure (if price.price.isZero then none else some price.price)
  | .error _ => pure none

/-- The difference between market and redemption price, and whether the market is
    above. -/
def priceDifference (market redemption : Decimal) : Outcome StdError (Bool × Decimal) :=
  if redemption < market then do
    pure (true, ← decimalSubtraction (← decimalDivision market redemption) Decimal.one)
  else if market < redemption then do
    pure (false, ← decimalSubtraction (← decimalDivision redemption market) Decimal.one)
  else pure (false, Decimal.zero)

/-- The repayment accrual of `accrue`: the redemption price moves towards the market
    price. Returns the basket, the sign and the rate of the move. -/
def accrueRepaymentPrice (env : Env) (config : Config) (basket : Basket) (timeElapsed : Nat)
    (market : Decimal) : Outcome StdError (Basket × Bool × Decimal) := do
  let basket := { basket with creditLastAccrued := env.blockTime }
  let (negativeRate, difference) ← priceDifference market basket.creditPrice.price
  if basket.cpcMarginOfError < difference then do
    let creditPriceRate ← decimalMultiplication difference config.cpcMultiplier
    let appliedRate ←
      Decimal.checkedMul creditPriceRate (← Decimal.fromRatio timeElapsed secondsPerYear)
    let appliedRate ←
      (if negativeRate then decimalSubtraction Decimal.one appliedRate
      else Decimal.add appliedRate Decimal.one)
    let newPrice ←
      (if negativeRate = false ∨ basket.negativeRates = true then
        decimalMultiplication basket.creditPrice.price appliedRate
      else pure basket.creditPrice.price)
    pure ({ basket with creditPrice := { basket.creditPrice with price := newPrice } },
      negativeRate, creditPriceRate)
  else pure (basket, negativeRate, Decimal.zero)

/-- The interest that `rateOfChange` puts on a debt, after the user's discount. -/
def accruedInterest (deps : Deps) (config : Config) (user : String) (creditAmount : Nat)
    (rateOfChange : Decimal) : Outcome StdError Nat := do
  let newCredit ← decimalMultiplication (← Decimal.fromRatio creditAmount 1) rateOfChange
  let newCreditAmount ← Decimal.mulUint 1 newCredit
  if creditAmount < newCreditAmount then
    match config.discountsContract with
    | some contract =>
      Outcome.recover (getDiscountedInterest deps contract user (newCreditAmount - creditAmount))
        (newCreditAmount - creditAmount)
    | none => pure (newCreditAmount - creditAmount)
  else pure 0

/-- What `accrue` leaves: the price store, the position and the basket, and the
    ratios it returns. -/
structure Accrued where
  prices : PriceStore
  position : Position
  basket : Basket
  ratios : List Decimal

def accrue (deps : Deps) (env : Env) (config : Config) (prices : PriceStore) (position : Position)
    (basket : Basket) (user : String) (isDepositFunction : Bool) : Outcome StdError Accrued := do
  let timeElapsed ← subUint env.blockTime basket.creditLastAccrued
  let liquidity ← getAssetLiquidity deps config basket.creditAsset.info
  let ratio ← liquidityRatio liquidity basket.creditAsset.amount
  let market ← creditTwapPrice deps env config prices basket isDepositFunction
  let skipAccrual : Bool :=
    decide (ratio < Decimal.percent 3) || decide (liquidity < minimumLiquidity) || !basket.oracleSet
  let (basket, negativeRate, creditPriceRate) ←
    (match skipAccrual, market with
    | false, some price => accrueRepaymentPrice env config basket timeElapsed price
    | _, _ => pure (basket, false, Decimal.zero))
  let (prices, basket, collateralAssets, rateOfChange, ratios) ← rewrapStd "Error at line 605: "
    (getCreditRateOfChange deps env config prices basket position.collateralAssets negativeRate
      creditPriceRate (some liquidity))
  let interest ← accruedInterest deps config user position.creditAmount rateOfChange
  let pendingRevenue ← Uint128.add basket.pendingRevenue interest
  let creditAmount ← Uint128.add position.creditAmount interest
  let basketCredit ← Uint128.add basket.creditAsset.amount interest
  pure {
    prices := prices
    position := { position with collateralAssets := collateralAssets, creditAmount := creditAmount }
    basket := { basket with
      pendingRevenue := pendingRevenue
      creditAsset := { basket.creditAsset with amount := basketCredit } }
    ratios := ratios }

end Membrane.Cdp
