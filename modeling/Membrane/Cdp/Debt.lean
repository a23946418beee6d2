import Membrane.Cdp.Positions

/-!
# Repaying and increasing debt

`repay`, `liq_repay` and `increase_debt` of `positions.rs`.
-/

namespace Membrane.Cdp

/-- Whether a sender may leave a position with less than the minimum debt: the
    router, the stability pool and the liquidation queue may. -/
def mayLeaveSmallDebt (config : Config) (basket : Basket) (sender : Addr) : Bool :=
  config.dexRouter == some sender || config.stabilityPool == some sender ||
    basket.liqQueue == some sender

def checkRepayState (repayAmount prevCreditAmount positionId : Nat) (owner : Addr) (s : State) :
    Result PUnit := do
  let (_, target) ← getTargetPosition s owner positionId
  if prevCreditAmount ≤ repayAmount ∧ target.creditAmount ≠ 0 then
    Outcome.fail (.customError "Conditional 1: Possible state error")
  else do
    let expected ← subUint prevCreditAmount repayAmount
    Outcome.guardErr (target.creditAmount ≠ expected)
      (.customError "Conditional 2: Possible state error")

/-- The write of `repay`: the position at `positionIndex` is replaced, or removed
    when its stored collateral is empty. The flag says that it was removed. -/
def storeRepaid (owner : Addr) (positionIndex : Nat) (target : Position)
    (positions : KeyMap Addr (List Position)) :
    Result (KeyMap Addr (List Position) × Bool) := do
  let updating := (positions.lookup owner).getD []
  let stored ← Outcome.index updating positionIndex
  if checkForEmptyPosition stored.collateralAssets then do
    let updated ← Outcome.removeIndex updating positionIndex
    pure (positions.insert owner updated, true)
  else do
    let updated ← Outcome.setIndex updating positionIndex target
    pure (positions.insert owner updated, false)

/-- The position and basket of a repayment once interest has accrued, which it has
    not when the stability pool repays. -/
def accrueForRepay (deps : Deps) (env : Env) (info : MessageInfo) (owner : Addr)
    (target : Position) (s : State) : Result (PriceStore × Position × Basket) :=
  if info.sender ≠ addrOr s.config.stabilityPool then do
    let out ← liftStd (accrue deps env s.config s.prices target s.basket owner false)
    pure (out.prices, out.position, out.basket)
  else pure (s.prices, target, s.basket)

/-- The check of `repay` on what debt it leaves. -/
def checkMinimumDebt (config : Config) (basket : Basket) (sender : Addr) (creditAmount : Nat) :
    Result PUnit := do
  let value ← liftStd (basket.creditPrice.getValue creditAmount)
  let minimum ← Decimal.fromRatio config.debtMinimum 1
  Outcome.guardErr
    (value < minimum ∧ creditAmount ≠ 0 ∧ mayLeaveSmallDebt config basket sender = false)
    (.belowMinimumDebt config.debtMinimum value.toUintFloor)

/-- The message that returns an excess repayment, to `recipient`. -/
def excessMsg (basket : Basket) (excess : Nat) (recipient : Addr) :
    Outcome StdError (List (CosmosMsg OutMsg)) :=
  if excess = 0 then pure []
  else do pure [← withdrawalMsg { basket.creditAsset with amount := excess } recipient]

/-- Who an excess repayment is returned to: the sender by default. An address is
    only validated when there is an excess. -/
def excessRecipient (deps : Deps) (info : MessageInfo) (excess : Nat)
    (sendExcessTo : Option String) :
    Outcome StdError Addr :=
  if excess = 0 then pure info.sender else validatePositionOwner deps info sendExcessTo

def repay (deps : Deps) (env : Env) (info : MessageInfo) (positionId : Nat)
    (positionOwner : Option String) (creditAsset : Asset) (sendExcessTo : Option String)
    (s : State) : Result (State × Response OutMsg) := do
  Outcome.guardErr (s.basket.frozen = true) .frozen
  let owner ← liftStd (validatePositionOwner deps info positionOwner)
  let (positionIndex, target) ← getTargetPosition s owner positionId
  let (prices, target, basket) ← accrueForRepay deps env info owner target s
  let prevCreditAmount := target.creditAmount
  let excessRepayment := creditAsset.amount - prevCreditAmount
  let repaid := creditAsset.amount - excessRepayment
  let target := { target with creditAmount := prevCreditAmount - creditAsset.amount }
  let (prices, basket) ←
    (if target.creditAmount = 0 then
      updateBasketTally deps env s.config prices basket target.collateralAssets
        target.collateralAssets false false
    else pure (prices, basket))
  checkMinimumDebt s.config basket info.sender target.creditAmount
  let (positions, removed) ← storeRepaid owner positionIndex target s.positions
  let (burnAndRev, basket) ← liftStd
    (creditBurnRevMsg s.config env { creditAsset with amount := repaid } basket)
  let recipient ← liftStd (excessRecipient deps info excessRepayment sendExcessTo)
  let excess ← liftStd (excessMsg basket excessRepayment recipient)
  let basket := { basket with
    creditAsset := { basket.creditAsset with amount := basket.creditAsset.amount - repaid } }
  let s := { s with prices := prices, positions := positions, basket := basket }
  (if removed then pure ⟨⟩ else checkRepayState repaid prevCreditAmount positionId owner s)
  pure (s, Response.addMessages {} (burnAndRev ++ excess))

/-! ## Repayment by the stability pool in a liquidation -/

/-- The debt left after the stability pool's repayment, the amount of it that
    counts, and the excess. One unit left counts as none. -/
def liqRepayAmounts (debt amount : Nat) : Nat × Nat × Nat :=
  if amount ≤ debt then (if debt - amount = 1 then 0 else debt - amount, amount, 0)
  else (0, debt, amount - debt)

/-- The variables of the distribution loop in `liq_repay`. -/
structure DistributionLoop where
  collateralAssets : List CAsset
  liquidatedAssets : List CAsset
  distributionAssets : List Asset
  coins : List Coin

/-- One collateral asset of the distribution to the stability pool. -/
def distributeAsset (prop : LiquidationPropagation) (repayValue : Decimal) (loop : DistributionLoop)
    (entry : CAsset × Nat) : Outcome StdError DistributionLoop := do
  let ratio ← Outcome.index prop.cAssetRatios entry.2
  let collateralRepayValue ← decimalMultiplication repayValue ratio
  let price ← Outcome.index prop.cAssetPrices entry.2
  let collateralRepayAmount ← price.getAmount collateralRepayValue
  let collateralWFee ←
    Decimal.mulUint collateralRepayAmount (← Decimal.add prop.spLiqFee Decimal.one)
  let distributionAsset := { entry.1.asset with amount := collateralWFee }
  let held ← Outcome.index loop.collateralAssets entry.2
  let left ← subUint held.asset.amount collateralWFee
  let collateralAssets ← Outcome.setIndex loop.collateralAssets entry.2
    { held with asset := { held.asset with amount := left } }
  let coin ← assetToCoin distributionAsset
  pure {
    collateralAssets := collateralAssets
    liquidatedAssets := loop.liquidatedAssets ++ [{ entry.1 with asset := distributionAsset }]
    distributionAssets := loop.distributionAssets ++ [distributionAsset]
    coins := loop.coins ++ [coin] }

/-- `liq_repay`: works on the position and the basket that the liquidation left in
    its propagation, not on the stored ones. -/
def liqRepay (deps : Deps) (env : Env) (info : MessageInfo) (creditAsset : Asset) (s : State) :
    Result (State × Response OutMsg) := do
  let prop ← Outcome.ofOption s.liquidation
    (.std (.notFound "cdp::state::LiquidationPropagation"))
  let config := prop.config
  Outcome.guardErr (config.stabilityPool ≠ some info.sender) (.unauthorized config.owner)
  let (debtLeft, repaid, excessRepayment) :=
    liqRepayAmounts prop.targetPosition.creditAmount creditAsset.amount
  let excess ← liftStd (excessMsg prop.basket excessRepayment (addrOr config.stabilityPool))
  let (burnAndRev, basket) ← liftStd
    (creditBurnRevMsg config env { creditAsset with amount := repaid } prop.basket)
  let basketCredit ← Outcome.ofOption (Uint128.checkedSub basket.creditAsset.amount repaid)
    (.customError "Repay amount is greater than Basket credit amount in liq_repay")
  let basket := { basket with creditAsset := { basket.creditAsset with amount := basketCredit } }
  let repayValue ← liftStd (basket.creditPrice.getValue repaid)
  let totalRepaid ← Decimal.add prop.totalRepaid (← Decimal.fromRatio repaid 1)
  let repaidValue ← liftStd (basket.creditPrice.getValue totalRepaid.toUintFloor)
  Outcome.guardErr (repaidValue < prop.callerFeeValuePaid)
    (.customError "Caller fee is greater than total repaid value")
  let loop ← liftStd (prop.targetPosition.collateralAssets.zipIdx.foldlM
    (distributeAsset prop repayValue)
    ⟨prop.targetPosition.collateralAssets, prop.liquidatedAssets, [], []⟩)
  let target := { prop.targetPosition with
    creditAmount := debtLeft, collateralAssets := loop.collateralAssets }
  let (prices, basket) ←
    (if debtLeft = 0 then
      updateBasketTally deps env config s.prices basket
        (target.collateralAssets ++ loop.liquidatedAssets) target.collateralAssets false true
    else
      updateBasketTally deps env config s.prices basket loop.liquidatedAssets
        target.collateralAssets false true)
  let s ← liftStd (updatePosition s prop.positionOwner target)
  let distribute : CosmosMsg OutMsg := .execute (addrOr config.stabilityPool)
    (.spDistribute loop.distributionAssets prop.cAssetRatios repaid) loop.coins
  pure ({ s with prices := prices, basket := basket },
    Response.addMessages {} (excess ++ burnAndRev ++ [distribute]))

/-! ## Increasing debt -/

def getAmountFromLTV (deps : Deps) (env : Env) (config : Config) (prices : PriceStore)
    (position : Position) (basket : Basket) (targetLTV : Decimal) : Result Nat := do
  let avg ← liftStd (getAvgLTV deps env config prices basket position.collateralAssets false)
  Outcome.guardErr (avg.avgBorrowLTV < targetLTV) (.invalidLTV targetLTV)
  let creditValue ← liftStd (basket.creditPrice.getValue position.creditAmount)
  let currentLTV ← liftStd (decimalDivision creditValue avg.totalValue)
  Outcome.guardErr (targetLTV ≤ currentLTV) (.invalidLTV targetLTV)
  let ltvSpread ← Decimal.sub targetLTV currentLTV
  let increasedCreditValue ← liftStd (decimalMultiplication avg.totalValue ltvSpread)
  liftStd (basket.creditPrice.getAmount increasedCreditValue)

/-- The amount of a debt increase: given, or from a loan-to-value to reach. -/
def increaseAmount (deps : Deps) (env : Env) (config : Config) (prices : PriceStore)
    (position : Position) (basket : Basket) (amount : Option Nat) (ltv : Option Decimal) :
    Result Nat :=
  match amount, ltv with
  | some amount, _ => .ok amount
  | none, some ltv => getAmountFromLTV deps env config prices position basket ltv
  | none, none => Outcome.fail (.customError "If amount isn't passed, LTV must be passed")

def checkDebtIncreaseState (amount prevCreditAmount prevBasketCredit positionId : Nat)
    (owner : Addr)
    (s : State) : Result PUnit := do
  let (_, target) ← getTargetPosition s owner positionId
  let expected ← Uint128.add prevCreditAmount amount
  Outcome.guardErr (target.creditAmount ≠ expected) (.customError
    "Conditional 1: increase_debt() state error found, saved credit_amount != desired.")
  let expectedBasket ← Uint128.add prevBasketCredit amount
  Outcome.guardErr (s.basket.creditAsset.amount ≠ expectedBasket) (.customError
    "Conditional 2: increase_debt() state error found, saved credit_amount != desired.")

def increaseDebt (deps : Deps) (env : Env) (info : MessageInfo) (positionId : Nat)
    (amount : Option Nat) (ltv : Option Decimal) (mintToAddr : Option String) (s : State) :
    Result (State × Response OutMsg) := do
  Outcome.guardErr (s.basket.frozen = true) .frozen
  let (positionIndex, target) ← getTargetPosition s info.sender positionId
  let setRedemption := anyHiked target.collateralAssets
  let out ← liftStd (accrue deps env s.config s.prices target s.basket info.sender false)
  let prevCreditAmount := out.position.creditAmount
  let prevBasketCredit := out.basket.creditAsset.amount
  let (prices, basket) ←
    (if prevCreditAmount = 0 then
      updateBasketTally deps env s.config out.prices out.basket out.position.collateralAssets
        out.position.collateralAssets true false
    else pure (out.prices, out.basket))
  let amount ← increaseAmount deps env s.config prices out.position basket amount ltv
  let creditAmount ← Uint128.add prevCreditAmount amount
  let target := { out.position with creditAmount := creditAmount }
  let value ← liftStd (basket.creditPrice.getValue creditAmount)
  let minimum ← Decimal.fromRatio s.config.debtMinimum 1
  Outcome.guardErr (value < minimum)
    (.belowMinimumDebt s.config.debtMinimum value.toUintFloor)
  Outcome.guardErr (basket.oracleSet = false) .noRepaymentPrice
  let (insolvencyRes, _) ← liftStd (insolvencyCheck deps env s.config prices basket
    target.collateralAssets creditAmount basket.creditPrice true)
  Outcome.guardErr (insolvencyRes.1 = true) (.positionInsolvent insolvencyRes)
  let recipient ← liftStd (validatePositionOwner deps info mintToAddr)
  let message ← liftStd
    (creditMintMsg s.config { basket.creditAsset with amount := amount } recipient)
  let updating ← Outcome.setIndex ((s.positions.lookup info.sender).getD []) positionIndex target
  let basketCredit ← Uint128.add basket.creditAsset.amount amount
  let s := { s with
    prices := prices
    positions := s.positions.insert info.sender updating
    basket := { basket with creditAsset := { basket.creditAsset with amount := basketCredit } } }
  checkDebtIncreaseState amount prevCreditAmount prevBasketCredit positionId info.sender s
  let s ← forceRedemption setRedemption info positionId s
  pure (s, Response.addMessages {} [message])

end Membrane.Cdp
