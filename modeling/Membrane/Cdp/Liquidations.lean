import Membrane.Cdp.Governance

/-!
# Liquidation

`liquidations.rs`: how much of an insolvent position is repaid, what the position's
owner, the liquidation queue and the stability pool are each asked to repay, and
the fees. The calls it sets off are answered in `Reply`.
-/

namespace Membrane.Cdp

/-- `SECONDS_PER_DAY`. -/
def secondsPerDay : Nat := 86400

/-- Parsing an amount of another contract's answer. -/
def parseUint128 (n : Nat) : Outcome StdError Nat :=
  if n < Uint128.limit then .ok n else Outcome.fail (.genericErr "Error parsing u128")

@[simp]
theorem parseUint128_eq_ok {n m : Nat} :
    parseUint128 n = .ok m ↔ n < Uint128.limit ∧ n = m := by
  by_cases h : n < Uint128.limit <;> simp [parseUint128, h]

/-- The chain's downtime and the contract's freeze must be over for an hour. -/
def assertNoDowntime (deps : Deps) (env : Env) (s : State) : Result PUnit := do
  Outcome.guardErr (deps.recoveredSinceDowntime = .ok false)
    (.customError "Downtime recovery window hasn't elapsed yet ")
  Outcome.guardErr (s.basket.frozen = true) .frozen
  let freezeTimer := s.freezeTimer.getD ⟨0, 0⟩
  let grace := secondsPerDay / 24
  let elapsed :=
    if freezeTimer.endTime ≤ env.blockTime then env.blockTime - freezeTimer.endTime else grace
  Outcome.guardErr (elapsed < grace) (.std (.genericErr
    ("You can liquidate in " ++ toString (grace - elapsed) ++
      " seconds, there is a post-freeze grace period")))

def repayValue (config : Config) (currentLTV borrowLTV totalValue loanValue : Decimal) :
    Result Decimal := do
  let value ← liftStd (
    if Decimal.one ≤ currentLTV then pure totalValue
    else do
      let excess ← decimalSubtraction currentLTV borrowLTV
      decimalMultiplication (← decimalDivision excess currentLTV) loanValue)
  let minimum ← Decimal.fromRatio config.debtMinimum 1
  if value < minimum then
    if loanValue < minimum then pure loanValue
    else do
      let left ← Decimal.sub loanValue minimum
      pure (if minimum ≤ left then minimum else loanValue)
  else pure value

/-- `get_repay_quantities`: value and amount of the repayment. -/
def getRepayQuantities (config : Config) (basket : Basket) (target : Position)
    (currentLTV borrowLTV totalValue : Decimal) : Result (Decimal × Decimal) := do
  let loanValue ← liftStd (basket.creditPrice.getValue target.creditAmount)
  let value ← repayValue config currentLTV borrowLTV totalValue loanValue
  let amount ← liftStd (basket.creditPrice.getAmount value)
  Outcome.guardErr (amount = 0) .positionSolvent
  Outcome.guardErr (target.creditAmount < amount)
    (.faultyCalc "Repay amount is greater than total debt")
  let creditRepayAmount ← Decimal.fromRatio amount 1
  pure (value, creditRepayAmount)

/-- `get_user_repay_amount`: what the owner repays from the stability pool, what is
    left of the repayment, and the message. -/
def getUserRepayAmount (deps : Deps) (config : Config) (basket : Basket) (positionId : Nat)
    (positionOwner : String) (creditRepayAmount : Decimal) :
    Outcome StdError (Decimal × Decimal × List (SubMsg OutMsg)) :=
  match config.stabilityPool with
  | none => pure (Decimal.zero, creditRepayAmount, [])
  | some stabilityPool => do
      let deposits := match deps.stabilityPoolAsset stabilityPool (some positionOwner) with
        | .ok pool => pool.deposits
        | .error _ => []
      let totalUserDeposit ← Decimal.sum deposits
      if totalUserDeposit.isZero then pure (Decimal.zero, creditRepayAmount, [])
      else do
        let userRepayAmount :=
          if creditRepayAmount < totalUserDeposit then creditRepayAmount else totalUserDeposit
        let msg : CosmosMsg OutMsg := .execute stabilityPool (.spRepay ⟨positionId, positionOwner⟩
          ⟨basket.creditAsset.info, userRepayAmount.toUintFloor⟩) []
        let left ← decimalSubtraction creditRepayAmount userRepayAmount
        pure (userRepayAmount, left, [SubMsg.new msg])

/-- What `per_asset_fulfillments` reads besides its accumulators. -/
structure Fulfillment where
  config : Config
  basket : Basket
  callerFee : Decimal
  /-- The repayment left for the queue and the pool. -/
  fnRepayment : Nat
  repayValue : Decimal
  preUserRepayRepayValue : Decimal
  cAssetRatios : List Decimal
  cAssetPrices : List PriceResponse

/-- The accumulators of `per_asset_fulfillments`. -/
structure FulfillmentLoop where
  collateralAssets : List CAsset
  leftoverPositionValue : Decimal
  leftoverRepayment : Nat
  submessages : List (SubMsg OutMsg)
  perAssetRepayment : List Decimal
  liquidatedAssets : List CAsset
  callerFeeValuePaid : Decimal
  callerCoins : List Coin
  protocolCoins : List Coin

/-- `amount` taken off collateral `index`. -/
def takeAmount (collateralAssets : List CAsset) (index amount : Nat) :
    Outcome StdError (List CAsset) := do
  let held ← Outcome.index collateralAssets index
  let left ← subUint held.asset.amount amount
  Outcome.setIndex collateralAssets index { held with asset := { held.asset with amount := left } }

def takeFees (f : Fulfillment) (loop : FulfillmentLoop) (cAsset : CAsset) (index : Nat) :
    Outcome StdError FulfillmentLoop := do
  let ratio ← Outcome.index f.cAssetRatios index
  let collateralPrice ← Outcome.index f.cAssetPrices index
  let preUserRepayAmount ← collateralPrice.getAmount
    (← decimalMultiplication f.preUserRepayRepayValue ratio)
  let callerFee ← Decimal.mulUint preUserRepayAmount f.callerFee
  let callerFeeValuePaid ←
    Decimal.add loop.callerFeeValuePaid (← collateralPrice.getValue callerFee)
  let collateralAssets ← takeAmount loop.collateralAssets index callerFee
  let protocolFee ← Decimal.mulUint preUserRepayAmount f.config.liqFee
  let collateralAssets ← takeAmount collateralAssets index protocolFee
  let feeValue ← collateralPrice.getValue (← Uint128.add callerFee protocolFee)
  let leftoverPositionValue ← decimalSubtraction loop.leftoverPositionValue feeValue
  match cAsset.asset.info with
  | .token _ => Outcome.fail (.genericErr "Cw20 assets aren't allowed")
  | .nativeToken denom =>
    pure { loop with
      collateralAssets := collateralAssets
      leftoverPositionValue := leftoverPositionValue
      liquidatedAssets := loop.liquidatedAssets ++
        [{ cAsset with asset := { cAsset.asset with amount := callerFee } },
          { cAsset with asset := { cAsset.asset with amount := protocolFee } }]
      callerFeeValuePaid := callerFeeValuePaid
      callerCoins := loop.callerCoins ++ [⟨denom, callerFee⟩]
      protocolCoins := loop.protocolCoins ++ [⟨denom, protocolFee⟩] }

/-- The liquidation queue's part of one collateral asset. -/
def askLiqQueue (deps : Deps) (f : Fulfillment) (liqQueue : Addr) (loop : FulfillmentLoop)
    (cAsset : CAsset) (index : Nat) : Outcome StdError FulfillmentLoop := do
  let ratio ← Outcome.index f.cAssetRatios index
  let collateralPrice ← Outcome.index f.cAssetPrices index
  let collateralRepayAmount ← collateralPrice.getAmount
    (← decimalMultiplication f.repayValue ratio)
  let held ← Outcome.index loop.collateralAssets index
  let collateralRepayAmount :=
    if held.asset.amount < collateralRepayAmount then held.asset.amount else collateralRepayAmount
  match deps.checkLiquidatible liqQueue cAsset.asset.info collateralPrice collateralRepayAmount
      f.basket.creditAsset.info f.basket.creditPrice with
  | .error _ => pure loop
  | .ok res => do
      let leftover ← parseUint128 res.leftoverCollateral
      let queueAssetAmountPaid ← subUint collateralRepayAmount leftover
      if queueAssetAmountPaid = 0 then pure loop
      else do
        let queueCreditRepaid ← parseUint128 res.totalDebtRepaid
        if queueCreditRepaid = 0 then pure loop
        else do
          let valuePaidToQueue ← collateralPrice.getValue queueAssetAmountPaid
          let leftoverPositionValue ←
            decimalSubtraction loop.leftoverPositionValue valuePaidToQueue
          let leftoverRepayment ← Outcome.ofOption
            (Uint128.checkedSub loop.leftoverRepayment queueCreditRepaid)
            (.overflow "Sub" (toString loop.leftoverRepayment) (toString queueCreditRepaid))
          let repayAmountPerAsset ← Decimal.fromRatio (← Decimal.mulUint f.fnRepayment ratio) 1
          let msg : CosmosMsg OutMsg := .execute liqQueue (.lqLiquidate f.basket.creditPrice
            collateralPrice queueAssetAmountPaid cAsset.asset.info) []
          pure { loop with
            leftoverPositionValue := leftoverPositionValue
            leftoverRepayment := leftoverRepayment
            perAssetRepayment := loop.perAssetRepayment ++ [repayAmountPerAsset]
            submessages := loop.submessages ++ [SubMsg.replyOnSuccess msg liqQueueReplyId] }

/-- One collateral asset of `per_asset_fulfillments`. -/
def fulfillAsset (deps : Deps) (f : Fulfillment) (loop : FulfillmentLoop) (entry : CAsset × Nat) :
    Outcome StdError FulfillmentLoop := do
  -- computed for every asset, so an overflow aborts even without a queue
  let _ ← Decimal.mulUint f.fnRepayment (← Outcome.index f.cAssetRatios entry.2)
  let loop ← takeFees f loop entry.1 entry.2
  match f.basket.liqQueue with
  | some liqQueue =>
    if 0 < loop.leftoverRepayment then askLiqQueue deps f liqQueue loop entry.1 entry.2
    else pure loop
  | none => pure loop

def perAssetFulfillments (deps : Deps) (f : Fulfillment) (collateralAssets : List CAsset)
    (leftoverPositionValue : Decimal) (submessages : List (SubMsg OutMsg)) :
    Outcome StdError FulfillmentLoop :=
  collateralAssets.zipIdx.foldlM (fulfillAsset deps f)
    ⟨collateralAssets, leftoverPositionValue, f.fnRepayment, submessages, [], [], Decimal.zero, [],
      []⟩

/-- What the stability pool is asked to repay, its fee, and its message
    (`build_sp_submsgs` when the pool is used). -/
def askStabilityPool (deps : Deps) (basket : Basket) (stabilityPool : Addr)
    (leftoverRepayment leftoverPositionValue : Decimal) :
    Result (Decimal × Decimal × List (SubMsg OutMsg)) := do
  let spPool ← liftStd (Outcome.ofExcept (deps.stabilityPoolAsset stabilityPool none))
  let leftoverRepaymentValue ←
    liftStd (basket.creditPrice.getValue leftoverRepayment.toUintFloor)
  let withFee ← Decimal.add Decimal.one spPool.liqPremium
  let guaranteed ← liftStd (decimalMultiplication leftoverRepaymentValue withFee)
  -- the position cannot pay the premium on all of it: repay what it can
  let leftoverRepayment ←
    (if leftoverPositionValue < guaranteed then do
      let value ← liftStd (decimalDivision leftoverPositionValue withFee)
      Decimal.fromRatio (← liftStd (basket.creditPrice.getAmount value)) 1
    else pure leftoverRepayment)
  let leftoverRepayment :=
    if spPool.creditAmount = 0 then Decimal.zero else leftoverRepayment
  let msgs : List (SubMsg OutMsg) :=
    if Decimal.one < leftoverRepayment then
      [SubMsg.new (.execute stabilityPool (.spLiquidate leftoverRepayment) [])]
    else []
  pure (leftoverRepayment, spPool.liqPremium, msgs)

/-- What the stability pool repays, its fee, and its messages; nothing when it is
    not set or nothing is left to repay. -/
def stabilityPoolPart (deps : Deps) (config : Config) (basket : Basket)
    (leftoverRepayment leftoverPositionValue : Decimal) :
    Result (Decimal × Decimal × List (SubMsg OutMsg)) :=
  match config.stabilityPool with
  | some stabilityPool =>
    if leftoverRepayment.isZero then pure (Decimal.zero, Decimal.zero, [])
    else askStabilityPool deps basket stabilityPool leftoverRepayment leftoverPositionValue
  | none => pure (Decimal.zero, Decimal.zero, [])

/-- The branch of `liquidate` in which the owner repays all of it: the position and
    the basket are written here. -/
def settleUserRepayment (deps : Deps) (env : Env) (s : State) (owner : Addr) (target : Position)
    (liquidatedAssets : List CAsset) (repayAmount : Nat) : Result (State × Position) := do
  let creditAmount ← subUint target.creditAmount repayAmount
  let target := { target with creditAmount := creditAmount }
  let collateralAssets :=
    if creditAmount = 0 then target.collateralAssets ++ liquidatedAssets else liquidatedAssets
  let (prices, basket) ← updateBasketTally deps env s.config s.prices s.basket collateralAssets
    target.collateralAssets false true
  let s ← liftStd (updatePosition { s with prices := prices, basket := basket } owner target)
  pure (s, target)

def liquidate (deps : Deps) (env : Env) (info : MessageInfo) (positionId : Nat)
    (positionOwner : String) (s : State) : Result (State × Response OutMsg) := do
  assertNoDowntime deps env s
  let owner ← liftStd (validatePositionOwner deps info (some positionOwner))
  let (_, target) ← getTargetPosition s owner positionId
  let ((insolvent, currentLTV, _), avg) ← liftStd (insolvencyCheck deps env s.config s.prices
    s.basket target.collateralAssets target.creditAmount s.basket.creditPrice false)
  Outcome.guardErr (insolvent = false) .positionSolvent
  let (preUserRepayRepayValue, preUserRepayRepayAmount) ←
    getRepayQuantities s.config s.basket target currentLTV avg.avgBorrowLTV avg.totalValue
  let callerFee ← liftStd (decimalSubtraction currentLTV avg.avgMaxLTV)
  let (userRepayAmount, creditRepayAmount, userMsgs) ← liftStd (getUserRepayAmount deps s.config
    s.basket positionId positionOwner preUserRepayRepayAmount)
  let repayValue ← liftStd (s.basket.creditPrice.getValue creditRepayAmount.toUintFloor)
  let loop ← liftStd (perAssetFulfillments deps ⟨s.config, s.basket, callerFee,
    creditRepayAmount.toUintFloor, repayValue, preUserRepayRepayValue, avg.cAssetRatios,
    avg.cAssetPrices⟩ target.collateralAssets avg.totalValue userMsgs)
  let target := { target with collateralAssets := loop.collateralAssets }
  let (s, target) ←
    (if loop.leftoverRepayment = 0 ∧ userRepayAmount = preUserRepayRepayAmount then
      settleUserRepayment deps env s owner target loop.liquidatedAssets
        preUserRepayRepayAmount.toUintFloor
    else pure (s, target))
  let leftoverRepayment ← Decimal.fromRatio loop.leftoverRepayment 1
  let liqQueueRepayment ← Decimal.sub creditRepayAmount leftoverRepayment
  let (stabilityPool, spLiqFee, spMsgs) ← stabilityPoolPart deps s.config s.basket
    leftoverRepayment loop.leftoverPositionValue
  let prop : LiquidationPropagation := {
    perAssetRepayment := loop.perAssetRepayment
    liqQueueRepayment := liqQueueRepayment
    stabilityPool := stabilityPool
    userRepayAmount := userRepayAmount
    positionsContract := env.contractAddress
    spLiqFee := spLiqFee
    cAssetRatios := avg.cAssetRatios
    cAssetPrices := avg.cAssetPrices
    targetPosition := target
    liquidatedAssets := loop.liquidatedAssets
    callerFeeValuePaid := loop.callerFeeValuePaid
    totalRepaid := userRepayAmount
    positionOwner := owner
    basket := s.basket
    config := s.config }
  let callBack : SubMsg OutMsg := SubMsg.replyOnError
    (.execute env.contractAddress (.badDebtCheck positionId owner) []) badDebtReplyId
  let callerFeeMsg : CosmosMsg OutMsg := .bankSend info.sender loop.callerCoins
  let protocolFeeMsg : CosmosMsg OutMsg :=
    .execute (addrOr s.config.stakingContract) .depositFee loop.protocolCoins
  pure ({ s with liquidation := some prop },
    (Response.addSubmessages {} (loop.submessages ++ spMsgs ++ [callBack])).addMessages
      [callerFeeMsg, protocolFeeMsg])

end Membrane.Cdp
