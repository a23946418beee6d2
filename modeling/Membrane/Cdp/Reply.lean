import Membrane.Cdp.Liquidations

/-!
# Replies and the bad debt callback

`reply.rs`, and `check_and_fulfill_bad_debt` of `contract.rs`.
-/

namespace Membrane.Cdp

/-- The attributes of the liquidation queue's event that the reply reads. -/
structure LiqQueueEvent where
  repayAmount : Nat
  collateralAmount : Nat
  collateralToken : String
  collateralInfo : String
  deriving DecidableEq, Repr

def LiqQueueEvent.tokenInfo (event : LiqQueueEvent) (deps : Deps) : Outcome StdError AssetInfo :=
  if event.collateralInfo = "token" then do
    pure (.token (← deps.addrValidate event.collateralToken))
  else pure (.nativeToken event.collateralToken)

/-- `amount` taken off the first collateral of `info`, a panic when there is none. -/
def takeLiquidated (collateralAssets : List CAsset) (info : AssetInfo) (amount : Nat) :
    Outcome StdError (List CAsset) := do
  let i ← Outcome.unwrap (collateralAssets.findIdx? fun cAsset => cAsset.asset.info.equal info)
  takeAmount collateralAssets i amount

/-- The propagation after a reply in which the queue repaid something. -/
def recordLiquidated (prop : LiquidationPropagation) (info : AssetInfo)
    (repayAmount sendAmount : Nat) : Outcome StdError LiquidationPropagation := do
  let creditAmount ← subUint prop.targetPosition.creditAmount repayAmount
  let collateralAssets ← takeLiquidated prop.targetPosition.collateralAssets info sendAmount
  let totalRepaid ← Decimal.add prop.totalRepaid (← Decimal.fromRatio repayAmount 1)
  pure { prop with
    targetPosition := { prop.targetPosition with
      creditAmount := creditAmount, collateralAssets := collateralAssets }
    liquidatedAssets := prop.liquidatedAssets ++ [⟨⟨info, sendAmount⟩, Decimal.zero, Decimal.zero,
      Decimal.one, none, some false⟩]
    totalRepaid := totalRepaid }

/-- The write of the last reply when nothing was asked of the stability pool. -/
def storeLiquidated (deps : Deps) (env : Env) (s : State) (prop : LiquidationPropagation) :
    Outcome StdError State := do
  let target := prop.targetPosition
  let collateralAssets :=
    if target.creditAmount = 0 then target.collateralAssets ++ prop.liquidatedAssets
    else prop.liquidatedAssets
  let (prices, basket) ← Outcome.mapErr (fun error => .genericErr error.toText)
    (updateBasketTally deps env prop.config s.prices prop.basket collateralAssets
      target.collateralAssets false true)
  updatePosition { s with prices := prices, basket := basket } prop.positionOwner target

/-- `handle_liq_queue_reply`, called on the queue's success only. -/
def handleLiqQueueReply (deps : Deps) (env : Env) (event : Option LiqQueueEvent) (s : State) :
    Outcome StdError (State × Response OutMsg) := do
  let event ← Outcome.ofOption event (.genericErr "unable to find liq-queue event")
  let repayAmount ← parseUint128 event.repayAmount
  let prop ← Outcome.ofOption s.liquidation (.notFound "cdp::state::LiquidationPropagation")
  let sendAmount ← parseUint128 event.collateralAmount
  let info ← event.tokenInfo deps
  let liqQueue ← Outcome.unwrap prop.basket.liqQueue
  let msg ← withdrawalMsg ⟨info, sendAmount⟩ liqQueue
  let prop ←
    (if repayAmount ≠ 0 then recordLiquidated prop info repayAmount sendAmount else pure prop)
  let s ←
    (if prop.perAssetRepayment.length = 1 ∧ prop.stabilityPool ≤ Decimal.one then
      storeLiquidated deps env s prop
    else pure s)
  let perAssetRepayment ← Outcome.removeIndex prop.perAssetRepayment 0
  pure ({ s with liquidation := some { prop with perAssetRepayment := perAssetRepayment } },
    Response.addMessages {} [msg])

/-- One withdrawn asset of `handle_withdraw_reply`. -/
def checkWithdrawn (deps : Deps) (env : Env) (s : State) (prop : WithdrawPropagation)
    (entry : Asset × Nat) : Outcome StdError PUnit := do
  let withdrawAmount ← Outcome.index prop.withdrawAmounts entry.2
  let balances ← Outcome.mapErr (fun (error : StdError) => .genericErr error.toText)
    (getContractBalances deps env [entry.1.info])
  let current ← Outcome.index balances 0
  let previous ← Outcome.index prop.contractsPrevCollateralAmount entry.2
  let sent ← subUint previous current
  Outcome.guardErr (withdrawAmount < sent) (.genericErr
    ("Conditional 1: Invalid withdrawal, possible bug found by " ++
      prop.positionInfo.positionOwner))
  let owner ← deps.addrValidate prop.positionInfo.positionOwner
  match getTargetPosition s owner prop.positionInfo.positionId with
  | .ok (_, position) =>
    match position.collateralAssets.find? fun cAsset => cAsset.asset.info.equal entry.1.info with
    | some cAsset => do
        let expected ← subUint entry.1.amount withdrawAmount
        Outcome.guardErr (cAsset.asset.amount ≠ expected) (.genericErr
          ("Conditional 2: Invalid withdrawal, possible bug found by " ++
            prop.positionInfo.positionOwner))
    | none => pure ⟨⟩
  | .error fault => do
      let expected ← subUint entry.1.amount withdrawAmount
      Outcome.guardErr (expected ≠ 0) (.genericErr (match fault with
        | .err error => error.toText
        | .panic => ""))

/-- `handle_withdraw_reply`: only checks. -/
def handleWithdrawReply (deps : Deps) (env : Env) (s : State) :
    Outcome StdError (State × Response OutMsg) := do
  let prop ← Outcome.ofOption s.withdraw (.notFound "cdp::state::WithdrawPropagation")
  prop.positionsPrevCollateral.zipIdx.forM (checkWithdrawn deps env s prop)
  pure (s, {})

/-- The value left in a position, by the prices of the liquidation. -/
def leftAssetValue (cAssetPrices : List PriceResponse) (collateralAssets : List CAsset) :
    Result Decimal := do
  let values ← collateralAssets.zipIdx.mapM fun entry => do
    let price ← Outcome.index cAssetPrices entry.2
    Outcome.recover (price.getValue entry.1.asset.amount) Decimal.zero
  Decimal.sum values

/-- `check_and_fulfill_bad_debt`: the bad debt is written off against revenue, and
    what is left of it is auctioned. Without an auction, or with nothing left to
    auction, the callback fails. -/
def checkAndFulfillBadDebt (positionId : Nat) (positionOwner : Addr) (s : State) :
    Result (State × Response OutMsg) := do
  let (_, target) ← getTargetPosition s positionOwner positionId
  let prop ← Outcome.ofOption s.liquidation
    (.std (.notFound "cdp::state::LiquidationPropagation"))
  let totalAssetValue ← leftAssetValue prop.cAssetPrices target.collateralAssets
  Outcome.guardErr (Decimal.one < totalAssetValue ∨ target.creditAmount = 0) .positionSolvent
  let covered := Nat.min target.creditAmount s.basket.pendingRevenue
  let badDebtAmount := target.creditAmount - covered
  let s ← liftStd (updatePosition s positionOwner { target with creditAmount := badDebtAmount })
  match s.config.debtAuction with
  | some auction => do
      Outcome.guardErr (badDebtAmount = 0)
        (.customError "Debt Auction contract not added to config")
      let msg : CosmosMsg OutMsg :=
        .execute auction (.startAuction (some ⟨positionId, positionOwner⟩)
        ⟨s.basket.creditAsset.info, badDebtAmount⟩ none) []
      pure ({ s with basket := { s.basket with
        pendingRevenue := s.basket.pendingRevenue - covered } }, Response.addMessages {} [msg])
  | none => Outcome.fail (.customError "Debt Auction contract not added to config")

end Membrane.Cdp
