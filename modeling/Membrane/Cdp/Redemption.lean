import Membrane.Cdp.Rates

/-!
# Redemption of the debt token

`edit_redemption_info` and `redeem_for_collateral` of `positions.rs`, and
`update_position_claims` of `state.rs`, through which a redemption takes
collateral out of a position.
-/

namespace Membrane.Cdp

def assetToCoin (asset : Asset) : Outcome StdError Coin :=
  match asset.info with
  | .token _ => Outcome.fail (.genericErr "CW20 Assets can't be converted into Coin")
  | .nativeToken denom => .ok ⟨denom, asset.amount⟩

/-- The collateral with `amount` taken off every asset of `info`. -/
def subtractClaim (info : AssetInfo) (amount : Nat) (collateralAssets : List CAsset) :
    Outcome StdError (List CAsset) :=
  collateralAssets.mapM fun cAsset =>
    if cAsset.asset.info.equal info then do
      let left ← subUint cAsset.asset.amount amount
      pure { cAsset with asset := { cAsset.asset with amount := left } }
    else pure cAsset

def updatePositionClaims (deps : Deps) (env : Env) (s : State) (positionId : Nat)
    (positionOwner : Addr) (liquidatedAsset : AssetInfo) (liquidatedAmount : Nat) :
    Outcome StdError State := do
  let oldPositions ← Outcome.ofOption (s.positions.lookup positionOwner)
    (.genericErr "Invalid position owner")
  let newPositions ← oldPositions.mapM fun position =>
    if position.positionId = positionId then do
      let left ← subtractClaim liquidatedAsset liquidatedAmount position.collateralAssets
      pure { position with collateralAssets := left }
    else pure position
  let s := { s with positions := s.positions.insert positionOwner newPositions }
  match (oldPositions.filter fun position => position.positionId = positionId).getLast? with
  | none => pure s
  | some target =>
    if target.creditAmount = 0 then pure s
    else do
      let liquidated : CAsset := ⟨⟨liquidatedAsset, liquidatedAmount⟩, Decimal.zero, Decimal.zero,
        Decimal.one, none, some false⟩
      let (prices, basket) ← Outcome.mapErr (fun error => .genericErr error.toText)
        (updateBasketTally deps env s.config s.prices s.basket [liquidated]
          target.collateralAssets false false)
      pure { s with prices := prices, basket := basket }

/-! ## Opting in -/

/-- What a call of `edit_redemption_info` asks for. -/
structure RedemptionEdit where
  redeemable : Option Bool
  updatedPremium : Option Nat
  maxLoanRepayment : Option Decimal
  restrictedCollateralAssets : Option (List String)

/-- The sender's position, or the error of the redemption handlers. -/
def ownedPosition (s : State) (owner : Addr) (id : Nat) : Result Position :=
  match getTargetPosition s owner id with
  | .ok (_, position) => .ok position
  | .error _ => Outcome.fail (.customError "User does not own this position id")

def newPositionRedemption (s : State) (owner : Addr) (edit : RedemptionEdit) (id : Nat) :
    Result PositionRedemption := do
  let position ← ownedPosition s owner id
  let remaining ← Decimal.mulUint position.creditAmount (edit.maxLoanRepayment.getD Decimal.one)
  pure ⟨id, remaining, edit.restrictedCollateralAssets.getD []⟩

/-- `create_redemption_info`; its error is a generic one. -/
def createRedemptionInfo (s : State) (owner : Addr) (edit : RedemptionEdit)
    (positionIds : List Nat) : Result RedemptionInfo := do
  let positionInfos ← Outcome.mapErr
    (fun _ => .std (.genericErr "User does not own this position id"))
    (positionIds.mapM (newPositionRedemption s owner edit))
  pure ⟨owner, positionInfos⟩

/-- The user's entry in a premium, with its index. -/
def findRedemptionUser (users : List RedemptionInfo) (owner : Addr) :
    Option (Nat × RedemptionInfo) :=
  (users.findIdx? fun user => user.positionOwner == owner).bind fun i =>
    users[i]?.map fun user => (i, user)

/-- The additions of `edit_redemption_info` at a premium: the state, and the ids
    left to edit. -/
def addRedemptions (s : State) (sender : Addr) (edit : RedemptionEdit) (premium : Nat)
    (positionIds : List Nat) : Result (State × List Nat) := do
  let users := (s.redemptionOptIn.lookup premium).getD []
  match findRedemptionUser users sender with
  | some (userIndex, user) => do
      let user ← positionIds.foldlM (fun (user : RedemptionInfo) id =>
        if user.positionInfos.any fun info => info.positionId == id then pure user
        else do
          let info ← newPositionRedemption s sender edit id
          pure { user with positionInfos := user.positionInfos ++ [info] }) user
      let users ← Outcome.setIndex users userIndex user
      pure ({ s with redemptionOptIn := s.redemptionOptIn.insert premium users }, [])
  | none => do
      let info ← createRedemptionInfo s sender edit positionIds
      pure ({ s with redemptionOptIn := s.redemptionOptIn.insert premium (users ++ [info]) },
        positionIds)

/-- The variables of the edit loop inside one premium. -/
structure RedemptionEditLoop where
  s : State
  users : List RedemptionInfo
  user : RedemptionInfo
  positionIds : List Nat

/-- Drop entry `index` of the user. When it was the last, the user leaves the
    premium, the list is saved and the loop stops. -/
def dropEntry (premium userIndex index : Nat) (loop : RedemptionEditLoop) :
    Result (RedemptionEditLoop × Bool) := do
  let infos ← Outcome.removeIndex loop.user.positionInfos index
  let loop := { loop with user := { loop.user with positionInfos := infos } }
  if infos.isEmpty then do
    let users ← Outcome.removeIndex loop.users userIndex
    pure ({ loop with
      users := users
      s := { loop.s with redemptionOptIn := loop.s.redemptionOptIn.insert premium users } }, true)
  else pure (loop, false)

/-- Change entry `index` of the user. -/
def changeEntry (index : Nat) (change : PositionRedemption → PositionRedemption)
    (loop : RedemptionEditLoop) : Result RedemptionEditLoop := do
  let info ← Outcome.index loop.user.positionInfos index
  let infos ← Outcome.setIndex loop.user.positionInfos index (change info)
  pure { loop with user := { loop.user with positionInfos := infos } }

/-- The edits of one found entry; the flag says that the loop over ids stops. -/
def editEntry (sender : Addr) (edit : RedemptionEdit) (premium userIndex index id : Nat)
    (loop : RedemptionEditLoop) : Result (RedemptionEditLoop × Bool) := do
  let (loop, stop) ←
    (if edit.redeemable = some false then dropEntry premium userIndex index loop
    else pure (loop, false))
  if stop then pure (loop, true)
  else do
    let loop ← (match edit.maxLoanRepayment with
      | none => pure loop
      | some maxLoanRepayment => do
          let position ← ownedPosition loop.s sender id
          let remaining ← Decimal.mulUint position.creditAmount maxLoanRepayment
          changeEntry index (fun info => { info with remainingLoanRepayment := remaining }) loop)
    let (loop, stop) ← (match edit.updatedPremium with
      | none => pure (loop, false)
      | some updatedPremium =>
        if updatedPremium ≠ premium then dropEntry premium userIndex index loop
        else pure (loop, false))
    if stop then pure (loop, true)
    else do
      let loop ← (match edit.restrictedCollateralAssets with
        | none => pure loop
        | some restricted => do
            let collateral := loop.s.basket.collateralTypes.map (·.asset.info.toText)
            Outcome.guardErr ((restricted.all fun asset => collateral.contains asset) = false)
              (.customError
                "Invalid restricted asset, only the position's collateral assets are viable to restrict")
            changeEntry index (fun info => { info with restrictedCollateralAssets := restricted })
              loop)
      let users ← Outcome.setIndex loop.users userIndex loop.user
      pure ({ loop with
        users := users
        s := { loop.s with redemptionOptIn := loop.s.redemptionOptIn.insert premium users }
        positionIds := loop.positionIds.filter fun storedId => storedId ≠ id }, false)

def editEntries (sender : Addr) (edit : RedemptionEdit) (premium userIndex : Nat) :
    List Nat → RedemptionEditLoop → Result RedemptionEditLoop
  | [], loop => pure loop
  | id :: rest, loop =>
    match loop.user.positionInfos.findIdx? fun info => info.positionId == id with
    | none => editEntries sender edit premium userIndex rest loop
    | some index => do
        let (loop, stop) ← editEntry sender edit premium userIndex index id loop
        if stop then pure loop else editEntries sender edit premium userIndex rest loop

/-- The edits and removals of `edit_redemption_info` in one premium. -/
def editPremium (sender : Addr) (edit : RedemptionEdit) (acc : State × List Nat) (premium : Nat) :
    Result (State × List Nat) :=
  let users := (acc.1.redemptionOptIn.lookup premium).getD []
  if acc.2.isEmpty || users.isEmpty then pure acc
  else
    match findRedemptionUser users sender with
    | none => pure acc
    | some (userIndex, user) => do
        let loop ← editEntries sender edit premium userIndex acc.2 ⟨acc.1, users, user, acc.2⟩
        pure (loop.s, loop.positionIds)

/-- The checks of `edit_redemption_info` on its parameters. -/
def checkRedemptionEdit (s : State) (sender : Addr) (positionIds : List Nat) (edit : RedemptionEdit)
    (calledByContract : Bool) : Result PUnit := do
  Outcome.guardErr (edit.updatedPremium.any fun premium => 99 < premium)
    (.customError "Premium can't be greater than 99")
  Outcome.guardErr (edit.maxLoanRepayment.any fun max => decide (Decimal.one < max) || max.isZero)
    (.customError "Max loan repayment can't be 0% or greater than 100%")
  Outcome.guardErr (positionIds.isEmpty = true) (.customError "Position IDs must be specified")
  Outcome.guardErr (¬ positionIds.Nodup) (.customError "Position IDs must be unique")
  positionIds.forM fun id => do
    let (_, position) ← getTargetPosition s sender id
    position.collateralAssets.forM fun cAsset =>
      Outcome.guardErr (calledByContract = false ∧ cAsset.hikeRates = some true) (.customError
        ("Can't edit redemption for a position with a rate hike asset: " ++
          cAsset.asset.info.toDebugText))

def editRedemptionInfo (s : State) (sender : Addr) (positionIds : List Nat) (edit : RedemptionEdit)
    (calledByContract : Bool) : Result State := do
  checkRedemptionEdit s sender positionIds edit calledByContract
  let (s, positionIds) ←
    (if edit.redeemable = some false then pure (s, positionIds)
    else
      match edit.updatedPremium with
      | some premium => addRedemptions s sender edit premium positionIds
      | none => do
          Outcome.guardErr (edit.redeemable = some true) (.customError
            "Can't set redeemable to true without specifying a premium")
          pure (s, positionIds))
  let (s, _) ← (List.range 100).foldlM (editPremium sender edit) (s, positionIds)
  pure s

/-- The edit that a deposit of a rate-hiked asset forces on a position. -/
def forcedRedemption : RedemptionEdit := ⟨some true, some 1, some Decimal.one, none⟩

/-! ## Redeeming -/

/-- The variables of the loops in `redeem_for_collateral`. -/
structure RedeemLoop where
  s : State
  creditAmount : Decimal
  redeemableCredit : Decimal
  collateralSends : List Asset
  users : List RedemptionInfo
  user : RedemptionInfo

/-- `collateral_sends` with `amount` of an asset added. -/
def addSend (sends : List Asset) (info : AssetInfo) (amount : Nat) :
    Outcome StdError (List Asset) :=
  match sends.findIdx? fun send => send.info = info with
  | none => pure (sends ++ [⟨info, amount⟩])
  | some i => do
      let send ← Outcome.index sends i
      Outcome.setIndex sends i { send with amount := ← Uint128.add send.amount amount }

/-- One collateral asset of a redemption: it is sent, and taken off the position. -/
def redeemAsset (deps : Deps) (env : Env) (owner : Addr) (positionId : Nat)
    (redeemableValue : Decimal) (cAssetRatios : List Decimal) (cAssetPrices : List PriceResponse)
    (acc : State × List Asset) (entry : CAsset × Nat) : Outcome StdError (State × List Asset) := do
  let ratio ← Outcome.index cAssetRatios entry.2
  let valueToSend ← decimalMultiplication redeemableValue ratio
  let price ← Outcome.index cAssetPrices entry.2
  let collateralToSend ← price.getAmount valueToSend
  let sends ← addSend acc.2 entry.1.asset.info collateralToSend
  let s ← updatePositionClaims deps env acc.1 positionId owner entry.1.asset.info collateralToSend
  pure (s, sends)

/-- Remove entry `index` of the user, and the user when it was the last. -/
def removeRedemption (userIndex index : Nat) (loop : RedeemLoop) : Result RedeemLoop := do
  let infos ← Outcome.removeIndex loop.user.positionInfos index
  let users ←
    (if infos.isEmpty then Outcome.removeIndex loop.users userIndex else pure loop.users)
  pure { loop with user := { loop.user with positionInfos := infos }, users := users }

/-- The body of the loop of `redeem_for_collateral` over a user's positions.
    `basket` is the one loaded before the loops. -/
def redeemPosition (deps : Deps) (env : Env) (basket : Basket) (discountRatio : Decimal)
    (premium userIndex : Nat) (loop : RedeemLoop) (entry : PositionRedemption × Nat) :
    Result RedeemLoop := do
  let owner := loop.user.positionOwner
  let (_, position) ← getTargetPosition loop.s owner entry.1.positionId
  let assets := position.collateralAssets.filter fun cAsset =>
    !entry.1.restrictedCollateralAssets.contains cAsset.asset.info.toText
  if assets.isEmpty then removeRedemption userIndex entry.2 loop
  else do
    let (prices, cAssetRatios, cAssetPrices) ←
      liftStd (getCAssetRatios deps env loop.s.config loop.s.prices assets basket)
    let loop := { loop with s := { loop.s with prices := prices } }
    let remaining ← Decimal.fromRatio entry.1.remainingLoanRepayment 1
    let debt ← Decimal.fromRatio position.creditAmount 1
    let redeemable := Decimal.min (Decimal.min remaining debt) loop.creditAmount
    let creditAmount ← liftStd (decimalSubtraction loop.creditAmount redeemable)
    let left ← subUint entry.1.remainingLoanRepayment redeemable.toUintFloor
    let info ← Outcome.index loop.user.positionInfos entry.2
    let infos ← Outcome.setIndex loop.user.positionInfos entry.2
      { info with remainingLoanRepayment := left }
    let loop := { loop with
      creditAmount := creditAmount
      redeemableCredit := redeemable
      user := { loop.user with positionInfos := infos } }
    let loop ← (if left = 0 then removeRedemption userIndex entry.2 loop else pure loop)
    let users ←
      (if loop.users.isEmpty then pure loop.users
      else Outcome.setIndex loop.users userIndex loop.user)
    let loop := { loop with
      users := users
      s := { loop.s with redemptionOptIn := loop.s.redemptionOptIn.insert premium users } }
    let creditValue ← liftStd (basket.creditPrice.getValue redeemable.toUintFloor)
    let redeemableValue ← liftStd (decimalMultiplication creditValue discountRatio)
    let (s, sends) ← liftStd (assets.zipIdx.foldlM
      (redeemAsset deps env owner entry.1.positionId redeemableValue cAssetRatios cAssetPrices)
      (loop.s, loop.collateralSends))
    let loop := { loop with s := s, collateralSends := sends }
    let (_, position) ← getTargetPosition loop.s owner entry.1.positionId
    let debtLeft ← subUint position.creditAmount redeemable.toUintFloor
    let loop ← (if debtLeft = 0 then removeRedemption userIndex entry.2 loop else pure loop)
    let s ← liftStd (updatePosition loop.s owner { position with creditAmount := debtLeft })
    pure { loop with s := s }

/-- The loop of `redeem_for_collateral` over the users of a premium. -/
def redeemUser (deps : Deps) (env : Env) (basket : Basket) (discountRatio : Decimal) (premium : Nat)
    (loop : RedeemLoop) (entry : RedemptionInfo × Nat) : Result RedeemLoop :=
  entry.1.positionInfos.zipIdx.foldlM
    (redeemPosition deps env basket discountRatio premium entry.2) { loop with user := entry.1 }

/-- The loop of `redeem_for_collateral` over the premiums. -/
def redeemPremium (deps : Deps) (env : Env) (basket : Basket) (loop : RedeemLoop) (premium : Nat) :
    Result RedeemLoop := do
  let discountRatio ← liftStd (decimalSubtraction Decimal.one (Decimal.percent premium))
  if loop.creditAmount.isZero then pure loop
  else do
    let users := (loop.s.redemptionOptIn.lookup premium).getD []
    users.zipIdx.foldlM (redeemUser deps env basket discountRatio premium)
      { loop with users := users }

/-- The amount of the debt token sent, which must be the only coin. -/
def sentCredit (info : MessageInfo) (denom : String) : Result Nat :=
  match info.funds with
  | [coin] =>
    if coin.denom = denom then pure coin.amount
    else Outcome.fail (.customError "Must send only the Basket's debt token")
  | _ => Outcome.fail (.customError "Must send only the Basket's debt token")

/-- The message that burns an amount of the debt token, none for zero. -/
def burnMsg (proxy : Addr) (env : Env) (denom : String) (burnAmount : Nat) :
    List (CosmosMsg OutMsg) :=
  if burnAmount = 0 then []
  else [.execute proxy (.burnTokens denom burnAmount env.contractAddress) []]

def redeemForCollateral (deps : Deps) (env : Env) (info : MessageInfo) (maxCollateralPremium : Nat)
    (s : State) : Result (State × Response OutMsg) := do
  let denom := s.basket.creditAsset.info.toText
  let initialCreditAmount ← Decimal.fromRatio (← sentCredit info denom) 1
  let loop ← (List.range (maxCollateralPremium + 1)).foldlM (redeemPremium deps env s.basket)
    ⟨s, initialCreditAmount, Decimal.zero, [], [], ⟨"", []⟩⟩
  Outcome.guardErr (loop.creditAmount = initialCreditAmount)
    (.customError "No collateral to redeem with at this max premium")
  let coins ← liftStd (loop.collateralSends.mapM assetToCoin)
  let burn : List (CosmosMsg OutMsg) :=
    match s.config.osmosisProxy with
    | some addr => burnMsg addr env denom loop.redeemableCredit.toUintFloor
    | none => []
  let excess : List (CosmosMsg OutMsg) :=
    if loop.creditAmount.isZero then []
    else [.bankSend info.sender [⟨denom, loop.creditAmount.toUintFloor⟩]]
  pure (loop.s, Response.addMessages {} ([.bankSend info.sender coins] ++ burn ++ excess))

end Membrane.Cdp
