import Membrane.Cdp.Redemption

/-!
# Deposits, withdrawals, debt and repayment

The handlers of `positions.rs` on a user's positions, and `external_accrue_call`
of `rates.rs`. Each takes the storage and returns it as it leaves it.
-/

namespace Membrane.Cdp

/-- `MAX_POSITIONS_AMOUNT`. -/
def maxPositionsAmount : Nat := 9

/-- `LIQ_QUEUE_REPLY_ID`. -/
def liqQueueReplyId : Nat := 1

/-- `WITHDRAW_REPLY_ID`. -/
def withdrawReplyId : Nat := 4

/-- `BAD_DEBT_REPLY_ID`. -/
def badDebtReplyId : Nat := 999999

def validatePositionOwner (deps : Deps) (info : MessageInfo) (recipient : Option String) :
    Outcome StdError Addr :=
  match recipient with
  | none => .ok info.sender
  | some text => deps.addrValidate text

def checkForEmptyPosition (collateralAssets : List CAsset) : Bool :=
  collateralAssets.all fun cAsset => cAsset.asset.amount == 0

def withdrawalMsg (asset : Asset) (recipient : Addr) : Outcome StdError (CosmosMsg OutMsg) :=
  match asset.info with
  | .nativeToken denom => .ok (.bankSend recipient [⟨denom, asset.amount⟩])
  | .token _ => Outcome.fail (.genericErr "Native assets only")

/-- `get_contract_balances`: the balances of the native assets. -/
def getContractBalances (deps : Deps) (env : Env) (assets : List AssetInfo) :
    Outcome StdError (List Nat) :=
  assets.foldlM (fun balances asset =>
    match asset with
    | .token _ => pure balances
    | .nativeToken denom => do
        let amount ← Outcome.ofExcept (deps.balance env.contractAddress denom)
        pure (balances ++ [amount])) []

/-! ## Accrual by message -/

/-- One position of `external_accrue_call`. -/
def accruePosition (deps : Deps) (env : Env) (info : MessageInfo) (owner : Addr)
    (acc : State × Basket) (positionId : Nat) : Result (State × Basket) := do
  let (_, position) ← getTargetPosition acc.1 owner positionId
  let out ← liftStd
    (accrue deps env acc.1.config acc.1.prices position acc.2 info.sender false)
  let s ← liftStd (updatePosition { acc.1 with prices := out.prices } owner out.position)
  pure (s, out.basket)

def externalAccrueCall (deps : Deps) (env : Env) (info : MessageInfo)
    (positionOwner : Option String) (positionIds : List Nat) (s : State) :
    Result (State × Response OutMsg) := do
  let owner ← liftStd (validatePositionOwner deps info positionOwner)
  let (s, basket) ← positionIds.foldlM (accruePosition deps env info owner) (s, s.basket)
  pure ({ s with basket := basket }, {})

/-! ## Deposit -/

/-- One deposited asset: added to the position's asset, or a new asset of the
    position. Also collects the position's previous amounts. -/
def depositAsset (acc : List CAsset × List Asset) (deposit : CAsset) :
    Result (List CAsset × List Asset) :=
  match acc.1.findIdx? fun cAsset => cAsset.asset.info.equal deposit.asset.info with
  | some i => do
      let cAsset ← Outcome.index acc.1 i
      let amount ← Uint128.add cAsset.asset.amount deposit.asset.amount
      let assets ← Outcome.setIndex acc.1 i
        { cAsset with asset := { cAsset.asset with amount := amount } }
      pure (assets, acc.2 ++ [cAsset.asset])
  | none => pure (acc.1 ++ [deposit], acc.2 ++ [{ deposit.asset with amount := 0 }])

def createPosition (cAssets : List CAsset) (basket : Basket) : Result (Position × Basket) := do
  let nextId ← Uint128.add basket.currentPositionId 1
  pure (⟨basket.currentPositionId, cAssets, 0⟩, { basket with currentPositionId := nextId })

/-- `create_position_in_deposit`: the new position, and the state with the basket
    saved. -/
def createPositionInDeposit (deps : Deps) (env : Env) (owner : Addr) (cAssets : List CAsset)
    (s : State) : Result (Position × State) := do
  let (position, basket) ← createPosition cAssets s.basket
  let out ← liftStd (accrue deps env s.config s.prices position basket owner true)
  pure (out.position, { s with prices := out.prices, basket := out.basket })

/-- `edit_redemption_info` as a deposit or a debt increase forces it. -/
def forceRedemption (setRedemption : Bool) (info : MessageInfo) (positionId : Nat) (s : State) :
    Result State :=
  if setRedemption then editRedemptionInfo s info.sender [positionId] forcedRedemption true
  else pure s

def anyHiked (cAssets : List CAsset) : Bool :=
  cAssets.any fun cAsset => cAsset.hikeRates == some true

def checkDepositState (deps : Deps) (positionsPrevCollateral : List Asset)
    (depositAmounts : List Nat) (positionInfo : UserInfo) (s : State) : Result PUnit := do
  let owner ← liftStd (deps.addrValidate positionInfo.positionOwner)
  let (_, target) ← getTargetPosition s owner positionInfo.positionId
  positionsPrevCollateral.zipIdx.forM fun entry =>
    match target.collateralAssets.find? fun cAsset => cAsset.asset.info.equal entry.1.info with
    | none => pure ⟨⟩
    | some cAsset => do
        let expected ← Uint128.add entry.1.amount (← Outcome.index depositAmounts entry.2)
        Outcome.guardErr (cAsset.asset.amount ≠ expected)
          (.customError "Conditional 1: Possible state error")
  if positionsPrevCollateral.isEmpty then
    target.collateralAssets.zipIdx.forM fun entry => do
      let deposited ← Outcome.index depositAmounts entry.2
      Outcome.guardErr (entry.1.asset.amount ≠ deposited)
        (.customError "Deposit Conditional 2: Possible state error")
  else pure ⟨⟩

/-- The part of `deposit` on an existing position. The list saved is the one with
    the position as it was before interest accrued. -/
def depositToPosition (deps : Deps) (env : Env) (owner : Addr) (positions : List Position)
    (positionId : Nat) (cAssets : List CAsset) (s : State) : Result (State × List Asset) := do
  let (positionIndex, position) ←
    Outcome.ofOption (findPosition positions positionId) (.nonExistentPosition positionId)
  let (assets, prevCollateral) ←
    cAssets.foldlM depositAsset (position.collateralAssets, [])
  let position := { position with collateralAssets := assets }
  let positions ← Outcome.setIndex positions positionIndex position
  let out ← liftStd (accrue deps env s.config s.prices position s.basket owner true)
  let s := { s with prices := out.prices, positions := s.positions.insert owner positions }
  let (prices, basket) ←
    (if out.position.creditAmount ≠ 0 then
      updateBasketTally deps env s.config s.prices out.basket cAssets
        out.position.collateralAssets true false
    else pure (s.prices, out.basket))
  pure ({ s with prices := prices, basket := basket }, prevCollateral)

def deposit (deps : Deps) (env : Env) (info : MessageInfo) (positionOwner : Option String)
    (positionId : Option Nat) (cAssets : List CAsset) (s : State) :
    Result (State × Response OutMsg) := do
  let owner ← liftStd (validatePositionOwner deps info positionOwner)
  Outcome.guardErr (s.basket.frozen = true) .frozen
  let depositAmounts := cAssets.map (·.asset.amount)
  let setRedemption := anyHiked cAssets
  let (s, prevCollateral, id) ←
    (match s.positions.lookup owner, positionId with
    | some positions, some id => do
        let s ← forceRedemption setRedemption info id s
        let (s, prevCollateral) ← depositToPosition deps env owner positions id cAssets s
        pure (s, prevCollateral, id)
    | found, _ => do
        let positions := found.getD []
        Outcome.guardErr (maxPositionsAmount ≤ positions.length) .maxPositionsReached
        let (position, s) ← createPositionInDeposit deps env owner cAssets s
        let s := { s with positions := s.positions.insert owner (positions ++ [position]) }
        let s ← forceRedemption setRedemption info position.positionId s
        pure (s, [], position.positionId))
  checkDepositState deps prevCollateral depositAmounts ⟨id, owner⟩ s
  pure (s, {})

/-! ## Withdrawal -/

/-- The assets a position must be rid of first: those with a zero supply cap that
    this withdrawal neither withdraws alone nor in full. The flag is that of the
    last such cap. -/
def expungedStep (positionAssets withdrawalAssets : List Asset) (acc : Bool × List String)
    (cap : SupplyCap) : Outcome StdError (Bool × List String) :=
  if cap.supplyCapRatio.isZero then
    match positionAssets.find? fun asset => asset.info.equal cap.assetInfo with
    | none => pure acc
    | some asset => do
        let first ← Outcome.index withdrawalAssets 0
        if first.info.equal asset.info ∧ withdrawalAssets.length = 1 then pure (true, acc.2)
        else
          match withdrawalAssets.find? fun wAsset => wAsset.info.equal asset.info with
          | some wAsset =>
            if wAsset.amount = asset.amount then pure (true, acc.2)
            else pure (false, acc.2 ++ [asset.info.toText])
          | none => pure (false, acc.2 ++ [asset.info.toText])
  else pure acc

def checkForExpunged (positionAssets withdrawalAssets : List CAsset) (basket : Basket) :
    Outcome StdError PUnit := do
  let (passed, invalid) ← basket.collateralSupplyCaps.foldlM
    (expungedStep (positionAssets.map (·.asset)) (withdrawalAssets.map (·.asset))) (true, [])
  Outcome.guardErr (passed = false) (.genericErr
    ("These assets need to be expunged from the positon: [" ++
      String.intercalate ", " (invalid.map fun text => "\"" ++ text ++ "\"") ++ "]"))

/-- The variables of the loop in `withdraw`. -/
structure WithdrawLoop where
  positions : KeyMap Addr (List Position)
  target : Position
  tallyUpdateList : List CAsset
  propAssets : List Asset
  withdrawAmounts : List Nat
  withdrawCoins : List Coin

/-- `target` without `amount` of collateral `index`, which leaves the list when
    nothing of it is left. -/
def takeCollateral (target : Position) (index : Nat) (held : CAsset) (amount : Nat) :
    Result Position := do
  let leftoverAmount ← subUint held.asset.amount amount
  let assets ←
    (if leftoverAmount ≠ 0 then
      Outcome.setIndex target.collateralAssets index
        { held with asset := { held.asset with amount := leftoverAmount } }
    else Outcome.removeIndex target.collateralAssets index)
  pure { target with collateralAssets := assets }

/-- The write of the loop in `withdraw`: the position at `positionIndex` of the
    stored list is replaced, or removed when `target` holds nothing; an emptied
    list is removed. -/
def storeWithdrawn (owner : Addr) (positionIndex : Nat) (target : Position)
    (positions : KeyMap Addr (List Position)) : Result (KeyMap Addr (List Position)) := do
  let updating := (positions.lookup owner).getD []
  let updated ←
    (if checkForEmptyPosition target.collateralAssets then Outcome.removeIndex updating
      positionIndex
    else Outcome.setIndex updating positionIndex target)
  pure (if updated.isEmpty then positions.erase owner else positions.insert owner updated)

/-- The body of the loop of `withdraw` over the assets, with the configuration,
    price store and basket of the call after accrual. -/
def withdrawAsset (deps : Deps) (env : Env) (config : Config) (prices : PriceStore)
    (basket : Basket) (owner : Addr) (positionIndex : Nat) (loop : WithdrawLoop) (cAsset : CAsset) :
    Result WithdrawLoop :=
  let withdrawn := cAsset.asset
  match loop.target.collateralAssets.findIdx? fun held => held.asset.info.equal withdrawn.info with
  | none => pure loop
  | some index => do
      let held ← Outcome.index loop.target.collateralAssets index
      Outcome.guardErr (held.asset.amount < withdrawn.amount) .invalidWithdrawal
      let target ← takeCollateral loop.target index held withdrawn.amount
      let (insolvencyRes, _) ← liftStd (insolvencyCheck deps env config prices basket
        target.collateralAssets target.creditAmount basket.creditPrice true)
      Outcome.guardErr (insolvencyRes.1 = true) (.positionInsolvent insolvencyRes)
      let positions ← storeWithdrawn owner positionIndex target loop.positions
      let coins ← (match withdrawn.info with
        | .nativeToken _ => do pure [← liftStd (assetToCoin withdrawn)]
        | .token _ => pure [])
      pure {
        positions := positions
        target := target
        tallyUpdateList := loop.tallyUpdateList ++ [{ held with asset := withdrawn }]
        propAssets := loop.propAssets ++ [held.asset]
        withdrawAmounts := loop.withdrawAmounts ++ [withdrawn.amount]
        withdrawCoins := loop.withdrawCoins ++ coins }

/-- The owner whose position `withdraw` takes from: the sender, or the recipient
    when the contract withdraws for a user. -/
def withdrawOwner (env : Env) (info : MessageInfo) (recipient : Addr) (sendTo : Option String) :
    Addr :=
  if info.sender = env.contractAddress ∧ sendTo.isSome then recipient else info.sender

def withdraw (deps : Deps) (env : Env) (info : MessageInfo) (positionId : Nat)
    (cAssets : List CAsset) (sendTo : Option String) (s : State) :
    Result (State × Response OutMsg) := do
  Outcome.guardErr (s.basket.frozen = true) .frozen
  let recipient ← liftStd (validatePositionOwner deps info sendTo)
  let owner := withdrawOwner env info recipient sendTo
  let (positionIndex, target) ← getTargetPosition s owner positionId
  let out ← liftStd (accrue deps env s.config s.prices target s.basket owner false)
  liftStd (checkForExpunged out.position.collateralAssets cAssets out.basket)
  let loop ← cAssets.foldlM
    (withdrawAsset deps env s.config out.prices out.basket owner positionIndex)
    ⟨s.positions, out.position, [], [], [], []⟩
  let (prices, basket) ←
    (if loop.target.creditAmount ≠ 0 then
      updateBasketTally deps env s.config out.prices out.basket loop.tallyUpdateList
        loop.target.collateralAssets false false
    else pure (out.prices, out.basket))
  let balances ← liftStd (getContractBalances deps env (loop.propAssets.map (·.info)))
  let msgs : List (SubMsg OutMsg) :=
    if loop.withdrawCoins.isEmpty then []
    else [SubMsg.replyOnSuccess (.bankSend recipient loop.withdrawCoins) withdrawReplyId]
  pure ({ s with
    prices := prices
    basket := basket
    positions := loop.positions
    withdraw := some ⟨loop.propAssets, loop.withdrawAmounts, balances, ⟨positionId, info.sender⟩⟩ },
    Response.addSubmessages {} msgs)

/-! ## Debt messages -/

def creditMintMsg (config : Config) (creditAsset : Asset) (recipient : Addr) :
    Outcome StdError (CosmosMsg OutMsg) :=
  match creditAsset.info with
  | .token _ => Outcome.fail (.genericErr "Credit has to be a native token")
  | .nativeToken denom =>
    match config.osmosisProxy with
    | some proxy => .ok (.execute proxy (.mintTokens denom creditAsset.amount recipient) [])
    | none => Outcome.fail (.genericErr "No proxy contract setup")

/-- The threshold from which pending revenue and repayment go to the stakers. -/
def revenueThreshold : Nat := 50000000

/-- The part of a repayment that is paid out as revenue; the rest is burned. -/
def revenueShare (basket : Basket) (amount : Nat) : Nat :=
  if basket.revToStakers ∧ basket.pendingRevenue ≠ 0 ∧ revenueThreshold ≤ basket.pendingRevenue ∧
      revenueThreshold ≤ amount then
    if amount ≤ basket.pendingRevenue then amount else basket.pendingRevenue
  else 0

/-- The message that pays revenue to the stakers, none without a staking contract. -/
def revenueMsg (config : Config) (denom : String) (revenueAmount : Nat) :
    List (CosmosMsg OutMsg) :=
  match config.stakingContract with
  | some staking =>
    if revenueAmount = 0 then []
    else [.execute staking .depositFee [⟨denom, revenueAmount⟩]]
  | none => []

/-- `credit_burn_rev_msg`: the messages, and the basket with its revenue paid out. -/
def creditBurnRevMsg (config : Config) (env : Env) (creditAsset : Asset) (basket : Basket) :
    Outcome StdError (List (CosmosMsg OutMsg) × Basket) := do
  let revenueAmount := revenueShare basket creditAsset.amount
  let burnAmount ← subUint creditAsset.amount revenueAmount
  let pendingRevenue ← subUint basket.pendingRevenue revenueAmount
  match creditAsset.info with
  | .token _ => Outcome.fail (.genericErr "Cw20 assets aren't allowed")
  | .nativeToken denom =>
    match config.osmosisProxy with
    | none => Outcome.fail (.genericErr "No proxy contract setup")
    | some proxy =>
      pure (burnMsg proxy env denom burnAmount ++ revenueMsg config denom revenueAmount,
        { basket with pendingRevenue := pendingRevenue })

end Membrane.Cdp
