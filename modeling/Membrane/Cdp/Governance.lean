import Membrane.Cdp.Debt

/-!
# Instantiation and governance

`instantiate`, `update_config` and `edit_cAsset` of `contract.rs`, `create_basket`
and `edit_basket` of `positions.rs`, and the edits of `packages/membrane/src/cdp.rs`.
-/

namespace Membrane.Cdp

structure CreateBasket where
  basketId : Nat
  collateralTypes : List CAsset
  creditAsset : Asset
  creditPrice : Decimal
  baseInterestRate : Option Decimal
  creditPoolInfos : List PoolType
  liqQueue : Option String

structure InstantiateMsg where
  owner : Option String
  oracleTimeLimit : Nat
  debtMinimum : Nat
  liqFee : Decimal
  collateralTwapTimeframe : Nat
  creditTwapTimeframe : Nat
  rateSlopeMultiplier : Decimal
  baseDebtCapMultiplier : Nat
  stabilityPool : Option String
  dexRouter : Option String
  stakingContract : Option String
  oracleContract : Option String
  osmosisProxy : Option String
  debtAuction : Option String
  liquidityContract : Option String
  createBasket : CreateBasket

structure UpdateConfig where
  owner : Option String := none
  stabilityPool : Option String := none
  dexRouter : Option String := none
  stakingContract : Option String := none
  osmosisProxy : Option String := none
  debtAuction : Option String := none
  oracleContract : Option String := none
  liquidityContract : Option String := none
  discountsContract : Option String := none
  liqFee : Option Decimal := none
  collateralTwapTimeframe : Option Nat := none
  creditTwapTimeframe : Option Nat := none
  oracleTimeLimit : Option Nat := none
  cpcMultiplier : Option Decimal := none
  debtMinimum : Option Nat := none
  baseDebtCapMultiplier : Option Nat := none
  rateSlopeMultiplier : Option Decimal := none
  rateHikeRate : Option Decimal := none

structure EditBasket where
  addedCAsset : Option CAsset := none
  liqQueue : Option String := none
  creditPoolInfos : Option (List PoolType) := none
  collateralSupplyCaps : Option (List SupplyCap) := none
  multiAssetSupplyCaps : Option (List MultiAssetSupplyCap) := none
  baseInterestRate : Option Decimal := none
  creditAssetTwapPriceSource : Option TWAPPoolInfo := none
  negativeRates : Option Bool := none
  cpcMarginOfError : Option Decimal := none
  frozen : Option Bool := none
  revToStakers : Option Bool := none
  takeRevenue : Option Nat := none

/-- An optional address of a message, validated, or the one there is. -/
def setAddr (deps : Deps) (update : Option String) (current : Option Addr) :
    Outcome StdError (Option Addr) :=
  match update with
  | some text => do pure (some (← deps.addrValidate text))
  | none => .ok current

/-- The largest premium of a collateral's liquidation queue. -/
def queueMaxPremium (maxLTV : Decimal) : Outcome StdError Nat := do
  let percent ← Decimal.mulUint 100 maxLTV
  pure ((Uint128.checkedSub 95 percent).getD 10)

def queueBidThreshold : Nat := 1000000000000

/-- The supply cap a new collateral type starts with. -/
def newSupplyCap (asset : CAsset) : SupplyCap :=
  ⟨asset.asset.info, 0, 0, Decimal.zero, asset.poolInfo.isSome, none⟩

/-- The oracle has the asset: its query must not fail. -/
def assertOracle (deps : Deps) (config : Config) (asset : AssetInfo) : Result PUnit := do
  Outcome.guardErr (config.oracleContract = none)
    (.customError "Need to setup oracle contract before adding assets")
  let _ ← liftStd (Outcome.ofExcept (deps.oracleAssets (addrOr config.oracleContract) [asset]))
  pure ⟨⟩

/-- The message that creates a collateral's queue. -/
def addQueueMsg (queue : Addr) (asset : CAsset) : Result (CosmosMsg OutMsg) := do
  let maxPremium ← liftStd (queueMaxPremium asset.maxLTV)
  pure (.execute queue (.addQueue asset.asset.info maxPremium queueBidThreshold) [])

/-- One collateral type of `create_basket`: checked, with its queue message. -/
def createCollateral (deps : Deps) (config : Config) (liqQueue : Option Addr)
    (msgs : List (CosmosMsg OutMsg)) (asset : CAsset) : Result (List (CosmosMsg OutMsg)) := do
  Outcome.guardErr
    (asset.maxLTV ≤ asset.maxBorrowLTV ∧ Decimal.percent 10000 ≤ asset.maxBorrowLTV)
    (.customError "Max borrow LTV can't be greater or equal to max_LTV nor equal to 100")
  Outcome.guardErr (asset.poolInfo.isSome = true)
    (.customError "Can't add an LP when creating a basket")
  assertOracle deps config asset.asset.info
  match liqQueue with
  | some queue => do pure (msgs ++ [← addQueueMsg queue asset])
  | none => pure msgs

def createBasket (deps : Deps) (env : Env) (info : MessageInfo) (config : Config)
    (msg : CreateBasket) : Result (Basket × Response OutMsg) := do
  Outcome.guardErr (info.sender ≠ config.owner) .notContractOwner
  let newLiqQueue ← liftStd (setAddr deps msg.liqQueue none)
  let msgs ← msg.collateralTypes.foldlM (createCollateral deps config newLiqQueue) []
  let basket : Basket := {
    basketId := msg.basketId
    currentPositionId := 1
    collateralTypes := msg.collateralTypes.map fun cAsset =>
      { cAsset with asset := { cAsset.asset with amount := 0 }, rateIndex := Decimal.one }
    collateralSupplyCaps := msg.collateralTypes.map newSupplyCap
    lastestCollateralRates := []
    multiAssetSupplyCaps := []
    creditAsset := msg.creditAsset
    creditPrice := ⟨msg.creditPrice, 6⟩
    baseInterestRate := msg.baseInterestRate.getD Decimal.zero
    pendingRevenue := 0
    creditLastAccrued := env.blockTime
    ratesLastAccrued := env.blockTime
    oracleSet := false
    negativeRates := true
    frozen := false
    revToStakers := true
    cpcMarginOfError := Decimal.one
    liqQueue := newLiqQueue }
  match msg.creditAsset.info with
  | .token _ => Outcome.fail (.customError "Basket credit must be a native token denom")
  | .nativeToken _ =>
    let liquidity : List (CosmosMsg OutMsg) :=
      match config.liquidityContract with
      | some contract =>
        [.execute contract (.liquidityAddAsset msg.creditAsset.info msg.creditPoolInfos) []]
      | none => []
    pure (basket, Response.addMessages {} (msgs ++ liquidity))

/-- The configuration `instantiate` starts from, before the optional addresses. -/
def initialConfig (info : MessageInfo) (msg : InstantiateMsg) : Config := {
  owner := info.sender
  stabilityPool := none
  dexRouter := none
  stakingContract := none
  osmosisProxy := none
  debtAuction := none
  oracleContract := none
  liquidityContract := none
  discountsContract := none
  liqFee := msg.liqFee
  collateralTwapTimeframe := msg.collateralTwapTimeframe
  creditTwapTimeframe := msg.creditTwapTimeframe
  oracleTimeLimit := msg.oracleTimeLimit
  cpcMultiplier := Decimal.one
  debtMinimum := msg.debtMinimum
  baseDebtCapMultiplier := msg.baseDebtCapMultiplier
  rateSlopeMultiplier := msg.rateSlopeMultiplier
  rateHikeRate := some (Decimal.percent 30) }

def instantiate (deps : Deps) (env : Env) (info : MessageInfo) (msg : InstantiateMsg) :
    Result (State × Response OutMsg) := do
  let config := initialConfig info msg
  let owner ← liftStd (setAddr deps msg.owner (some config.owner))
  let stabilityPool ← liftStd (setAddr deps msg.stabilityPool none)
  let dexRouter ← liftStd (setAddr deps msg.dexRouter none)
  let stakingContract ← liftStd (setAddr deps msg.stakingContract none)
  let oracleContract ← liftStd (setAddr deps msg.oracleContract none)
  let osmosisProxy ← liftStd (setAddr deps msg.osmosisProxy none)
  let debtAuction ← liftStd (setAddr deps msg.debtAuction none)
  let liquidityContract ← liftStd (setAddr deps msg.liquidityContract none)
  let config := { config with
    owner := addrOr owner
    stabilityPool := stabilityPool
    dexRouter := dexRouter
    stakingContract := stakingContract
    oracleContract := oracleContract
    osmosisProxy := osmosisProxy
    debtAuction := debtAuction
    liquidityContract := liquidityContract }
  -- the messages of `create_basket` are dropped
  let (basket, _) ← createBasket deps env info config msg.createBasket
  pure ({
    config := config
    basket := basket
    positions := ∅
    prices := ⟨∅, ∅⟩
    redemptionOptIn := ∅
    ownershipTransfer := none
    withdraw := none
    liquidation := none
    freezeTimer := none }, {})

/-! ## Configuration -/

/-- A bounded decimal of `UpdateConfig`. -/
def setBounded (update : Option Decimal) (current bound : Decimal) (msg : String) :
    Outcome StdError Decimal :=
  match update with
  | some value => do
      Outcome.guardErr (bound < value) (.genericErr msg)
      pure value
  | none => .ok current

def UpdateConfig.updateConfig (self : UpdateConfig) (deps : Deps) (config : Config) :
    Outcome StdError Config := do
  let stabilityPool ← setAddr deps self.stabilityPool config.stabilityPool
  let dexRouter ← setAddr deps self.dexRouter config.dexRouter
  let osmosisProxy ← setAddr deps self.osmosisProxy config.osmosisProxy
  let debtAuction ← setAddr deps self.debtAuction config.debtAuction
  let stakingContract ← setAddr deps self.stakingContract config.stakingContract
  let oracleContract ← setAddr deps self.oracleContract config.oracleContract
  let liquidityContract ← setAddr deps self.liquidityContract config.liquidityContract
  let discountsContract ← setAddr deps self.discountsContract config.discountsContract
  let liqFee ← setBounded self.liqFee config.liqFee (Decimal.percent 100)
    "Liquidation fee must be between 0-100%"
  let oracleTimeLimit ← (match self.oracleTimeLimit with
    | some oracleTimeLimit => do
        let ceiling ← Uint64.mul config.collateralTwapTimeframe 60
        Outcome.guardErr (ceiling < oracleTimeLimit)
          (.genericErr "Oracle time limit ceiling is the collateral twap timeframe")
        pure oracleTimeLimit
    | none => pure config.oracleTimeLimit)
  let cpcMultiplier ← setBounded self.cpcMultiplier config.cpcMultiplier (Decimal.percent 1000)
    "CPC multiplier must be between 0-1000%"
  let rateSlopeMultiplier ← setBounded self.rateSlopeMultiplier config.rateSlopeMultiplier
    (Decimal.percent 1000) "Rate slope multiplier must be between 0-10000%"
  pure { config with
    stabilityPool := stabilityPool
    dexRouter := dexRouter
    osmosisProxy := osmosisProxy
    debtAuction := debtAuction
    stakingContract := stakingContract
    oracleContract := oracleContract
    liquidityContract := liquidityContract
    discountsContract := discountsContract
    liqFee := liqFee
    debtMinimum := self.debtMinimum.getD config.debtMinimum
    baseDebtCapMultiplier := self.baseDebtCapMultiplier.getD config.baseDebtCapMultiplier
    oracleTimeLimit := oracleTimeLimit
    collateralTwapTimeframe := self.collateralTwapTimeframe.getD config.collateralTwapTimeframe
    creditTwapTimeframe := self.creditTwapTimeframe.getD config.creditTwapTimeframe
    cpcMultiplier := cpcMultiplier
    rateSlopeMultiplier := rateSlopeMultiplier
    rateHikeRate := self.rateHikeRate.orElse fun _ => config.rateHikeRate }

/-- `update_config`: by the owner, or by the address that ownership is being
    transferred to. -/
def updateConfig (deps : Deps) (info : MessageInfo) (update : UpdateConfig) (s : State) :
    Result (State × Response OutMsg) := do
  let owner ←
    (if info.sender ≠ s.config.owner then do
      let newOwner ← Outcome.ofOption s.ownershipTransfer (.std (.notFound "cosmwasm_std::Addr"))
      Outcome.guardErr (info.sender ≠ newOwner) (.unauthorized newOwner)
      pure info.sender
    else pure s.config.owner)
  let transfer ← liftStd (setAddr deps update.owner s.ownershipTransfer)
  let config ← liftStd (update.updateConfig deps { s.config with owner := owner })
  pure ({ s with config := config, ownershipTransfer := transfer }, {})

/-! ## The basket's parameters -/

/-- The new limits of `edit_cAsset`. -/
def editLimits (asset : CAsset) (maxBorrowLTV maxLTV : Option Decimal) : Result CAsset := do
  let asset ← (match maxLTV with
    | some ltv => do
        Outcome.guardErr (Decimal.percent 100 < ltv ∨ ltv < Decimal.percent 1) (.invalidMaxLTV ltv)
        pure { asset with maxLTV := ltv }
    | none => pure asset)
  match maxBorrowLTV with
  | some ltv => do
      Outcome.guardErr (¬ (ltv < Decimal.percent 100 ∧ ltv < asset.maxLTV))
        (.customError "Invalid borrow LTV")
      pure { asset with maxBorrowLTV := ltv }
  | none => pure asset

/-- `edit_cAsset`. The edited type moves to the end of the list. -/
def editCAsset (info : MessageInfo) (asset : AssetInfo) (maxBorrowLTV maxLTV : Option Decimal)
    (s : State) : Result (State × Response OutMsg) := do
  Outcome.guardErr (info.sender ≠ s.config.owner) (.unauthorized s.config.owner)
  let found ← Outcome.ofOption
    (s.basket.collateralTypes.find? fun cAsset => cAsset.asset.info.equal asset)
    (.customError "Collateral type doesn't exist in basket")
  let newAsset ← editLimits found maxBorrowLTV maxLTV
  let msgs : List (CosmosMsg OutMsg) ← (match maxLTV, s.basket.liqQueue with
    | some ltv, some queue => do
        let maxPremium ← liftStd (queueMaxPremium ltv)
        pure [.execute queue (.updateQueue found.asset.info (some maxPremium) none) []]
    | _, _ => pure [])
  let types := (s.basket.collateralTypes.filter fun cAsset =>
    !cAsset.asset.info.equal newAsset.asset.info) ++ [newAsset]
  pure ({ s with basket := { s.basket with collateralTypes := types } },
    Response.addMessages {} msgs)

def EditBasket.editBasket (self : EditBasket) (basket : Basket) (newCAsset : CAsset)
    (newQueue : Option Addr) (oracleSet : Bool) : Basket :=
  let setCap (caps : List SupplyCap) (new : SupplyCap) : List SupplyCap :=
    match findCap caps new.assetInfo with
    | some (i, cap) => caps.set i { cap with
        supplyCapRatio := new.supplyCapRatio
        stabilityPoolRatioForDebtCap := new.stabilityPoolRatioForDebtCap }
    | none => caps
  let setMultiCap (caps : List MultiAssetSupplyCap) (new : MultiAssetSupplyCap) :
      List MultiAssetSupplyCap :=
    match caps.findIdx? fun cap => assetsEqual cap.assets new.assets with
    | some i => caps.modify i fun cap => { cap with supplyCapRatio := new.supplyCapRatio }
    | none => caps ++ [new]
  { basket with
    collateralTypes :=
      if self.addedCAsset.isSome then basket.collateralTypes ++ [newCAsset]
      else basket.collateralTypes
    liqQueue := if self.liqQueue.isSome then newQueue else basket.liqQueue
    collateralSupplyCaps :=
      (self.collateralSupplyCaps.getD []).foldl setCap basket.collateralSupplyCaps
    multiAssetSupplyCaps :=
      (self.multiAssetSupplyCaps.getD []).foldl setMultiCap basket.multiAssetSupplyCaps
    baseInterestRate := self.baseInterestRate.getD basket.baseInterestRate
    negativeRates := self.negativeRates.getD basket.negativeRates
    frozen := self.frozen.getD basket.frozen
    revToStakers := self.revToStakers.getD basket.revToStakers
    cpcMarginOfError := self.cpcMarginOfError.getD basket.cpcMarginOfError
    pendingRevenue := basket.pendingRevenue - self.takeRevenue.getD 0
    oracleSet := oracleSet }

/-- The pool of an added LP share: its info with the pool's denominations, and the
    oracle message. -/
def addPool (deps : Deps) (config : Config) (basket : Basket) (poolInfo : PoolInfo) :
    Result (AssetInfo × PoolInfo × CosmosMsg OutMsg) := do
  let poolState ← Outcome.mapErr (fun (error : StdError) => .customError error.toText)
    (Outcome.ofExcept (deps.poolState (addrOr config.osmosisProxy) poolInfo.poolId))
  let share : AssetInfo := .nativeToken poolState.sharesDenom
  let assetInfos ← poolState.assets.zipIdx.foldlM (fun infos entry => do
    let info ← Outcome.index infos entry.2
    let infos ← Outcome.setIndex infos entry.2
      { info with info := AssetInfo.nativeToken entry.1 }
    Outcome.guardErr ((basket.collateralTypes.any fun cAsset =>
        cAsset.asset.info.equal (.nativeToken entry.1)) = false)
      (.customError "Need to add all pool assets before adding the LP")
    pure infos) poolInfo.assetInfos
  let poolInfo := { poolInfo with assetInfos := assetInfos }
  let first ← Outcome.index poolState.assets 0
  let second ← Outcome.index poolState.assets 1
  let lpPool : PoolInfo := ⟨poolInfo.poolId,
    [⟨.nativeToken first, 6, Decimal.percent 50⟩, ⟨.nativeToken second, 6, Decimal.percent 50⟩]⟩
  pure (share, poolInfo, .execute (addrOr config.oracleContract)
    (.oracleAddAsset share ⟨1, none, [], false, some lpPool, 18⟩) [])

/-- The part of `edit_basket` on an added collateral type: the asset as it is added,
    and its messages. -/
def addCollateral (deps : Deps) (config : Config) (basket : Basket) (added : CAsset)
    (newQueue : Option Addr) : Result (CAsset × List (CosmosMsg OutMsg)) := do
  (match config.stakingContract with
  | some staking => do
      let mbrnDenom ← liftStd (Outcome.ofExcept (deps.mbrnDenom staking))
      Outcome.guardErr (added.asset.info.toText = mbrnDenom) .invalidCollateral
  | none => pure ⟨⟩)
  Outcome.guardErr (added.asset.info = basket.creditAsset.info) .invalidCollateral
  let newCAsset := { added with
    asset := { added.asset with amount := 0 }, rateIndex := Decimal.one }
  Outcome.guardErr ((basket.collateralTypes.any fun cAsset =>
    cAsset.asset.info.equal newCAsset.asset.info) = true)
    (.customError "Attempting to add duplicate asset")
  let (newCAsset, oracleMsgs) ← (match added.poolInfo with
    | some poolInfo => do
        let (share, poolInfo, msg) ← addPool deps config basket poolInfo
        pure ({ newCAsset with
          asset := { newCAsset.asset with info := share }, poolInfo := some poolInfo }, [msg])
    | none => do
        assertOracle deps config newCAsset.asset.info
        pure (newCAsset, []))
  let queueMsgs ← (match basket.liqQueue.orElse fun _ => newQueue with
    | some queue => do pure [← addQueueMsg queue newCAsset]
    | none => pure [])
  Outcome.guardErr (newCAsset.maxLTV ≤ newCAsset.maxBorrowLTV ∨
      Decimal.percent 10000 ≤ newCAsset.maxBorrowLTV)
    (.customError "Max borrow LTV can't be greater or equal to max_LTV nor equal to 100")
  pure (newCAsset, oracleMsgs ++ queueMsgs)

/-- The asset `edit_basket` starts from; it is only added when it is replaced. -/
def blankCAsset : CAsset :=
  ⟨⟨.nativeToken "None", 0⟩, Decimal.zero, Decimal.zero, Decimal.one, none, some false⟩

/-- The volatility trackers with the index of `key` reset. -/
def resetVolatility (volatility : KeyMap String CollateralVolatility) (key : String) :
    KeyMap String CollateralVolatility :=
  volatility.insert key
    { (volatility.lookup key).getD ⟨Decimal.one, []⟩ with index := Decimal.one }

/-- The freeze timer after the basket's freeze is set to `frozen`. -/
def moveFreezeTimer (env : Env) (basket : Basket) (frozen : Option Bool) (timer : Option Timer) :
    Option Timer :=
  match frozen, basket.frozen with
  | some true, false => some { timer.getD ⟨0, 0⟩ with startTime := env.blockTime }
  | some false, true => some { timer.getD ⟨0, 0⟩ with endTime := env.blockTime }
  | _, _ => timer

/-- The oracle message of `edit_basket` for the debt token, when both the source and
    the contract are given. -/
def creditOracleMsg (config : Config) (basket : Basket) (source : Option TWAPPoolInfo) :
    List (CosmosMsg OutMsg) :=
  match source, config.oracleContract with
  | some creditTwap, some oracle => [.execute oracle (.oracleEditAsset basket.creditAsset.info
      (some ⟨basket.basketId, none, [creditTwap], false, none, 6⟩) false) []]
  | _, _ => []

/-- The liquidity message of `edit_basket`. -/
def creditPoolMsg (config : Config) (basket : Basket) (poolInfos : Option (List PoolType)) :
    List (CosmosMsg OutMsg) :=
  match poolInfos, config.liquidityContract with
  | some infos, some contract =>
    [.execute contract (.liquidityEditAsset basket.creditAsset.info infos) []]
  | _, _ => []

def editBasket (deps : Deps) (env : Env) (info : MessageInfo) (edit : EditBasket) (s : State) :
    Result (State × Response OutMsg) := do
  Outcome.guardErr (info.sender ≠ s.config.owner) (.unauthorized s.config.owner)
  let newQueue ← liftStd (setAddr deps edit.liqQueue none)
  let (newCAsset, msgs) ← (match edit.addedCAsset with
    | some added => addCollateral deps s.config s.basket added newQueue
    | none => pure (blankCAsset, []))
  let basket :=
    if edit.addedCAsset.isSome then { s.basket with
      collateralSupplyCaps := s.basket.collateralSupplyCaps ++ [newSupplyCap newCAsset] }
    else s.basket
  let volatility :=
    if edit.addedCAsset.isSome then
      s.prices.volatility.insert newCAsset.asset.info.toText ⟨Decimal.one, []⟩
    else s.prices.volatility
  let oracleMsgs := creditOracleMsg s.config basket edit.creditAssetTwapPriceSource
  let oracleSet := basket.oracleSet || !oracleMsgs.isEmpty
  let poolMsgs := creditPoolMsg s.config basket edit.creditPoolInfos
  let reset := ((edit.collateralSupplyCaps.getD []).map fun cap => cap.assetInfo.toText) ++
    ((edit.multiAssetSupplyCaps.getD []).flatMap fun cap => cap.assets.map AssetInfo.toText)
  pure ({ s with
    basket := edit.editBasket basket newCAsset newQueue oracleSet
    prices := { s.prices with volatility := reset.foldl resetVolatility volatility }
    freezeTimer := moveFreezeTimer env s.basket edit.frozen s.freezeTimer },
    Response.addMessages {} (msgs ++ oracleMsgs ++ poolMsgs))

end Membrane.Cdp
