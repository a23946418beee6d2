import Membrane.Oracle.Prices
import Membrane.Lib.Run

/-!
# The oracle

The handlers of `contracts/oracle`: the owner and the position contract add, edit and
remove the oracles of an asset, which the price queries read.
-/

namespace Membrane.Oracle

structure InstantiateMsg where
  owner : Option String
  positionsContract : Option String
  osmosisProxyContract : Option String
  oracleContract : Option String
  deriving DecidableEq, Repr

inductive ExecuteMsg where
  | updateConfig (owner positionsContract osmosisProxyContract pythOsmosisAddress
      osmoUsdPythFeedId : Option String) (poolsForUsdParTwap : Option (List TWAPPoolInfo))
  | addAsset (assetInfo : AssetInfo) (oracleInfo : AssetOracleInfo)
  | editAsset (assetInfo : AssetInfo) (oracleInfo : Option AssetOracleInfo) (remove : Bool)
  deriving DecidableEq, Repr

/-- `OSMO_USD_PRICE_ID`. -/
def osmoUsdPriceId : String := "5867f5683c757393a0670ef0f701490950fe93fdb006d181c8265a831ac0c5c6"

def pythOsmosis : String := "osmo1hpdzqku55lmfmptpyj6wdlugqs5etr6teqf7r4yqjjrxjznjhtuqqu5kdh"

def validateOption (deps : Deps) (text : Option String) (default : Option Addr) :
    Outcome StdError (Option Addr) :=
  match text with
  | some text => do pure (some (← addrValidate deps.addrValid text))
  | none => pure default

/-- `instantiate`. The configuration and the assets of another oracle may be copied. -/
def instantiate (deps : Deps) (info : MessageInfo) (msg : InstantiateMsg) : Result State := do
  let owner ← liftStd (match msg.owner with
    | some owner => addrValidate deps.addrValid owner
    | none => pure info.sender)
  let pyth ← liftStd (addrValidate deps.addrValid pythOsmosis)
  let positionsContract ← liftStd (validateOption deps msg.positionsContract none)
  let osmosisProxyContract ← liftStd (validateOption deps msg.osmosisProxyContract none)
  match msg.oracleContract with
  | none => pure {
      config := {
        owner := owner
        positionsContract := positionsContract
        osmosisProxyContract := osmosisProxyContract
        osmoUsdPythFeedId := osmoUsdPriceId
        pythOsmosisAddress := some pyth
        poolsForUsdParTwap := [] }
      assets := ∅
      ownershipTransfer := none }
  | some oracleContract => do
      let oracle ← liftStd (addrValidate deps.addrValid oracleContract)
      let config ← liftStd (Outcome.ofExcept (deps.oracleConfig oracle))
      let copied ← liftStd (Outcome.ofExcept (deps.oracleAssets oracle))
      pure {
        config := if msg.owner.isSome then { config with owner := owner } else config
        assets := copied.foldl (fun assets entry => assets.insert entry.1.toText entry.2) ∅
        ownershipTransfer := none }

def assertAuthority (config : Config) (info : MessageInfo) : Result PUnit :=
  Outcome.guardErr (info.sender ≠ config.owner ∧ config.positionsContract ≠ some info.sender)
    .unauthorized

/-- An asset that a position contract counts a supply of is in use. -/
def assertUnused (deps : Deps) (config : Config) (assetInfo : AssetInfo) : Result PUnit :=
  match config.osmosisProxyContract with
  | none => pure ⟨⟩
  | some proxy => do
      let owners ← liftStd (Outcome.ofExcept (deps.proxyOwners proxy))
      (owners.filter (·.isPositionContract)).forM fun owner => do
        let basket ← liftStd (Outcome.ofExcept (deps.basket owner.owner))
        Outcome.guardErr (basket.collateralSupplyCaps.any fun cap =>
          cap.assetInfo == assetInfo && decide (0 < cap.currentSupply))
          (.assetInUse assetInfo.toText)

/-- `oracle_info` put in the place of the oracle of its basket. -/
def replaceOracle (oracles : List AssetOracleInfo) (oracleInfo : AssetOracleInfo) :
    List AssetOracleInfo :=
  match oracles.findIdx? fun oracle => oracle.basketId == oracleInfo.basketId with
  | some i => oracles.set i oracleInfo
  | none => oracles

def editAsset (deps : Deps) (env : Env) (info : MessageInfo) (assetInfo : AssetInfo)
    (oracleInfo : Option AssetOracleInfo) (remove : Bool) (s : State) : Result State := do
  assertAuthority s.config info
  if remove then do
    assertUnused deps s.config assetInfo
    pure { s with assets := s.assets.erase assetInfo.toText }
  else
    match oracleInfo with
    | none => pure s
    | some oracleInfo => do
        let oracles := match s.assets.lookup assetInfo.toText with
          | some oracles => replaceOracle oracles oracleInfo
          | none => [oracleInfo]
        let s' := { s with assets := s.assets.insert assetInfo.toText oracles }
        -- the new source is tested; nothing was queried before, so no quote is priced in turn
        match getAssetPrice deps s' ⟨env.blockTime, 0, 0, some oracleInfo.basketId⟩ 1 assetInfo
          none none with
        | some (.error .panic) => Outcome.abort
        | _ => pure s'

def addAsset (deps : Deps) (info : MessageInfo) (assetInfo : AssetInfo)
    (oracleInfo : AssetOracleInfo) (s : State) : Result State := do
  assertAuthority s.config info
  let _ ← liftStd (match assetInfo with
    | .token address => addrValidate deps.addrValid address
    | .nativeToken denom => pure denom)
  match s.assets.lookup assetInfo.toText with
  | none => pure { s with assets := s.assets.insert assetInfo.toText [oracleInfo] }
  | some oracles => do
      Outcome.guardErr (oracles.any fun oracle => oracle.basketId == oracleInfo.basketId)
        (.duplicateOracle (toString oracleInfo.basketId))
      pure { s with assets := s.assets.insert assetInfo.toText (oracles ++ [oracleInfo]) }

def updateConfig (deps : Deps) (info : MessageInfo)
    (owner positionsContract osmosisProxyContract pythOsmosisAddress osmoUsdPythFeedId :
      Option String) (poolsForUsdParTwap : Option (List TWAPPoolInfo)) (s : State) :
    Result State := do
  let newOwner ← (if info.sender ≠ s.config.owner then do
      let pending ← Outcome.ofOption s.ownershipTransfer
        (.std (.notFound "cosmwasm_std::addresses::Addr"))
      if info.sender = pending then pure info.sender
      else do
        assertAuthority s.config info
        pure s.config.owner
    else pure s.config.owner)
  let ownershipTransfer ← liftStd (validateOption deps owner s.ownershipTransfer)
  let positions ← liftStd (validateOption deps positionsContract s.config.positionsContract)
  let proxy ← liftStd (validateOption deps osmosisProxyContract s.config.osmosisProxyContract)
  let pyth ← liftStd (validateOption deps pythOsmosisAddress s.config.pythOsmosisAddress)
  pure { s with
    config := {
      owner := newOwner
      positionsContract := positions
      osmosisProxyContract := proxy
      osmoUsdPythFeedId := osmoUsdPythFeedId.getD s.config.osmoUsdPythFeedId
      pythOsmosisAddress := pyth
      poolsForUsdParTwap := poolsForUsdParTwap.getD s.config.poolsForUsdParTwap }
    ownershipTransfer := ownershipTransfer }

def execute (deps : Deps) (env : Env) (info : MessageInfo) (msg : ExecuteMsg) (s : State) :
    Result State :=
  match msg with
  | .updateConfig owner positionsContract osmosisProxyContract pythOsmosisAddress
      osmoUsdPythFeedId poolsForUsdParTwap =>
      updateConfig deps info owner positionsContract osmosisProxyContract pythOsmosisAddress
        osmoUsdPythFeedId poolsForUsdParTwap s
  | .addAsset assetInfo oracleInfo => addAsset deps info assetInfo oracleInfo s
  | .editAsset assetInfo oracleInfo remove =>
    editAsset deps env info assetInfo oracleInfo remove s

/-- One call from outside: the answers to it, its block, its sender and its message. -/
structure Call where
  deps : Deps
  env : Env
  info : MessageInfo
  msg : ExecuteMsg

def Step (s : State) (call : Call) (s' : State) : Prop :=
  execute call.deps call.env call.info call.msg s = .ok s'

end Membrane.Oracle
