import Membrane.Lib.KeyMap
import Membrane.Types

/-!
# State of the position contract

The storage of `contracts/cdp`, its errors, the messages it sends and the
answers it gets from other contracts (`state.rs`, `error.rs`, and the
configuration in `packages/membrane/src/cdp.rs`).
-/

namespace Membrane.Cdp

/-- `ContractError`, the cases the modelled handlers raise. -/
inductive ContractError where
  | std (error : StdError)
  | unauthorized (owner : String)
  | invalidCollateral
  | invalidCredit
  | frozen
  | positionSolvent
  | positionInsolvent (insolvencyRes : Bool × Decimal × Nat)
  | noUserPositions
  | nonExistentPosition (id : Nat)
  | invalidWithdrawal
  | noRepaymentPrice
  | belowMinimumDebt (minimum debt : Nat)
  | notContractOwner
  | faultyCalc (msg : String)
  | invalidLTV (targetLTV : Decimal)
  | invalidMaxLTV (maxLTV : Decimal)
  | maxPositionsReached
  | customError (val : String)
  deriving DecidableEq, Repr

def ContractError.toText : ContractError → String
  | .std error => error.toText
  | .unauthorized owner => "Unauthorized, owner is " ++ owner
  | .invalidCollateral => "Invalid Collateral"
  | .invalidCredit => "Invalid Repayment Asset"
  | .frozen => "Basket withdrawals & debt increases are frozen temporarily"
  | .positionSolvent => "Position is solvent and shouldn't be liquidated"
  | .positionInsolvent (insolvent, ltv, fee) =>
    "Makes position insolvent: (" ++ toString insolvent ++ ", Decimal(" ++ ltv.toText ++
      "), Uint128(" ++ toString fee ++ "))"
  | .noUserPositions => "User has no positions in this basket"
  | .nonExistentPosition id => "Position doesn't exist: " ++ toString id
  | .invalidWithdrawal => "Invalid Withdrawal"
  | .noRepaymentPrice => "No repayment price set for this basket"
  | .belowMinimumDebt minimum debt =>
    "Position's debt (" ++ toString debt ++ ") is below minimum: " ++ toString minimum
  | .notContractOwner => "Info.sender is not the config.owner"
  | .faultyCalc msg => msg
  | .invalidLTV targetLTV => "Invalid target_LTV for debt increase: " ++ targetLTV.toText
  | .invalidMaxLTV _ => "Invalid Max LTV"
  | .maxPositionsReached => "Maximum position number reached"
  | .customError val => "Custom Error val: \"" ++ val ++ "\""

/-- A call of the position contract. -/
abbrev Result (α : Type) := Outcome ContractError α

/-- `?` on a runtime error inside a handler. -/
def liftStd {α : Type} (x : Outcome StdError α) : Result α := Outcome.mapErr .std x

@[simp]
theorem liftStd_eq_ok {α : Type} {x : Outcome StdError α} {a : α} :
    liftStd x = .ok a ↔ x = .ok a := Outcome.mapErr_eq_ok

/-- A handler's error rewrapped as a generic runtime error with `context` before
    its text. -/
def rewrapStd {α : Type} (context : String) (x : Outcome StdError α) : Outcome StdError α :=
  Outcome.mapErr (fun error => .genericErr (context ++ error.toText)) x

structure Config where
  owner : Addr
  stabilityPool : Option Addr
  dexRouter : Option Addr
  stakingContract : Option Addr
  osmosisProxy : Option Addr
  debtAuction : Option Addr
  oracleContract : Option Addr
  liquidityContract : Option Addr
  discountsContract : Option Addr
  liqFee : Decimal
  collateralTwapTimeframe : Nat
  creditTwapTimeframe : Nat
  oracleTimeLimit : Nat
  cpcMultiplier : Decimal
  debtMinimum : Nat
  baseDebtCapMultiplier : Nat
  rateSlopeMultiplier : Decimal
  rateHikeRate : Option Decimal

structure CollateralVolatility where
  index : Decimal
  volatilityList : List Decimal
  deriving DecidableEq, Repr

/-- The two maps that price reads write to: `STORED_PRICES` and `VOLATILITY`. -/
structure PriceStore where
  storedPrices : KeyMap String StoredPrice
  volatility : KeyMap String CollateralVolatility

structure WithdrawPropagation where
  positionsPrevCollateral : List Asset
  withdrawAmounts : List Nat
  contractsPrevCollateralAmount : List Nat
  positionInfo : UserInfo
  deriving DecidableEq, Repr

structure LiquidationPropagation where
  perAssetRepayment : List Decimal
  liqQueueRepayment : Decimal
  stabilityPool : Decimal
  userRepayAmount : Decimal
  positionsContract : Addr
  spLiqFee : Decimal
  cAssetRatios : List Decimal
  cAssetPrices : List PriceResponse
  targetPosition : Position
  liquidatedAssets : List CAsset
  callerFeeValuePaid : Decimal
  totalRepaid : Decimal
  positionOwner : Addr
  basket : Basket
  config : Config

structure Timer where
  startTime : Nat
  endTime : Nat
  deriving DecidableEq, Repr

structure State where
  config : Config
  basket : Basket
  positions : KeyMap Addr (List Position)
  prices : PriceStore
  redemptionOptIn : KeyMap Nat (List RedemptionInfo)
  ownershipTransfer : Option Addr
  withdraw : Option WithdrawPropagation
  liquidation : Option LiquidationPropagation
  freezeTimer : Option Timer

/-- The execute messages the contract sends to others and to itself. -/
inductive OutMsg where
  | mintTokens (denom : String) (amount : Nat) (mintToAddress : String)
  | burnTokens (denom : String) (amount : Nat) (burnFromAddress : String)
  | depositFee
  | spRepay (userInfo : UserInfo) (repayment : Asset)
  | spLiquidate (liqAmount : Decimal)
  | spDistribute (distributionAssets : List Asset) (distributionAssetRatios : List Decimal)
      (distributeFor : Nat)
  | lqLiquidate (creditPrice collateralPrice : PriceResponse) (collateralAmount : Nat)
      (bidFor : AssetInfo)
  | addQueue (bidFor : AssetInfo) (maxPremium bidThreshold : Nat)
  | updateQueue (bidFor : AssetInfo) (maxPremium : Option Nat) (bidThreshold : Option Nat)
  | startAuction (repaymentPositionInfo : Option UserInfo) (auctionAsset : Asset)
      (sendTo : Option String)
  | badDebtCheck (positionId : Nat) (positionOwner : Addr)
  | liquidityAddAsset (asset : AssetInfo) (poolInfos : List PoolType)
  | liquidityEditAsset (asset : AssetInfo) (poolInfos : List PoolType)
  | oracleAddAsset (assetInfo : AssetInfo) (oracleInfo : AssetOracleInfo)
  | oracleEditAsset (assetInfo : AssetInfo) (oracleInfo : Option AssetOracleInfo) (remove : Bool)
  deriving DecidableEq

/-- The stability pool's `AssetPool`, as far as the contract reads it. -/
structure AssetPool where
  creditAmount : Nat
  liqPremium : Decimal
  /-- The amounts of the queried user's deposits. -/
  deposits : List Decimal

/-- The liquidation queue's `LiquidatibleResponse`. -/
structure LiquidatibleResponse where
  leftoverCollateral : Nat
  totalDebtRepaid : Nat
  deriving DecidableEq, Repr

/-- The osmosis proxy's `PoolStateResponse`: the denominations of a pool. -/
structure PoolStateResponse where
  assets : List String
  sharesDenom : String
  deriving DecidableEq, Repr

/-- What a call can ask of the chain and of other contracts, each of which may
    answer anything. A contract is asked by its address. -/
structure Deps where
  /-- Whether `addr_validate` accepts a text. -/
  addrValid : String → Bool
  /-- The bank balance of an account. -/
  balance : Addr → String → Except StdError Nat
  /-- The chain's downtime detector: whether it has recovered. -/
  recoveredSinceDowntime : Except StdError Bool
  liquidity : Addr → AssetInfo → Except StdError Nat
  oraclePrices : Addr → List AssetInfo → Nat → Nat → Except StdError (List PriceResponse)
  oracleAssets : Addr → List AssetInfo → Except StdError Unit
  userDiscount : Addr → String → Except StdError Decimal
  /-- `GetOwner` of the osmosis proxy: liquidity multiplier and pool ratio. -/
  getOwner : Addr → String → Except StdError (Decimal × Option Decimal)
  poolState : Addr → Nat → Except StdError PoolStateResponse
  /-- The `mbrn_denom` of the staking contract's configuration. -/
  mbrnDenom : Addr → Except StdError String
  /-- The raw storage of the stability pool under `asset`. -/
  stabilityPoolRaw : Addr → Except StdError (Option AssetPool)
  stabilityPoolAsset : Addr → (user : Option String) → Except StdError AssetPool
  checkLiquidatible : Addr → (bidFor : AssetInfo) → (collateralPrice : PriceResponse) →
    (collateralAmount : Nat) → (creditInfo : AssetInfo) → (creditPrice : PriceResponse) →
    Except StdError LiquidatibleResponse

/-- `api.addr_validate`: the address is the text itself. -/
def Deps.addrValidate (deps : Deps) (text : String) : Outcome StdError Addr :=
  if deps.addrValid text then .ok text
  else Outcome.fail (.genericErr "addr_validate errored")

@[simp]
theorem Deps.addrValidate_eq_ok {deps : Deps} {text : String} {addr : Addr} :
    deps.addrValidate text = .ok addr ↔ deps.addrValid text = true ∧ text = addr := by
  by_cases h : deps.addrValid text <;> simp [Deps.addrValidate, h]

/-- The address of an optional contract, the empty one when it is not set. -/
def addrOr (addr : Option Addr) : Addr := addr.getD ""

/-! ## Positions in storage -/

/-- The first position of the list with the id, and its index. -/
def findPosition (positions : List Position) (positionId : Nat) : Option (Nat × Position) :=
  (positions.findIdx? fun position => position.positionId == positionId).bind fun i =>
    positions[i]?.map fun position => (i, position)

def getTargetPosition (s : State) (owner : Addr) (positionId : Nat) : Result (Nat × Position) := do
  let positions ← Outcome.ofOption (s.positions.lookup owner) .noUserPositions
  Outcome.ofOption (findPosition positions positionId) (.nonExistentPosition positionId)

/-- The list with every position of `newPosition`'s id swapped for it. -/
def swapPosition (newPosition : Position) (positions : List Position) : List Position :=
  positions.map fun stored =>
    if stored.positionId = newPosition.positionId then newPosition else stored

def updatePosition (s : State) (owner : Addr) (newPosition : Position) : Outcome StdError State :=
  match s.positions.lookup owner with
  | some old => .ok { s with positions := s.positions.insert owner (swapPosition newPosition old) }
  | none => Outcome.fail (.genericErr "Invalid position owner")

end Membrane.Cdp
