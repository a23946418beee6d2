import Membrane.Std.Chain
import Membrane.Std.Decimal

/-!
# Shared types

The data of `packages/membrane/src/types.rs` that the modelled contracts use.
-/

namespace Membrane

universe u

variable {ε : Type u}

inductive AssetInfo where
  | token (address : Addr)
  | nativeToken (denom : String)
  deriving DecidableEq, Repr

namespace AssetInfo

/-- The text of an asset, which is also its storage key. -/
def toText : AssetInfo → String
  | .token address => address
  | .nativeToken denom => denom

def toDebugText : AssetInfo → String
  | .token address => "Token \x7b address: Addr(\"" ++ address ++ "\") \x7d"
  | .nativeToken denom => "NativeToken \x7b denom: \"" ++ denom ++ "\" \x7d"

/-- `AssetInfo::equal`. -/
def equal (a b : AssetInfo) : Bool :=
  match a, b with
  | .token address, .token address' => address == address'
  | .nativeToken denom, .nativeToken denom' => denom == denom'
  | _, _ => false

@[simp]
theorem equal_iff {a b : AssetInfo} : a.equal b = true ↔ a = b := by
  cases a <;> cases b <;> simp [equal]

end AssetInfo

/-- `equal` of two lists of assets. -/
def assetsEqual (assets₁ assets₂ : List AssetInfo) : Bool :=
  assets₁.length == assets₂.length && assets₂.all fun asset =>
    assets₁.any fun self => asset.equal self

structure Asset where
  info : AssetInfo
  amount : Nat
  deriving DecidableEq, Repr

structure LPAssetInfo where
  info : AssetInfo
  decimals : Nat
  ratio : Decimal
  deriving DecidableEq, Repr

structure PoolInfo where
  poolId : Nat
  assetInfos : List LPAssetInfo
  deriving DecidableEq, Repr

structure TWAPPoolInfo where
  poolId : Nat
  baseAssetDenom : String
  quoteAssetDenom : String
  deriving DecidableEq, Repr

inductive PoolType where
  | balancer (poolId : Nat)
  | stableSwap (poolId : Nat)
  deriving DecidableEq, Repr

structure CAsset where
  asset : Asset
  maxBorrowLTV : Decimal
  maxLTV : Decimal
  rateIndex : Decimal
  poolInfo : Option PoolInfo
  hikeRates : Option Bool
  deriving DecidableEq, Repr

/-- `PriceResponse`: the median price of an asset and its decimals. -/
structure PriceResponse where
  price : Decimal
  decimals : Nat
  deriving DecidableEq, Repr

namespace PriceResponse

/-- `PriceResponse::get_value`. -/
def getValue (self : PriceResponse) (amount : Nat) : Outcome StdError Decimal := do
  let decimalAssetAmount ← Decimal.fromRatio amount (← Uint64.tenPow self.decimals)
  decimalMultiplication self.price decimalAssetAmount

/-- `PriceResponse::get_amount`. -/
def getAmount (self : PriceResponse) (value : Decimal) : Outcome StdError Nat := do
  let preScaledAmount ← decimalDivision value self.price
  Decimal.mulUint (← Uint64.tenPow self.decimals) preScaledAmount

end PriceResponse

structure StoredPrice where
  price : PriceResponse
  lastTimeUpdated : Nat
  deriving DecidableEq, Repr

structure Position where
  positionId : Nat
  collateralAssets : List CAsset
  creditAmount : Nat
  deriving DecidableEq, Repr

/-- The assets a position holds, without the parameters of their kind. -/
def Position.held (position : Position) : List Asset := position.collateralAssets.map (·.asset)

structure PositionRedemption where
  positionId : Nat
  remainingLoanRepayment : Nat
  restrictedCollateralAssets : List String
  deriving DecidableEq, Repr

structure RedemptionInfo where
  positionOwner : Addr
  positionInfos : List PositionRedemption
  deriving DecidableEq, Repr

structure Rate where
  rate : Decimal
  lastTimeUpdated : Nat
  deriving DecidableEq, Repr

structure SupplyCap where
  assetInfo : AssetInfo
  currentSupply : Nat
  debtTotal : Nat
  supplyCapRatio : Decimal
  lp : Bool
  stabilityPoolRatioForDebtCap : Option Decimal
  deriving DecidableEq, Repr

structure MultiAssetSupplyCap where
  assets : List AssetInfo
  supplyCapRatio : Decimal
  deriving DecidableEq, Repr

structure Basket where
  basketId : Nat
  currentPositionId : Nat
  collateralTypes : List CAsset
  collateralSupplyCaps : List SupplyCap
  lastestCollateralRates : List Rate
  multiAssetSupplyCaps : List MultiAssetSupplyCap
  creditAsset : Asset
  creditPrice : PriceResponse
  baseInterestRate : Decimal
  pendingRevenue : Nat
  creditLastAccrued : Nat
  ratesLastAccrued : Nat
  oracleSet : Bool
  negativeRates : Bool
  frozen : Bool
  revToStakers : Bool
  cpcMarginOfError : Decimal
  liqQueue : Option Addr
  deriving DecidableEq, Repr

structure UserInfo where
  positionId : Nat
  positionOwner : String
  deriving DecidableEq, Repr

/-- `AssetOracleInfo`, as the position contract sends it. -/
structure AssetOracleInfo where
  basketId : Nat
  pythPriceFeedId : Option String
  poolsForOsmoTwap : List TWAPPoolInfo
  isUsdPar : Bool
  lpPoolInfo : Option PoolInfo
  decimals : Nat
  deriving DecidableEq, Repr

end Membrane
