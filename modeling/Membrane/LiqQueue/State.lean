import Membrane.Lib.KeyMap
import Membrane.Std.Decimal256
import Membrane.Types

/-!
# State of the liquidation queue

The storage of `contracts/liq-queue`, its errors and the message it sends (`state.rs`,
`error.rs`, and the types of `packages/membrane/src/liq_queue.rs` and `types.rs`). A
queue for an asset has a slot for each premium; the bids of a slot share its product,
sum, epoch and scale.
-/

namespace Membrane.LiqQueue

inductive ContractError where
  | std (error : StdError)
  | unauthorized
  | insufficientBids
  | invalidAsset
  | invalidPremium
  | duplicateQueue
  | invalidWithdrawal (minimum : Nat)
  | tooManyWaitingBids (maxWaitingBids : Nat)
  | invalidBidThreshold
  | customError (val : String)
  deriving DecidableEq, Repr

/-- A call of the liquidation queue. -/
abbrev Result (α : Type) := Outcome ContractError α

/-- `?` on a runtime error inside a handler. -/
def liftStd {α : Type} (x : Outcome StdError α) : Result α := Outcome.mapErr .std x

@[simp]
theorem liftStd_eq_ok {α : Type} {x : Outcome StdError α} {a : α} :
    liftStd x = .ok a ↔ x = .ok a := Outcome.mapErr_eq_ok

structure Config where
  owner : Addr
  positionsContract : Addr
  osmosisProxyContract : Addr
  addedAssets : Option (List AssetInfo)
  waitingPeriod : Nat
  bidAsset : AssetInfo
  minimumBid : Nat
  maximumWaitingBids : Nat
  deriving DecidableEq, Repr

structure BidInput where
  bidFor : AssetInfo
  liqPremium : Nat
  deriving DecidableEq, Repr

structure Bid where
  user : Addr
  id : Nat
  amount : Nat
  liqPremium : Nat
  productSnapshot : Decimal256
  sumSnapshot : Decimal256
  pendingLiquidatedCollateral : Nat
  waitEnd : Option Nat
  epochSnapshot : Nat
  scaleSnapshot : Nat
  deriving DecidableEq, Repr

structure PremiumSlot where
  bids : List Bid
  waitingBids : List Bid
  liqPremium : Decimal256
  sumSnapshot : Decimal256
  productSnapshot : Decimal256
  totalBidAmount : Nat
  lastTotal : Nat
  currentEpoch : Nat
  currentScale : Nat
  residueCollateral : Decimal256
  residueBid : Decimal256
  deriving DecidableEq, Repr

structure Queue where
  bidAsset : Asset
  maxPremium : Nat
  slots : List PremiumSlot
  currentBidId : Nat
  bidThreshold : Nat
  deriving DecidableEq, Repr

/-- The key of a sum in the bucket of `epoch_scale_sum`: the collateral, the premium, the
    epoch and the scale. -/
abbrev SumKey := String × Nat × Nat × Nat

/-- The sums of the slots at the last liquidation of each epoch and scale. -/
abbrev EpochScaleSums := KeyMap SumKey Decimal256

/-- The storage of the contract; queues are stored under the text of the collateral. -/
structure State where
  config : Config
  queues : KeyMap String Queue
  epochScaleSums : EpochScaleSums
  ownershipTransfer : Option Addr

/-- The execute message the contract sends to the proxy. -/
inductive OutMsg where
  | burnTokens (denom : String) (amount : Nat) (burnFromAddress : String)
  deriving DecidableEq, Repr

structure Deps where
  /-- Whether `addr_validate` accepts a text. -/
  addrValid : String → Bool

structure PriceResponse256 where
  price : Decimal256
  decimals : Nat
  deriving DecidableEq, Repr

/-- `PriceResponse::to_decimal256`: the price goes through its text, which keeps its
    atomics. -/
def toDecimal256 (response : PriceResponse) : PriceResponse256 :=
  ⟨⟨response.price.atomics⟩, response.decimals⟩

namespace PriceResponse256

/-- `PriceResponse256::get_value`. -/
def getValue (self : PriceResponse256) (amount : Nat) : Result Decimal256 := do
  let decimalAssetAmount ← Decimal256.fromRatio amount (← Uint64.tenPow self.decimals)
  Decimal256.mul self.price decimalAssetAmount

/-- `PriceResponse256::get_amount`. -/
def getAmount (self : PriceResponse256) (value : Decimal256) : Result Nat := do
  let preScaledAmount ← Decimal256.div value self.price
  Decimal256.mulUint preScaledAmount (← Uint64.tenPow self.decimals)

end PriceResponse256

end Membrane.LiqQueue
