import Membrane.Lib.KeyMap
import Membrane.Types

/-!
# State of the auction contract

The storage of `contracts/auction`, its errors, the messages it sends and the answers
it gets from the oracle and the positions contract (`state.rs`, `error.rs`, and the
types of `packages/membrane/src/auction.rs` and `types.rs`).
-/

namespace Membrane.Auction

inductive ContractError where
  | std (error : StdError)
  | unauthorized
  | customError (val : String)
  deriving DecidableEq, Repr

/-- A call of the auction contract. -/
abbrev Result (α : Type) := Outcome ContractError α

/-- `?` on a runtime error inside a handler. -/
def liftStd {α : Type} (x : Outcome StdError α) : Result α := Outcome.mapErr .std x

@[simp]
theorem liftStd_eq_ok {α : Type} {x : Outcome StdError α} {a : α} :
    liftStd x = .ok a ↔ x = .ok a := Outcome.mapErr_eq_ok

structure Config where
  owner : Addr
  oracleContract : Addr
  osmosisProxy : Addr
  mbrnDenom : String
  cdtDenom : String
  desiredAsset : String
  positionsContract : Addr
  governanceContract : Addr
  stakingContract : Addr
  twapTimeframe : Nat
  initialDiscount : Decimal
  discountIncreaseTimeframe : Nat
  discountIncrease : Decimal
  sendToStakers : Bool
  deriving DecidableEq, Repr

structure RepayPosition where
  repayment : Nat
  positionInfo : UserInfo
  deriving DecidableEq, Repr

structure AuctionRecipient where
  amount : Nat
  recipient : Addr
  deriving DecidableEq, Repr

structure DebtAuction where
  remainingRecapitalization : Nat
  repaymentPositions : List RepayPosition
  sendTo : List AuctionRecipient
  auctionStartTime : Nat
  deriving DecidableEq, Repr

structure FeeAuction where
  auctionAsset : Asset
  auctionStartTime : Nat
  deriving DecidableEq, Repr

/-- The storage of the contract; fee auctions are stored under the text of the asset. -/
structure State where
  config : Config
  debtAuction : Option DebtAuction
  feeAuctions : KeyMap String FeeAuction
  ownershipTransfer : Option Addr

/-- The execute messages the contract sends to the proxy, the positions contract and
    the staking contract. -/
inductive OutMsg where
  | mintTokens (denom : String) (amount : Nat) (mintToAddress : String)
  | repay (positionId : Nat) (positionOwner : Option String) (sendExcessTo : Option String)
  | depositFee
  deriving DecidableEq, Repr

/-- What a call can ask of the chain and of other contracts, which may answer
    anything. -/
structure Deps where
  /-- Whether `addr_validate` accepts a text. -/
  addrValid : String → Bool
  /-- `Price` of a native denom. -/
  oraclePrice : Addr → (denom : String) → (twapTimeframe oracleTimeLimit : Nat) →
    Except StdError (List PriceResponse)
  /-- `GetBasket`. -/
  basket : Addr → Except StdError Basket

end Membrane.Auction
