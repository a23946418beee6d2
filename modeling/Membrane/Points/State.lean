import Membrane.Governance.State
import Membrane.Std.Decimal256
import Membrane.Types

/-!
# State of the points system

The storage of `contracts/points-system`, its errors, the messages it sends and the answers
it gets (`state.rs`, `error.rs`, `packages/membrane/src/points_system.rs`).
-/

namespace Membrane.Points

/-- `ContractError`, the cases the handlers raise. -/
inductive ContractError where
  | std (error : StdError)
  | unauthorized
  deriving DecidableEq, Repr

/-- A call of the points system. -/
abbrev Result (α : Type) := Outcome ContractError α

/-- `?` on a runtime error inside a handler. -/
def liftStd {α : Type} (x : Outcome StdError α) : Result α := Outcome.mapErr .std x

@[simp]
theorem liftStd_eq_ok {α : Type} {x : Outcome StdError α} {a : α} :
    liftStd x = .ok a ↔ x = .ok a := Outcome.mapErr_eq_ok

structure Config where
  owner : Addr
  cdtDenom : String
  oracleContract : Addr
  positionsContract : Addr
  stabilityPoolContract : Addr
  liqQueueContract : Addr
  governanceContract : Addr
  osmosisProxyContract : Addr
  mbrnPerPoint : Decimal
  totalMbrnDistribution : Nat
  maxMbrnDistribution : Nat
  pointsPerDollar : Decimal
  deriving DecidableEq, Repr

/-- The queue's `ClaimsResponse`. -/
structure LQClaims where
  bidFor : String
  pendingLiquidatedCollateral : Nat
  deriving DecidableEq, Repr

structure ClaimCheck where
  user : Addr
  cdpPendingRevenue : Nat
  lqPendingClaims : List LQClaims
  spPendingClaims : List Coin
  votePending : List Nat
  deriving DecidableEq, Repr

structure UserStats where
  totalPoints : Decimal
  claimablePoints : Decimal
  deriving DecidableEq, Repr

structure LiquidationPropagation where
  preLiqCDT : Nat
  liquidator : Addr
  liquidatee : Addr
  deriving DecidableEq, Repr

structure State where
  config : Config
  userStats : KeyMap Addr UserStats
  claimCheck : Option ClaimCheck
  liqPropagation : Option LiquidationPropagation
  ownershipTransfer : Option Addr

/-- The answers of the chain and of the other contracts. -/
structure Deps where
  addrValid : String → Bool
  /-- `GetBasket` of the positions contract. -/
  basket : (positions : Addr) → Except StdError Basket
  /-- `UserClaims` of the stability pool. -/
  spClaims : (pool user : Addr) → Except StdError (List Coin)
  /-- `UserClaims` of the liquidation queue. -/
  lqClaims : (queue user : Addr) → Except StdError (List LQClaims)
  /-- `Proposal` of the governance contract. -/
  proposal : (governance : Addr) → (proposalId : Nat) → Except StdError Governance.Proposal
  /-- `Prices` of the oracle, for the last hour. -/
  prices : (oracle : Addr) → List AssetInfo → Except StdError (List PriceResponse)
  /-- `query_all_balances`. -/
  balances : Addr → Except StdError (List Coin)

/-- The messages of the points system: to the positions contract, the proxy and the bank. -/
inductive Msg where
  | accrue (positions : Addr) (userInfo : UserInfo)
  | liquidate (positions : Addr) (positionId : Nat) (positionOwner : Addr)
  | mintTokens (proxy : Addr) (denom : String) (amount : Nat) (mintToAddress : Addr)
  | send (toAddress : Addr) (amount : List Coin)
  deriving DecidableEq, Repr

/-- What `give_points` lists in its attributes. -/
structure Given where
  revenuePaid : Nat
  spClaimDiff : List Coin
  lqClaimDiff : List Coin
  newlyVotedProposals : List Nat
  deriving DecidableEq, Repr

/-- What a call returns: its messages, and what `give_points` lists. -/
structure Response where
  msgs : List Msg
  given : Given
  deriving DecidableEq, Repr

def Response.messages (msgs : List Msg) : Response := ⟨msgs, ⟨0, [], [], []⟩⟩

end Membrane.Points
