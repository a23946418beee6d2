import Membrane.Lib.KeyMap
import Membrane.Types

/-!
# State of the stability pool

The storage of `contracts/stability-pool`, its errors and the messages it sends
(`state.rs`, `error.rs`, `packages/membrane/src/stability_pool.rs`), and the coins
that a user can claim.
-/

namespace Membrane.StabilityPool

/-- `ContractError`, the cases the handlers raise. -/
inductive ContractError where
  | std (error : StdError)
  | unauthorized
  | invalidAsset
  | minimumDeposit (min : Nat)
  | invalidWithdrawal
  | customError (val : String)
  deriving DecidableEq, Repr

/-- A call of the stability pool. -/
abbrev Result (α : Type) := Outcome ContractError α

/-- `?` on a runtime error inside a handler. -/
def liftStd {α : Type} (x : Outcome StdError α) : Result α := Outcome.mapErr .std x

@[simp]
theorem liftStd_eq_ok {α : Type} {x : Outcome StdError α} {a : α} :
    liftStd x = .ok a ↔ x = .ok a := Outcome.mapErr_eq_ok

structure Config where
  owner : Addr
  incentiveRate : Decimal
  maxIncentives : Nat
  unstakingPeriod : Nat
  minimumDepositAmount : Nat
  mbrnDenom : String
  osmosisProxy : Addr
  positionsContract : Addr
  oracleContract : Addr
  deriving DecidableEq, Repr

structure Deposit where
  user : Addr
  amount : Decimal
  depositTime : Nat
  lastAccrued : Nat
  unstakeTime : Option Nat
  deriving DecidableEq, Repr

/-- `Deposit::equal`: equality of amount, user and time with one of `deposits`. -/
def Deposit.equal (self : Deposit) (deposits : List Deposit) : Bool :=
  deposits.any fun deposit => self.amount == deposit.amount && self.user == deposit.user &&
    self.depositTime == deposit.depositTime

structure AssetPool where
  creditAsset : Asset
  liqPremium : Decimal
  deposits : List Deposit
  deriving DecidableEq, Repr

structure UserRatio where
  user : Addr
  ratio : Decimal
  deriving DecidableEq, Repr

structure UserInfo where
  positionId : Nat
  positionOwner : String
  deriving DecidableEq, Repr

/-- The messages for other contracts. -/
inductive OutMsg where
  | liqRepay
  | repay (positionId : Nat) (positionOwner sendExcessTo : Option String)
  | mintTokens (denom : String) (amount : Nat) (mintToAddress : String)
  deriving DecidableEq, Repr

/-! ## Coins -/

/-- One denom comes before another in the order of the map that keeps coins. -/
def denomBefore (a b : String) : Bool := decide (a.toList < b.toList)

/-- `Coins::add`: the coins of a user, one a denom, in the order of their denoms. -/
def addCoin (coin : Coin) : List Coin → Outcome StdError (List Coin)
  | [] => pure [coin]
  | head :: rest =>
    if coin.denom = head.denom then
      if head.amount + coin.amount < Uint128.limit then
        pure (⟨head.denom, head.amount + coin.amount⟩ :: rest)
      else Outcome.fail (.overflow "Add" (toString head.amount) (toString coin.amount))
    else if denomBefore coin.denom head.denom then pure (coin :: head :: rest)
    else do pure (head :: (← addCoin coin rest))

/-- The storage of the contract. `incentives` is the total of what has been accrued,
    `users` the claimable coins of each user. -/
structure State where
  config : Config
  asset : AssetPool
  repaidAmount : Nat
  incentives : Nat
  users : KeyMap Addr (List Coin)
  ownershipTransfer : Option Addr

/-- Add coins to a user's claims, which are created with the first. -/
def addClaim (user : Addr) (coin : Coin) (users : KeyMap Addr (List Coin)) :
    Outcome StdError (KeyMap Addr (List Coin)) := do
  let claims ← addCoin coin ((users.lookup user).getD [])
  pure (users.insert user claims)

def addToUserClaims (user : Addr) (distributionAsset : AssetInfo) (sendAmount : Nat)
    (users : KeyMap Addr (List Coin)) : Outcome StdError (KeyMap Addr (List Coin)) :=
  if sendAmount = 0 then pure users
  else addClaim user ⟨distributionAsset.toText, sendAmount⟩ users

end Membrane.StabilityPool
