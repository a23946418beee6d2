import Membrane.Types

/-!
# State of the vesting contract

The storage of `contracts/vesting`, its errors, the messages it sends and the
answers it gets from the staking contract (`state.rs`, `error.rs`, and the types
of `packages/membrane/src/types.rs` and `vesting.rs`).
-/

namespace Membrane.Vesting

inductive ContractError where
  | std (error : StdError)
  | unauthorized
  | overAllocated
  | invalidAllocation
  | invalidRecipient
  | customError (val : String)
  deriving DecidableEq, Repr

def ContractError.toText : ContractError → String
  | .std error => error.toText
  | .unauthorized => "Unauthorized"
  | .overAllocated => "Increase is over contract's allocation"
  | .invalidAllocation => "Receiver allocation doesn't exist"
  | .invalidRecipient => "Info.sender is not a recipient"
  | .customError val => "Custom Error val: \"" ++ val ++ "\""

/-- A call of the vesting contract. -/
abbrev Result (α : Type) := Outcome ContractError α

/-- `?` on a runtime error inside a handler. -/
def liftStd {α : Type} (x : Outcome StdError α) : Result α := Outcome.mapErr .std x

@[simp]
theorem liftStd_eq_ok {α : Type} {x : Outcome StdError α} {a : α} :
    liftStd x = .ok a ↔ x = .ok a := Outcome.mapErr_eq_ok

/-- `VestingPeriod`, both parts in days. -/
structure VestingPeriod where
  cliff : Nat
  linear : Nat
  deriving DecidableEq, Repr

structure Allocation where
  amount : Nat
  amountWithdrawn : Nat
  startTimeOfAllocation : Nat
  vestingPeriod : VestingPeriod
  deriving DecidableEq, Repr

structure Recipient where
  recipient : Addr
  allocation : Option Allocation
  claimables : List Asset
  deriving DecidableEq, Repr

structure Config where
  owner : Addr
  totalAllocation : Nat
  mbrnDenom : String
  osmosisProxy : Addr
  stakingContract : Addr
  deriving DecidableEq, Repr

structure State where
  config : Config
  recipients : List Recipient
  ownershipTransfer : Option Addr
  deriving DecidableEq, Repr

/-- The execute messages the contract sends to the proxy and to the staking contract. -/
inductive OutMsg where
  | mintTokens (denom : String) (amount : Nat) (mintToAddress : String)
  | claimRewards (restake : Bool) (sendTo : Option String)
  deriving DecidableEq, Repr

/-- What a call can ask of the chain and of the staking contract, which may answer
    anything. -/
structure Deps where
  /-- Whether `addr_validate` accepts a text. -/
  addrValid : String → Bool
  /-- The `claimables` of `UserRewards`. -/
  userRewards : Addr → (user : String) → Except StdError (List Asset)
  /-- The `total_staked` of `UserStake`. -/
  userStake : Addr → (staker : String) → Except StdError Nat

/-- What of an allocation has not been withdrawn: an unchecked subtraction at each of
    its uses, for fee shares, for the total vesting and for voting power. -/
def Allocation.remaining {ε : Type} (allocation : Allocation) : Outcome ε Nat :=
  subUint allocation.amount allocation.amountWithdrawn

/-- `RecipientsResponse::get_total_vesting`. -/
def getTotalVesting {ε : Type} (recipients : List Recipient) : Outcome ε Nat :=
  recipients.foldlM (fun totalVesting recipient =>
    match recipient.allocation with
    | some allocation => do Uint128.add totalVesting (← allocation.remaining)
    | none => pure totalVesting) 0

end Membrane.Vesting
