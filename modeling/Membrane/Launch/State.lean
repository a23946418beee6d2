import Membrane.Lib.KeyMap
import Membrane.Types

/-!
# State of the launch contract

The storage of `contracts/launch` that its lockdrop uses, its errors and the messages it
sends (`state.rs`, `error.rs`, `packages/membrane/src/types.rs` and `launch.rs`).
-/

namespace Membrane.Launch

/-- `ContractError`, the cases the handlers raise. -/
inductive ContractError where
  | std (error : StdError)
  | unauthorized
  | depositsOver
  | withdrawalsOver
  | notAUser
  | customError (val : String)
  deriving DecidableEq, Repr

/-- A call of the launch contract. -/
abbrev Result (α : Type) := Outcome ContractError α

/-- `?` on a runtime error inside a handler. -/
def liftStd {α : Type} (x : Outcome StdError α) : Result α := Outcome.mapErr .std x

@[simp]
theorem liftStd_eq_ok {α : Type} {x : Outcome StdError α} {a : α} :
    liftStd x = .ok a ↔ x = .ok a := Outcome.mapErr_eq_ok

/-- `Config`, the fields that the lockdrop and `update_config` use. -/
structure Config where
  mbrnDenom : String
  creditDenom : String
  preLaunchContributors : Addr
  osmoDenom : String
  usdcDenom : String
  deriving DecidableEq, Repr

/-- `LaunchAddrs`, the contracts that a claim calls. -/
structure LaunchAddrs where
  osmosisProxy : Addr
  staking : Addr
  deriving DecidableEq, Repr

/-- `Lockdrop`. The times are in seconds, the ceiling in days. -/
structure Lockdrop where
  numOfIncentives : Nat
  lockedAsset : AssetInfo
  lockUpCeiling : Nat
  startTime : Nat
  depositEnd : Nat
  withdrawalEnd : Nat
  launched : Bool
  deriving DecidableEq, Repr

/-- `Lock`, for a number of days. -/
structure Lock where
  deposit : Nat
  lockUpDuration : Nat
  deriving DecidableEq, Repr

structure LockedUser where
  user : Addr
  deposits : List Lock
  totalTickets : Nat
  incentivesWithdrawn : Nat
  deriving DecidableEq, Repr

structure UserRatio where
  user : Addr
  ratio : Decimal
  deriving DecidableEq, Repr

structure State where
  config : Config
  addresses : LaunchAddrs
  lockdrop : Lockdrop
  lockedUsers : KeyMap Addr LockedUser
  incentiveRatios : List UserRatio

/-- The messages of a claim: to the proxy and to the staking contract. -/
inductive OutMsg where
  | mintTokens (denom : String) (amount : Nat) (mintToAddress : Addr)
  | stake (user : Option Addr)
  deriving DecidableEq, Repr

end Membrane.Launch
