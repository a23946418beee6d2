import Membrane.Governance.State

/-!
# Voting power

`calc_voting_power` and `calc_total_voting_power_at` of `contracts.rs`: the power of
a voter, and of everybody, at the start time of a proposal.
-/

namespace Membrane.Governance

/-- `Decimal::from_ratio(amount, Uint128::one()).sqrt()`. -/
def sqrtOf {ε : Type} (amount : Nat) : Outcome ε Decimal := do
  pure (← Decimal.fromRatio amount 1).sqrt

/-- An amount, or its square root rounded up when voting is quadratic. -/
def quadraticCeil {ε : Type} (quadraticVoting : Bool) (amount : Nat) : Outcome ε Nat :=
  if quadraticVoting then do pure (← sqrtOf amount).toUintCeil else pure amount

/-- The stake that is not vested: from the raw totals, or from a query when that fails. -/
def nonVestedTotal (deps : Deps) (config : Config) : Outcome StdError Nat :=
  match deps.stakingTotals config.stakingContractAddr with
  | .ok stakers => .ok stakers
  | .error _ => Outcome.ofExcept (deps.totalStaked config.stakingContractAddr)

/-- The stake of a user that votes: staked before the start time and not unstaking. -/
def votingStake {ε : Type} (startTime : Nat) (stakes : List StakeDeposit) : Outcome ε Nat :=
  Uint128.sum ((stakes.filter fun stake =>
    decide (stake.stakeTime < startTime) && stake.unstakeStartTime.isNone).map (·.amount))

/-- The voting power of an allocation, at most 19% of the stake that is not vested. -/
def vestedPower {ε : Type} (config : Config) (nonVested : Nat) (allocation : Vesting.Allocation) :
    Outcome ε Nat := do
  let power ← Decimal.mulUint (← allocation.remaining) config.vestingVotingPowerMultiplier
  let cap ← Decimal.mulUint nonVested (Decimal.percent 19)
  pure (min power cap)

/-- The power that delegations carry at the start time. -/
def delegatedPower {ε : Type} (quadraticVoting : Bool) (startTime : Nat)
    (delegations : List Delegation) : Outcome ε Nat := do
  let powers ← (delegations.filter fun delegation =>
    decide (delegation.timeOfDelegation ≤ startTime) && delegation.votingPowerDelegation).mapM
      fun delegation => quadraticCeil quadraticVoting delegation.amount
  Uint128.sum powers

/-- `calc_voting_power`, with whether the proposal stays expedited. -/
def calcVotingPower (deps : Deps) (config : Config) (nonVested : Option Nat) (sender : String)
    (startTime : Nat) (expedited : Bool) (recipient : Option String) (quadraticVoting : Bool) :
    Outcome StdError (Nat × Bool) := do
  let nonVested ← (match nonVested with
    | some total => pure total
    | none => nonVestedTotal deps config)
  let staked ← (match deps.userStake config.stakingContractAddr sender with
    | .ok stakes => votingStake startTime stakes
    | .error _ => pure 0)
  -- a recipient's power comes from its allocation in place of its stake
  let (total, expedited) ← (match recipient with
    | none => pure (staked, false)
    | some recipient => do
        Outcome.guardErr (sender ≠ recipient)
          (.genericErr "You are not the Recipient that was passed")
        match deps.allocation config.vestingContractAddr recipient with
        | .ok allocation => do pure (← vestedPower config nonVested allocation, expedited)
        | .error _ => pure (0, false))
  let total ← quadraticCeil quadraticVoting total
  let delegations := match deps.delegations config.stakingContractAddr sender startTime with
    | .ok delegations => delegations
    | .error _ => []
  match delegations.find? fun delegation => delegation.user == sender with
  | some delegation => do
      let toUser ← delegatedPower quadraticVoting startTime delegation.delegated
      let fromUser ← delegatedPower quadraticVoting startTime delegation.delegatedTo
      let total ← Uint128.add total toUser
      pure ((Uint128.checkedSub total fromUser).getD 0, expedited)
  | none => pure (total, expedited)

/-- One staker of the total: its stakes are taken off the list and their power added. -/
def addStaker (quadraticVoting : Bool) (startTime : Nat) (acc : List StakeDeposit × Nat)
    (staker : StakeDeposit) : Outcome StdError (List StakeDeposit × Nat) := do
  let (remaining, total) := acc
  let stakerTotal ← votingStake startTime (remaining.filter fun stake =>
    stake.staker == staker.staker)
  let stakerTotal ← quadraticCeil quadraticVoting stakerTotal
  let total ← Uint128.add total stakerTotal
  pure (remaining.filter fun stake => stake.staker != staker.staker, total)

/-- The power of a vesting recipient in the total. -/
def addRecipient (config : Config) (quadraticVoting : Bool) (nonVested : Nat) (total : Nat)
    (recipient : Vesting.Recipient) : Outcome StdError Nat :=
  match recipient.allocation with
  | some allocation => do
      let power ← vestedPower config nonVested allocation
      let power ← (if quadraticVoting then do pure (← sqrtOf power).toUintFloor else pure power)
      Uint128.add total power
  | none => pure total

def calcTotalVotingPowerAt (deps : Deps) (config : Config) (quadraticVoting : Bool)
    (proposalStartTime : Nat) : Outcome StdError Nat := do
  let stakedMbrn := match deps.staked config.stakingContractAddr proposalStartTime with
    | .ok stakers => stakers
    | .error _ => []
  let (_, total) ← stakedMbrn.foldlM (addStaker quadraticVoting proposalStartTime) (stakedMbrn, 0)
  let nonVested := match nonVestedTotal deps config with
    | .ok total => total
    | .error _ => 0
  let recipients ← Outcome.ofExcept (deps.recipients config.vestingContractAddr)
  recipients.foldlM (addRecipient config quadraticVoting nonVested) total

end Membrane.Governance
