import Membrane.Lib.KeyMap
import Membrane.Vesting.State

/-!
# State of the governance contract

The storage of `contracts/governance`, its errors and the answers it gets from the
staking and vesting contracts (`state.rs`, `error.rs`, and the types of
`packages/membrane/src/governance.rs` and `staking.rs`).
-/

namespace Membrane.Governance

/-- `ContractError`, the cases the modelled handlers raise. -/
inductive ContractError where
  | std (error : StdError)
  | unauthorized
  | proposalNotActive
  | votingPeriodEnded
  | noVotingPower
  | whitelistEmpty
  | insufficientTotalStake (minimum : Nat)
  deriving DecidableEq, Repr

def ContractError.toText : ContractError → String
  | .std error => error.toText
  | .unauthorized => "Unauthorized"
  | .proposalNotActive => "Proposal not active!"
  | .votingPeriodEnded => "Voting period ended!"
  | .noVotingPower => "You don't have any voting power!"
  | .whitelistEmpty => "Whitelist cannot be empty!"
  | .insufficientTotalStake minimum => "Total staked amount isn't greater than " ++ toString minimum

/-- A call of the governance contract. -/
abbrev Result (α : Type) := Outcome ContractError α

/-- `?` on a runtime error inside a handler. -/
def liftStd {α : Type} (x : Outcome StdError α) : Result α := Outcome.mapErr .std x

@[simp]
theorem liftStd_eq_ok {α : Type} {x : Outcome StdError α} {a : α} :
    liftStd x = .ok a ↔ x = .ok a := Outcome.mapErr_eq_ok

/-- `a.checked_add(b)?`. -/
def checkedAdd (a b : Nat) : Result Nat :=
  if a + b < Uint128.limit then .ok (a + b)
  else Outcome.fail (.std (.overflow "Add" (toString a) (toString b)))

/-- `a.checked_sub(b)?`. -/
def checkedSub (a b : Nat) : Result Nat :=
  if b ≤ a then .ok (a - b) else Outcome.fail (.std (.overflow "Sub" (toString a) (toString b)))

@[simp]
theorem checkedAdd_eq_ok {a b c : Nat} :
    checkedAdd a b = .ok c ↔ a + b < Uint128.limit ∧ a + b = c := by
  by_cases h : a + b < Uint128.limit <;> simp [checkedAdd, h]

@[simp]
theorem checkedSub_eq_ok {a b c : Nat} : checkedSub a b = .ok c ↔ b ≤ a ∧ a - b = c := by
  by_cases h : b ≤ a <;> simp [checkedSub, h]

structure Config where
  mbrnDenom : String
  minimumTotalStake : Nat
  stakingContractAddr : Addr
  vestingContractAddr : Addr
  vestingVotingPowerMultiplier : Decimal
  proposalVotingPeriod : Nat
  expeditedProposalVotingPeriod : Nat
  proposalEffectiveDelay : Nat
  proposalExpirationPeriod : Nat
  proposalRequiredStake : Nat
  proposalRequiredQuorum : Decimal
  proposalRequiredThreshold : Decimal
  whitelistedLinks : List String
  quadraticVoting : Bool
  deriving DecidableEq, Repr

inductive ProposalStatus where
  | active
  | passed
  | amendmentDesired
  | rejected
  | executed
  | expired
  deriving DecidableEq, Repr

inductive ProposalVoteOption where
  | for_
  | against
  | amend
  | remove
  | align
  deriving DecidableEq, Repr

structure ProposalMessage where
  order : Nat
  deriving DecidableEq, Repr

structure Tally where
  power : Nat
  voters : List Addr
  deriving DecidableEq, Repr

/-- `Proposal`. Each option's power and voters stand together. -/
structure Proposal where
  proposalId : Nat
  submitter : Addr
  status : ProposalStatus
  alignedVotes : Tally
  forVotes : Tally
  againstVotes : Tally
  amendmentVotes : Tally
  removalVotes : Tally
  startTime : Nat
  endBlock : Nat
  delayedEndBlock : Nat
  expirationBlock : Nat
  title : String
  description : String
  link : Option String
  messages : Option (List ProposalMessage)
  deriving DecidableEq, Repr

namespace Proposal

def votes (p : Proposal) : ProposalVoteOption → Tally
  | .for_ => p.forVotes
  | .against => p.againstVotes
  | .amend => p.amendmentVotes
  | .remove => p.removalVotes
  | .align => p.alignedVotes

def setVotes (p : Proposal) (tally : Tally) : ProposalVoteOption → Proposal
  | .for_ => { p with forVotes := tally }
  | .against => { p with againstVotes := tally }
  | .amend => { p with amendmentVotes := tally }
  | .remove => { p with removalVotes := tally }
  | .align => { p with alignedVotes := tally }

theorem votes_setVotes (p : Proposal) (tally : Tally) (option option' : ProposalVoteOption) :
    (p.setVotes tally option).votes option' =
      if option' = option then tally else p.votes option' := by
  cases option <;> cases option' <;> rfl

@[simp]
theorem votes_setVotes_same (p : Proposal) (tally : Tally) (option : ProposalVoteOption) :
    (p.setVotes tally option).votes option = tally := by
  rw [votes_setVotes, if_pos rfl]

end Proposal

structure State where
  config : Config
  proposalCount : Nat
  proposals : KeyMap Nat Proposal
  pendingProposals : KeyMap Nat Proposal

/-- `OldStakeDeposit`. -/
structure StakeDeposit where
  staker : Addr
  amount : Nat
  stakeTime : Nat
  unstakeStartTime : Option Nat
  deriving DecidableEq, Repr

/-- `OldDelegation`, as far as voting power reads it. -/
structure Delegation where
  amount : Nat
  votingPowerDelegation : Bool
  timeOfDelegation : Nat
  deriving DecidableEq, Repr

/-- `DelegationResponse`: the delegations to a user and those the user gave away. -/
structure DelegationResponse where
  user : Addr
  delegated : List Delegation
  delegatedTo : List Delegation
  deriving DecidableEq, Repr

/-- What a call can ask of the chain and of other contracts, each of which may
    answer anything. -/
structure Deps where
  /-- Whether `addr_validate` accepts a text. -/
  addrValid : String → Bool
  /-- The `mbrn_denom` of the staking contract's configuration. -/
  mbrnDenom : Addr → Except StdError String
  /-- The `stakers` of the raw storage of the staking contract under `totals`. -/
  stakingTotals : Addr → Except StdError Nat
  /-- The `total_not_including_vested` of `TotalStaked`. -/
  totalStaked : Addr → Except StdError Nat
  /-- The `deposit_list` of `UserStake`. -/
  userStake : Addr → (staker : String) → Except StdError (List StakeDeposit)
  /-- `Staked`, of deposits before a time that are not unstaking. -/
  staked : Addr → (endBefore : Nat) → Except StdError (List StakeDeposit)
  delegations : Addr → (user : String) → (endBefore : Nat) →
    Except StdError (List DelegationResponse)
  /-- `Allocation` of the vesting contract. -/
  allocation : Addr → (recipient : String) → Except StdError Vesting.Allocation
  /-- `Recipients` of the vesting contract. -/
  recipients : Addr → Except StdError (List Vesting.Recipient)

end Membrane.Governance
