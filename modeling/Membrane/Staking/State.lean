import Membrane.Governance.State

/-!
# State of the staking contract

The storage of `contracts/staking`, its errors, the messages it sends and the answers it
gets from other contracts (`state.rs`, `error.rs`, and the types of
`packages/membrane/src/staking.rs` and `types.rs`).
-/

namespace Membrane.Staking

/-- `ContractError`, the cases the handlers raise. -/
inductive ContractError where
  | std (error : StdError)
  | unauthorized
  | customError (val : String)
  deriving DecidableEq, Repr

def ContractError.toText : ContractError → String
  | .std error => error.toText
  | .unauthorized => "Unauthorized"
  | .customError val => "Custom Error val: \"" ++ val ++ "\""

/-- A call of the staking contract. -/
abbrev Result (α : Type) := Outcome ContractError α

/-- `?` on a runtime error inside a handler. -/
def liftStd {α : Type} (x : Outcome StdError α) : Result α := Outcome.mapErr .std x

@[simp]
theorem liftStd_eq_ok {α : Type} {x : Outcome StdError α} {a : α} :
    liftStd x = .ok a ↔ x = .ok a := Outcome.mapErr_eq_ok

structure StakeDistribution where
  rate : Decimal
  duration : Nat
  deriving DecidableEq, Repr

structure StakeDistributionLog where
  ownershipDistribution : StakeDistribution
  startTime : Nat
  deriving DecidableEq, Repr

structure Config where
  owner : Addr
  mbrnDenom : String
  incentiveSchedule : StakeDistribution
  unstakingPeriod : Nat
  maxCommissionRate : Decimal
  keepRawCdt : Bool
  vestingRevMultiplier : Decimal
  positionsContract : Option Addr
  auctionContract : Option Addr
  vestingContract : Option Addr
  governanceContract : Option Addr
  osmosisProxy : Option Addr
  deriving DecidableEq, Repr

structure Totals where
  stakers : Nat
  vestingContract : Nat
  deriving DecidableEq, Repr

structure StakeDeposit where
  staker : Addr
  amount : Nat
  stakeTime : Nat
  unstakeStartTime : Option Nat
  lastAccrued : Option Nat
  deriving DecidableEq, Repr

/-- The time from which a deposit is still to be paid: `last_accrued`, or the time of stake. -/
def StakeDeposit.paidUntil (deposit : StakeDeposit) : Nat :=
  deposit.lastAccrued.getD deposit.stakeTime

structure Delegation where
  delegate : Addr
  amount : Nat
  fluidity : Bool
  votingPowerDelegation : Bool
  timeOfDelegation : Nat
  lastAccrued : Option Nat
  deriving DecidableEq, Repr

/-- The time from which a delegation is still to be paid. -/
def Delegation.paidUntil (delegation : Delegation) : Nat :=
  delegation.lastAccrued.getD delegation.timeOfDelegation

/-- `DelegationInfo`: the stake delegated to a user and the stake the user delegated. -/
structure DelegationInfo where
  delegated : List Delegation
  delegatedTo : List Delegation
  commission : Decimal
  deriving DecidableEq, Repr

/-- The information of a user without delegations. -/
def DelegationInfo.empty (commission : Decimal) : DelegationInfo := ⟨[], [], commission⟩

structure LiqAsset where
  info : AssetInfo
  amount : Decimal
  deriving DecidableEq, Repr

/-- `FeeEvent`: a fee, by the amount for each staked token. -/
structure FeeEvent where
  timeOfEvent : Nat
  fee : LiqAsset
  deriving DecidableEq, Repr

/-- The messages for other contracts, and for the contract itself. -/
inductive OutMsg where
  | mintTokens (denom : String) (amount : Nat) (mintToAddress : String)
  | stake (user : Option String)
  | startAuction (auctionAsset : Asset)
  deriving DecidableEq, Repr

structure State where
  config : Config
  stakingTotals : Totals
  staked : KeyMap Addr (List StakeDeposit)
  delegations : KeyMap Addr DelegationInfo
  delegateClaims : KeyMap Addr (List Coin × Nat)
  feeEvents : List FeeEvent
  incentiveScheduling : StakeDistributionLog
  vestingStakeTime : Nat
  vestingRevMultiplier : Option Decimal
  ownershipTransfer : Option Addr

/-- What a call can ask of the chain and of other contracts, each of which may answer
    anything. -/
structure Deps where
  /-- Whether `addr_validate` accepts a text. -/
  addrValid : String → Bool
  /-- The credit asset of the basket of the positions contract. -/
  creditAsset : (positionsContract : String) → Except StdError AssetInfo
  /-- `Recipients` of the vesting contract. -/
  recipients : (vestingContract : String) → Except StdError (List Vesting.Recipient)
  /-- `query_all_balances`. -/
  allBalances : Addr → Except StdError (List Coin)
  /-- `ActiveProposals` of the governance contract, with a limit. -/
  activeProposals : (governance : String) → (limit : Nat) →
    Except StdError (List Governance.Proposal)
  /-- Whether `ProposalVoters` finds a user among those who voted for a proposal. -/
  votedFor : (governance : String) → (proposalId : Nat) → (user : Addr) → Bool

/-- `STAKED.load`. -/
def State.loadStaked (s : State) (staker : Addr) : Outcome StdError (List StakeDeposit) :=
  Outcome.ofOption (s.staked.lookup staker)
    (.notFound "alloc::vec::Vec<membrane::types::StakeDeposit>")

/-- `DELEGATIONS.load`. -/
def State.loadDelegations (s : State) (user : Addr) : Outcome StdError DelegationInfo :=
  Outcome.ofOption (s.delegations.lookup user) (.notFound "membrane::types::DelegationInfo")

/-- The delegations of a user, or none with a commission. -/
def State.delegationsOr (s : State) (user : Addr) (commission : Decimal) : DelegationInfo :=
  (s.delegations.lookup user).getD (.empty commission)

/-- `DELEGATIONS.save`. -/
def State.saveDelegations (s : State) (user : Addr) (info : DelegationInfo) : State :=
  { s with delegations := s.delegations.insert user info }

/-- `STAKED.save`. -/
def State.saveStaked (s : State) (staker : Addr) (deposits : List StakeDeposit) : State :=
  { s with staked := s.staked.insert staker deposits }

def getTotalVesting (deps : Deps) (vestingContract : Addr) : Outcome StdError Nat := do
  let recipients ← Outcome.ofExcept (deps.recipients vestingContract)
  Vesting.getTotalVesting recipients

def assetToCoin (asset : Asset) : Outcome StdError Coin :=
  match asset.info with
  | .nativeToken denom => pure ⟨denom, asset.amount⟩
  | .token _ => Outcome.fail (.genericErr "CW20 Assets can't be converted into Coin")

def totalStake (deposits : List StakeDeposit) : Outcome StdError Nat :=
  Uint128.sum (deposits.map StakeDeposit.amount)

def totalDelegations (delegations : List Delegation) : Outcome StdError Nat :=
  Uint128.sum (delegations.map Delegation.amount)

/-- `StakerResponse`, without the staker. -/
structure StakerResponse where
  totalStaked : Nat
  depositList : List Governance.StakeDeposit
  deriving DecidableEq, Repr

def queryUserStake (deps : Deps) (staker : String) (s : State) :
    Outcome StdError StakerResponse := do
  let validAddr ← addrValidate deps.addrValid staker
  if s.config.vestingContract = some validAddr then do
    let total ← getTotalVesting deps validAddr
    pure ⟨total, []⟩
  else do
    let deposits ← s.loadStaked validAddr
    let total ← totalStake deposits
    pure ⟨total, deposits.map fun deposit =>
      ⟨deposit.staker, deposit.amount, deposit.stakeTime, deposit.unstakeStartTime⟩⟩

end Membrane.Staking
