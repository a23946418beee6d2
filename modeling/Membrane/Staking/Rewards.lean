import Mathlib.Data.List.Sort
import Membrane.Staking.State

/-!
# Staking rewards

What the stake of a user has earned in `contracts/staking/src/contract.rs`: the fees of the
events that a deposit saw and interest on it, less the commission of the user's delegates and
with the user's own commission. A claim condenses the deposits and books the commission of
each delegate; the rewards of a user are sent with the claims booked for the user.
-/

namespace Membrane.Staking

/-- `SECONDS_PER_YEAR`. -/
def secondsPerYear : Nat := 31536000

/-- `SECONDS_PER_DAY`. -/
def secondsPerDay : Nat := 86400

def accumulateInterest (stake : Nat) (rate : Decimal) (timeElapsed : Nat) :
    Outcome StdError Nat := do
  let appliedRate ← rate.checkedMul (← Decimal.fromRatio timeElapsed secondsPerYear)
  Decimal.mulUint stake appliedRate

/-- The rate of each delegate and what is delegated to it, and the sum of the latter. -/
def commissionRates (s : State) (delegatedTo : List Delegation) :
    Outcome StdError (List (Decimal × Nat) × Nat) :=
  delegatedTo.foldlM (fun (acc : List (Decimal × Nat) × Nat) delegation => do
    let info ← s.loadDelegations delegation.delegate
    let delegatedToSum ← totalDelegations
      (delegatedTo.filter fun listed => listed.delegate = delegation.delegate)
    let total ← Uint128.add acc.2 delegatedToSum
    pure (acc.1 ++ [(info.commission, delegatedToSum)], total)) ([], 0)

/-- `get_delegation_commission`: the part of a deposit that its owner's delegates take, and the
    part that the owner gets for what is delegated to it. -/
def getDelegationCommission (s : State) (delegated delegatedTo : List Delegation)
    (totalRewardingStake : Nat) (userCommissionRate : Decimal) :
    Outcome StdError (Decimal × Decimal) :=
  if totalRewardingStake = 0 ∨ (delegated = [] ∧ delegatedTo = []) then
    pure (Decimal.zero, Decimal.zero)
  else do
    let (rates, totalDelegatedTo) ← commissionRates s delegatedTo
    let commissionRate ← rates.foldlM (fun weighted entry => do
      Decimal.add weighted
        (← Decimal.mul entry.1 (← Decimal.fromRatio entry.2 totalDelegatedTo))) Decimal.zero
    let totalDelegatedRatio :=
      Decimal.min (← Decimal.fromRatio totalDelegatedTo totalRewardingStake) Decimal.one
    let subtraction ← decimalMultiplication totalDelegatedRatio commissionRate
    let totalDelegated ← totalDelegations delegated
    let addition ← decimalMultiplication
      (← Decimal.fromRatio totalDelegated totalRewardingStake) userCommissionRate
    pure (subtraction, addition)

/-- A claim added to the one for the same asset, or listed at the end. -/
def addClaim (claimables : List Asset) (claim : Asset) : Outcome StdError (List Asset) :=
  match claimables.findIdx? fun asset => asset.info = claim.info with
  | some i => do
      let asset ← Outcome.index claimables i
      let amount ← Uint128.add asset.amount claim.amount
      Outcome.setIndex claimables i { asset with amount := amount }
  | none => pure (claimables ++ [claim])

/-- Whether a deposit earns from an event: it happened after the deposit was last paid. -/
def Experienced (blockTime : Nat) (deposit : StakeDeposit) (event : FeeEvent) : Prop :=
  deposit.paidUntil < event.timeOfEvent ∧ event.timeOfEvent ≤ blockTime

instance (blockTime : Nat) (deposit : StakeDeposit) (event : FeeEvent) :
    Decidable (Experienced blockTime deposit event) :=
  inferInstanceAs (Decidable (_ ∧ _))

/-- The amount of a deposit that earns: without the subtraction and with the addition. -/
def commissioned (amount : Nat) (subtraction addition : Decimal) : Outcome StdError Nat := do
  let kept ← (if Decimal.zero < subtraction then do
      let product ← decimalMultiplication (← Decimal.sub Decimal.one subtraction)
        (← Decimal.fromRatio amount 1)
      pure product.toUintFloor
    else pure amount)
  if Decimal.zero < addition then do
    let product ← decimalMultiplication (← Decimal.add Decimal.one addition)
      (← Decimal.fromRatio kept 1)
    pure product.toUintFloor
  else pure kept

def getDepositClaimables (s : State) (config : Config) (incentiveSchedule : StakeDistributionLog)
    (env : Env) (feeEvents : List FeeEvent) (deposit : StakeDeposit)
    (delegated delegatedTo : List Delegation) (totalRewardingStake : Nat)
    (userCommissionRate : Decimal) : Outcome StdError (List Asset × Nat) := do
  let eventsExperienced := feeEvents.filter fun event => Experienced env.blockTime deposit event
  let accruable (delegation : Delegation) : Bool := decide (delegation.paidUntil < env.blockTime)
  let (subtraction, addition) ← getDelegationCommission s (delegated.filter accruable)
    (delegatedTo.filter accruable) totalRewardingStake userCommissionRate
  let amount ← commissioned deposit.amount subtraction addition
  let claimables ← eventsExperienced.foldlM (fun claimables event => do
    addClaim claimables ⟨event.fee.info, ← Decimal.mulUint amount event.fee.amount⟩) []
  let rateDuration ← Uint64.mul incentiveSchedule.ownershipDistribution.duration secondsPerDay
  let sinceStart ← subUint env.blockTime incentiveSchedule.startTime
  let rate := if rateDuration < sinceStart then Decimal.zero else config.incentiveSchedule.rate
  if rate.isZero = false then do
    let timeElapsed ← subUint env.blockTime deposit.paidUntil
    let interest ← accumulateInterest amount rate timeElapsed
    pure (claimables, interest)
  else pure (claimables, 0)

def addDepositClaimables (s : State) (config : Config) (incentiveSchedule : StakeDistributionLog)
    (env : Env) (feeEvents : List FeeEvent) (delegatedTo delegated : List Delegation)
    (totalRewardingStake : Nat) (userCommissionRate : Decimal) (acc : List Asset × Nat)
    (deposit : StakeDeposit) : Outcome StdError (List Asset × Nat) := do
  let (depositClaimables, depositInterest) ← getDepositClaimables s config incentiveSchedule env
    feeEvents deposit delegated delegatedTo totalRewardingStake userCommissionRate
  let accruedInterest ← Uint128.add acc.2 depositInterest
  let claimables ← depositClaimables.foldlM addClaim acc.1
  pure (claimables, accruedInterest)

/-! ## Claims -/

/-- The first delegation of a list to or from a user, accrued now. -/
def accrueFirst (user : Addr) (blockTime : Nat) (delegations : List Delegation) :
    Outcome StdError (List Delegation) :=
  match delegations.findIdx? fun delegation => delegation.delegate = user with
  | some i => do
      let delegation ← Outcome.index delegations i
      Outcome.setIndex delegations i { delegation with lastAccrued := some blockTime }
  | none => pure delegations

/-- A coin added to the one of the same denomination, or listed at the end. -/
def addCoin (claims : List Coin) (coin : Coin) : Outcome StdError (List Coin) :=
  match claims.findIdx? fun claim => claim.denom = coin.denom with
  | some i => do
      let claim ← Outcome.index claims i
      let amount ← Uint128.add claim.amount coin.amount
      Outcome.setIndex claims i { claim with amount := amount }
  | none => pure (claims ++ [coin])

/-- The update of `DELEGATE_CLAIMS` in `get_user_claimables`. -/
def addDelegateClaims (delegate : Addr) (claims : List Coin) (interest : Nat) (s : State) :
    Outcome StdError State :=
  match s.delegateClaims.lookup delegate with
  | some (listed, booked) => do
      let listed ← claims.foldlM addCoin listed
      let booked ← Uint128.add booked interest
      pure { s with delegateClaims := s.delegateClaims.insert delegate (listed, booked) }
  | none => pure { s with delegateClaims := s.delegateClaims.insert delegate (claims, interest) }

/-- `DELEGATIONS.update`, which fails for a user without an entry. -/
def updateDelegations (user : Addr) (f : DelegationInfo → Outcome StdError DelegationInfo)
    (s : State) : Outcome StdError State := do
  let info ← Outcome.ofOption (s.delegations.lookup user) (.genericErr "Delegate not found")
  let info ← f info
  pure (s.saveDelegations user info)

/-- One delegate in the loop of `get_user_claimables`: both sides of the delegation are accrued,
    and what the delegate's commission of it earned is booked for the delegate. -/
def claimForDelegate (env : Env) (user : Addr) (config : Config)
    (incentiveSchedule : StakeDistributionLog) (feeEvents : List FeeEvent) (s : State)
    (delegate : Delegation) : Outcome StdError State := do
  let info ← s.loadDelegations delegate.delegate
  let s ← updateDelegations delegate.delegate (fun info => do
    let delegated ← accrueFirst user env.blockTime info.delegated
    pure { info with delegated := delegated }) s
  let s ← updateDelegations user (fun info => do
    let delegatedTo ← accrueFirst delegate.delegate env.blockTime info.delegatedTo
    pure { info with delegatedTo := delegatedTo }) s
  let share ← Outcome.recover
    (decimalMultiplication (← Decimal.fromRatio delegate.amount 1) info.commission) Decimal.zero
  let delegateCommission := share.toUintFloor
  let tempDeposit : StakeDeposit :=
    ⟨user, delegateCommission, delegate.timeOfDelegation, none, delegate.lastAccrued⟩
  let (claimables, interest) ← getDepositClaimables s config incentiveSchedule env feeEvents
    tempDeposit [] [] delegateCommission Decimal.zero
  let coins := claimables.filterMap fun asset => (assetToCoin asset).toOption
  addDelegateClaims delegate.delegate coins interest s

/-- The earliest stake time of deposits, or a time if there are none. -/
def earliestStakeTime (blockTime : Nat) (deposits : List StakeDeposit) : Nat :=
  ((deposits.map StakeDeposit.stakeTime).min?).getD blockTime

/-- `get_user_claimables` of a user with deposits. -/
def claimDeposits (env : Env) (user : Addr) (deposits : List StakeDeposit) (s : State) :
    Outcome StdError (State × List Asset × Nat) := do
  let info := s.delegationsOr user Decimal.zero
  let returning := deposits.filter fun deposit => deposit.unstakeStartTime.isSome
  let staked := deposits.filter fun deposit => deposit.unstakeStartTime.isNone
  let totalRewardingStake ← totalStake staked
  let (claimables, accruedInterest) ← staked.foldlM
    (addDepositClaimables s s.config s.incentiveScheduling env s.feeEvents info.delegatedTo
      info.delegated totalRewardingStake info.commission) ([], 0)
  let condensed : StakeDeposit :=
    ⟨user, totalRewardingStake, earliestStakeTime env.blockTime staked,
    none, some env.blockTime⟩
  let s := s.saveStaked user (returning ++ [condensed])
  if info.delegatedTo = [] then pure (s, claimables, accruedInterest)
  else do
    let s ← info.delegatedTo.foldlM
      (claimForDelegate env user s.config s.incentiveScheduling s.feeEvents) s
    pure (s, claimables.filter fun claim => claim.amount ≠ 0, accruedInterest)

def vestingStake (s : State) : Outcome StdError Nat := do
  let total ← decimalMultiplication (← Decimal.fromRatio s.stakingTotals.vestingContract 1)
    s.config.vestingRevMultiplier
  pure total.toUintFloor

/-- `get_user_claimables` of the vesting contract. -/
def claimVesting (env : Env) (user : Addr) (s : State) :
    Outcome StdError (State × List Asset × Nat) := do
  let total ← vestingStake s
  let tempDeposit : StakeDeposit := ⟨user, total, s.vestingStakeTime, none, none⟩
  let config := match s.vestingRevMultiplier with
    | some multiplier => { s.config with vestingRevMultiplier := multiplier }
    | none => s.config
  let s' : State := { s with config := config, vestingStakeTime := env.blockTime }
  let (claims, _) ← getDepositClaimables s' config s.incentiveScheduling env s.feeEvents tempDeposit
    [] [] total Decimal.zero
  pure (s', claims.filter fun claim => claim.amount ≠ 0, 0)

/-- `get_user_claimables`: the claims and the interest of a user, which are taken as paid. -/
def getUserClaimables (env : Env) (user : Addr) (s : State) :
    Outcome StdError (State × List Asset × Nat) :=
  let deposits := (s.staked.lookup user).getD []
  if deposits ≠ [] then claimDeposits env user deposits s
  else if s.config.vestingContract = some user then claimVesting env user s
  else pure (s, [], 0)

/-! ## Payment -/

def addStakingDeposit (env : Env) (config : Config) (staker : Addr) (amount : Nat) (s : State) :
    Outcome StdError State := do
  let deposits := (s.staked.lookup staker).getD []
  let s := s.saveStaked staker (deposits ++ [⟨staker, amount, env.blockTime, none, none⟩])
  let totals ← (if config.vestingContract = some staker then do
      pure { s.stakingTotals with
        vestingContract := ← Uint128.add s.stakingTotals.vestingContract amount }
    else do
      pure { s.stakingTotals with stakers := ← Uint128.add s.stakingTotals.stakers amount })
  pure { s with stakingTotals := totals }

def claimCoins (claimables : List Asset) : Outcome StdError (List Coin) :=
  claimables.mapM fun asset =>
    match asset.info with
    | .token _ => Outcome.fail (.genericErr "Non-native token unclaimable")
    | .nativeToken _ => assetToCoin asset

/-- The coins that are sent: those of some amount, by denomination, that the contract has a
    balance of. -/
def sendable (balances : List Coin) (coins : List Coin) : List Coin :=
  ((coins.filter fun coin => coin.amount ≠ 0).insertionSort fun a b => a.denom ≤ b.denom).filter
    fun coin => (balances.find? fun balance => balance.denom = coin.denom).isSome

/-- `create_rewards_msgs`: the claims, and those booked for the user, are sent, and the interest is
    staked. -/
def createRewardsMsgs (deps : Deps) (env : Env) (config : Config) (claimables : List Asset)
    (accruedInterest : Nat) (user : String) (nativeClaims : List Coin) (s : State) :
    Outcome StdError (State × List (CosmosMsg OutMsg)) := do
  let coins ← claimCoins claimables
  let staker ← addrValidate deps.addrValid user
  let (s, accruedInterest, nativeClaims) ← (match s.delegateClaims.lookup staker with
    | some (claims, interest) => do
        let accrued ← Uint128.add accruedInterest interest
        pure ({ s with delegateClaims := s.delegateClaims.erase staker }, accrued,
          nativeClaims ++ coins ++ claims)
    | none => pure (s, accruedInterest, nativeClaims ++ coins))
  let (s, msgs) ← (if accruedInterest ≠ 0 then do
      let s ← addStakingDeposit env config staker accruedInterest s
      let proxy ← Outcome.unwrap config.osmosisProxy
      pure (s, [.execute proxy
        (.mintTokens config.mbrnDenom accruedInterest env.contractAddress) []])
    else pure (s, []))
  if nativeClaims = [] then pure (s, msgs)
  else do
    let balances ← Outcome.ofExcept (deps.allBalances env.contractAddress)
    let sent := sendable balances nativeClaims
    pure (s, if sent = [] then msgs else msgs ++ [.bankSend user sent])

end Membrane.Staking
