import Membrane.Staking.Delegations

/-!
# The staking contract

The execute messages of `contracts/staking/src/contract.rs`, without the declarations of
delegates, and the query of a user's rewards.
-/

namespace Membrane.Staking

/-! ## Configuration -/

structure InstantiateMsg where
  owner : Option String
  positionsContract : Option String
  auctionContract : Option String
  vestingContract : Option String
  governanceContract : Option String
  osmosisProxy : Option String
  incentiveSchedule : Option StakeDistribution
  unstakingPeriod : Option Nat
  mbrnDenom : String
  deriving DecidableEq, Repr

def validateOptional (addrValid : String → Bool) (addr : Option String) (current : Option Addr) :
    Result (Option Addr) :=
  match addr with
  | some addr => do pure (some (← liftStd (addrValidate addrValid addr)))
  | none => pure current

def instantiate (addrValid : String → Bool) (env : Env) (info : MessageInfo)
    (msg : InstantiateMsg) :
    Result State := do
  let owner ← (match msg.owner with
    | some owner => liftStd (addrValidate addrValid owner)
    | none => pure info.sender)
  let incentiveSchedule := msg.incentiveSchedule.getD ⟨Decimal.percent 9, 240⟩
  let vestingContract ← validateOptional addrValid msg.vestingContract none
  let positionsContract ← validateOptional addrValid msg.positionsContract none
  let auctionContract ← validateOptional addrValid msg.auctionContract none
  let governanceContract ← validateOptional addrValid msg.governanceContract none
  let osmosisProxy ← validateOptional addrValid msg.osmosisProxy none
  pure {
    config := {
      owner := owner
      mbrnDenom := msg.mbrnDenom
      incentiveSchedule := incentiveSchedule
      unstakingPeriod := msg.unstakingPeriod.getD 4
      maxCommissionRate := Decimal.percent 10
      keepRawCdt := true
      vestingRevMultiplier := Decimal.percent 20
      positionsContract := positionsContract
      auctionContract := auctionContract
      vestingContract := vestingContract
      governanceContract := governanceContract
      osmosisProxy := osmosisProxy }
    stakingTotals := ⟨0, 0⟩
    staked := ∅
    delegations := ∅
    delegateClaims := ∅
    feeEvents := []
    incentiveScheduling := ⟨incentiveSchedule, env.blockTime⟩
    vestingStakeTime := env.blockTime
    vestingRevMultiplier := none
    ownershipTransfer := none }

/-- The arguments of `ExecuteMsg::UpdateConfig`. -/
structure UpdateConfig where
  owner : Option String
  positionsContract : Option String
  auctionContract : Option String
  vestingContract : Option String
  governanceContract : Option String
  osmosisProxy : Option String
  mbrnDenom : Option String
  incentiveSchedule : Option StakeDistribution
  unstakingPeriod : Option Nat
  maxCommissionRate : Option Decimal
  keepRawCdt : Option Bool
  vestingRevMultiplier : Option Decimal
  deriving DecidableEq, Repr

def updateConfig (addrValid : String → Bool) (env : Env) (info : MessageInfo)
    (update : UpdateConfig)
    (s : State) : Result (State × List (CosmosMsg OutMsg)) := do
  let owner ← (if info.sender ≠ s.config.owner then do
      let transfer ← liftStd
        (Outcome.ofOption s.ownershipTransfer (.notFound "cosmwasm_std::addresses::Addr"))
      Outcome.guardErr (info.sender ≠ transfer) .unauthorized
      pure info.sender
    else pure s.config.owner)
  let ownershipTransfer ← validateOptional addrValid update.owner s.ownershipTransfer
  let vestingContract ← validateOptional addrValid update.vestingContract s.config.vestingContract
  let positionsContract ←
    validateOptional addrValid update.positionsContract s.config.positionsContract
  let auctionContract ← validateOptional addrValid update.auctionContract s.config.auctionContract
  let governanceContract ←
    validateOptional addrValid update.governanceContract s.config.governanceContract
  let osmosisProxy ← validateOptional addrValid update.osmosisProxy s.config.osmosisProxy
  pure ({ s with
    config := {
      owner := owner
      mbrnDenom := update.mbrnDenom.getD s.config.mbrnDenom
      incentiveSchedule := update.incentiveSchedule.getD s.config.incentiveSchedule
      unstakingPeriod := update.unstakingPeriod.getD s.config.unstakingPeriod
      maxCommissionRate := update.maxCommissionRate.getD s.config.maxCommissionRate
      keepRawCdt := update.keepRawCdt.getD s.config.keepRawCdt
      vestingRevMultiplier := s.config.vestingRevMultiplier
      positionsContract := positionsContract
      auctionContract := auctionContract
      vestingContract := vestingContract
      governanceContract := governanceContract
      osmosisProxy := osmosisProxy }
    incentiveScheduling := match update.incentiveSchedule with
      | some incentiveSchedule => ⟨incentiveSchedule, env.blockTime⟩
      | none => s.incentiveScheduling
    vestingRevMultiplier := match update.vestingRevMultiplier with
      | some multiplier => some multiplier
      | none => s.vestingRevMultiplier
    ownershipTransfer := ownershipTransfer }, [])

/-! ## Stake -/

def assertSentNativeTokenBalance (denom : String) (info : MessageInfo) : Outcome StdError Asset :=
  match info.funds.find? fun coin => coin.denom = denom with
  | some coin =>
    if 0 < coin.amount then pure ⟨.nativeToken denom, coin.amount⟩
    else Outcome.fail (.genericErr "You gave me nothing to deposit")
  | none => Outcome.fail
      (.genericErr "Incorrect denomination, sent asset denom and asset.info.denom differ")

/-- The asset that `stake` takes: MBRN only, and one at least unless the contract stakes it. -/
def stakedAsset (env : Env) (info : MessageInfo) (config : Config) : Result Asset :=
  match info.funds with
  | [coin] =>
    if coin.denom = config.mbrnDenom then do
      Outcome.guardErr (info.sender ≠ env.contractAddress ∧ coin.amount < 1000000)
        (.customError "Must stake at least 1 MBRN")
      liftStd (assertSentNativeTokenBalance config.mbrnDenom info)
    else Outcome.fail (.customError "No valid assets")
  | _ => Outcome.fail (.customError "No valid assets")

def stake (deps : Deps) (env : Env) (info : MessageInfo) (user : Option String) (s : State) :
    Result (State × List (CosmosMsg OutMsg)) := do
  let validAsset ← stakedAsset env info s.config
  let validOwnerAddr ← (match user with
    | some user => liftStd (addrValidate deps.addrValid user)
    | none => pure info.sender)
  let s ← liftStd (addStakingDeposit env s.config validOwnerAddr validAsset.amount s)
  pure (s, [])

/-! ## Unstaking -/

def canThisAddrUnstake (deps : Deps) (user : Addr) (config : Config) : Result PUnit := do
  let governance ← Outcome.unwrap config.governanceContract
  let proposalList ← liftStd (Outcome.ofExcept (deps.activeProposals governance 32))
  Outcome.guardErr (∃ proposal ∈ proposalList,
      proposal.submitter = user ∧ proposal.status = .active)
    (.customError "Can't unstake while your proposal is active")
  proposalList.forM fun proposal =>
    Outcome.guardErr
      (((proposal.status = .passed ∧ proposal.messages.isSome) ∨ proposal.status = .active) ∧
        deps.votedFor governance proposal.proposalId user = true)
      (.customError
        ("Can't unstake if the proposal you helped pass hasn't executed its messages " ++
        "yet: " ++ toString proposal.proposalId))

/-- Whether a deposit is unstaking and its time compares with the period as given. -/
def unstakesFor (config : Config) (blockTime : Nat) (compare : Nat → Nat → Bool)
    (deposit : StakeDeposit) : Outcome StdError Bool :=
  match deposit.unstakeStartTime with
  | none => pure false
  | some start => do
      let elapsed ← subUint blockTime start
      let period ← Uint64.mul config.unstakingPeriod secondsPerDay
      pure (compare elapsed period)

/-- What the loop of `withdraw_from_state` carries: the deposits so far, the parts that stay
    staked, and what is still to be unstaked. -/
structure Unstaking where
  deposits : List StakeDeposit
  returning : List StakeDeposit
  withdrawalAmount : Nat

/-- One staked deposit in the loop of `withdraw_from_state`. -/
def unstakeDeposit (blockTime : Nat) (acc : Unstaking) (deposit : StakeDeposit) : Unstaking :=
  if acc.withdrawalAmount ≠ 0 ∧ acc.withdrawalAmount < deposit.amount then
    let deposit := { deposit with lastAccrued := some blockTime }
    let rest : StakeDeposit :=
      { deposit with amount := deposit.amount - acc.withdrawalAmount, unstakeStartTime := none }
    let deposit := { deposit with amount := acc.withdrawalAmount }
    if deposit.unstakeStartTime = none then
      ⟨acc.deposits ++ [{ deposit with unstakeStartTime := some blockTime }],
        acc.returning ++ [rest], 0⟩
    else ⟨acc.deposits ++ [deposit], acc.returning ++ [rest], acc.withdrawalAmount⟩
  else if acc.withdrawalAmount ≠ 0 ∧ deposit.amount ≤ acc.withdrawalAmount then
    if deposit.unstakeStartTime = none then
      ⟨acc.deposits ++
          [{ deposit with unstakeStartTime := some blockTime, lastAccrued := some blockTime }],
        acc.returning, acc.withdrawalAmount - deposit.amount⟩
    else ⟨acc.deposits ++ [{ deposit with lastAccrued := some blockTime }], acc.returning,
      acc.withdrawalAmount⟩
  else ⟨acc.deposits ++ [deposit], acc.returning, acc.withdrawalAmount⟩

/-- `withdraw_from_state`: the claims and the interest of the staker, and what is withdrawn. -/
def withdrawFromState (env : Env) (staker : Addr) (withdrawalAmount : Nat) (s : State) :
    Outcome StdError (State × List Asset × Nat × Nat) := do
  let deposits ← s.loadStaked staker
  let withdrawable ← deposits.filterM
    (unstakesFor s.config env.blockTime fun elapsed period => decide (period ≤ elapsed))
  let totalWithdrawable ← totalStake withdrawable
  let staked := deposits.filter fun deposit => deposit.unstakeStartTime.isNone
  let unstaked := staked.foldl (unstakeDeposit env.blockTime)
    ⟨[], [], withdrawalAmount - totalWithdrawable⟩
  let newDeposits := unstaked.deposits.filter fun deposit => deposit.amount ≠ 0
  if unstaked.withdrawalAmount ≠ 0 then
    Outcome.fail (.genericErr ("Attempting to withdraw " ++ toString unstaked.withdrawalAmount ++
      " MBRN over ( " ++ staker ++ " )'s total currently staked amount"))
  else do
    let unstaking ← deposits.filterM
      (unstakesFor s.config env.blockTime fun elapsed period => decide (elapsed < period))
    -- the claim condenses the deposits, which are then saved as they were before it
    let (s, claimables, accruedInterest) ← getUserClaimables env staker s
    pure (s.saveStaked staker (unstaking ++ (newDeposits ++ unstaked.returning)), claimables,
      accruedInterest, totalWithdrawable)

/-- The subtraction of newly unstaked stake from the totals in `unstake`. -/
def subtractUnstaked (config : Config) (sender : Addr) (amount : Nat) (totals : Totals) :
    Result Totals :=
  if config.vestingContract = some sender then
    match Uint128.checkedSub totals.vestingContract amount with
    | some left => pure { totals with vestingContract := left }
    | none => Outcome.fail (.customError ("Vesting total accounting error. Vesting: " ++
        toString totals.vestingContract ++ ", Withdraw: " ++ toString amount))
  else
    match Uint128.checkedSub totals.stakers amount with
    | some left => pure { totals with stakers := left }
    | none => Outcome.fail (.customError ("Staker total accounting error. Stakers: " ++
        toString totals.stakers ++ ", Withdraw: " ++ toString amount))

/-- A load of a user's stake in `unstake`. -/
def State.userStake (s : State) (user : Addr) : Result (List StakeDeposit) :=
  Outcome.ofOption (s.staked.lookup user) (.customError "User has no stake")

def unstake (deps : Deps) (env : Env) (info : MessageInfo) (mbrnWithdrawAmount : Option Nat)
    (s : State) : Result (State × List (CosmosMsg OutMsg)) := do
  let config := s.config
  canThisAddrUnstake deps info.sender config
  let total ← liftStd (totalStake (← s.userStake info.sender))
  let withdrawAmount := min (mbrnWithdrawAmount.getD total) total
  let (s, claimables, accruedInterest, withdrawableAmount) ← liftStd
    (withdrawFromState env info.sender withdrawAmount s)
  let newTotal ← liftStd (totalStake (← s.userStake info.sender))
  let stray ← (if total < withdrawableAmount then pure true
    else do pure (decide ((← Uint128.add withdrawableAmount newTotal) ≠ total)))
  Outcome.guardErr (stray = true)
    (.customError ("Invalid withdrawable amount: " ++ toString withdrawableAmount))
  let (s, nativeClaims) ← (if withdrawableAmount ≠ 0 then do
      let s ← liftStd (undelegateExcess info.sender total withdrawableAmount s)
      pure (s, [⟨config.mbrnDenom, withdrawableAmount⟩])
    else pure (s, []))
  let (s, claimsMsgs) ← liftStd (createRewardsMsgs deps env config claimables accruedInterest
    info.sender nativeClaims s)
  let totals ← subtractUnstaked config info.sender (withdrawAmount - withdrawableAmount)
    s.stakingTotals
  pure ({ s with stakingTotals := totals }, claimsMsgs)

/-! ## Restaking -/

/-- One deposit in the loop of `restake`: while something is still to be restaked, an unstaking
    deposit is restaked whole. -/
def restakeDeposit (blockTime : Nat) (acc : List StakeDeposit × Nat) (deposit : StakeDeposit) :
    List StakeDeposit × Nat :=
  if acc.2 ≠ 0 ∧ deposit.unstakeStartTime.isSome then
    (acc.1 ++ [{ deposit with unstakeStartTime := none, lastAccrued := some blockTime }],
      if acc.2 ≤ deposit.amount then 0 else acc.2 - deposit.amount)
  else (acc.1 ++ [deposit], acc.2)

def restake (deps : Deps) (env : Env) (info : MessageInfo) (restakeAmount : Nat) (s : State) :
    Result (State × List (CosmosMsg OutMsg)) := do
  let config := s.config
  let deposits ← liftStd (s.loadStaked info.sender)
  let (restaked, left) := deposits.foldl (restakeDeposit env.blockTime) ([], restakeAmount)
  let (s, claimables, accruedInterest) ← liftStd (getUserClaimables env info.sender s)
  let s := s.saveStaked info.sender restaked
  let stakers ← Uint128.add s.stakingTotals.stakers (restakeAmount - left)
  let s := { s with stakingTotals := { s.stakingTotals with stakers := stakers } }
  liftStd (createRewardsMsgs deps env config claimables accruedInterest info.sender [] s)

/-! ## Claiming -/

/-- The messages of `claim_rewards` for the interest. -/
def interestMsgs (deps : Deps) (env : Env) (info : MessageInfo) (config : Config) (proxy : Addr)
    (sendTo : Option String) (restake : Bool) (interest : Nat) :
    Result (List (CosmosMsg OutMsg)) :=
  let mintTo (address : String) : CosmosMsg OutMsg :=
    .execute proxy (.mintTokens config.mbrnDenom interest address) []
  -- the vesting contract gets no interest
  if info.sender ≠ config.vestingContract.getD "" ∧ interest ≠ 0 then
    match sendTo with
    | some sendTo => do
        let recipient ← liftStd (addrValidate deps.addrValid sendTo)
        pure [mintTo recipient]
    | none =>
      if restake then
        pure [mintTo env.contractAddress, .execute env.contractAddress
          (.stake (some info.sender)) [⟨config.mbrnDenom, interest⟩]]
      else pure [mintTo info.sender]
  else pure []

def claimRewards (deps : Deps) (env : Env) (info : MessageInfo) (sendTo : Option String)
    (restake : Bool) (s : State) : Result (State × List (CosmosMsg OutMsg)) := do
  let config := s.config
  let (s, claimables, accruedInterest) ← liftStd (getUserClaimables env info.sender s)
  let recipient ← (match sendTo with
    | some sendTo => liftStd (addrValidate deps.addrValid sendTo)
    | none => pure info.sender)
  let (s, messages) ← liftStd (createRewardsMsgs deps env config claimables 0 recipient [] s)
  match config.osmosisProxy with
  | none => Outcome.fail (.customError "No proxy contract setup")
  | some proxy => do
      let minted ← interestMsgs deps env info config proxy sendTo restake accruedInterest
      let messages := messages ++ minted
      Outcome.guardErr (messages = []) (.customError "Nothing to claim")
      pure (s, messages)

/-! ## Fees -/

/-- The messages of `deposit_fee` that put assets up for auction. -/
def auctionMsgs (info : MessageInfo) (config : Config) (assets : List Asset) :
    Outcome StdError (List (CosmosMsg OutMsg)) :=
  match config.auctionContract with
  | some auctionContract =>
    if info.sender ≠ auctionContract then
      assets.mapM fun asset => do
        pure (.execute auctionContract (.startAuction asset) [← assetToCoin asset])
    else pure []
  | none => pure []

/-- The part of `deposit_fee` that adds an event for each asset, by the amount for each staked
    token. -/
def addFeeEvents (deps : Deps) (env : Env) (feeAssets : List Asset) (s : State) :
    Outcome StdError State := do
  let (totals, counted) ← (match s.config.vestingContract with
    | some vestingContract => do
        let vestingTotal ← getTotalVesting deps vestingContract
        let weighted ← decimalMultiplication (← Decimal.fromRatio vestingTotal 1)
          s.config.vestingRevMultiplier
        pure ({ s.stakingTotals with vestingContract := vestingTotal }, weighted.toUintFloor)
    | none => pure (s.stakingTotals, s.stakingTotals.vestingContract))
  let total ← Uint128.add counted totals.stakers
  let decimalTotal ← Decimal.fromRatio (if total = 0 then 1 else total) 1
  let events ← feeAssets.mapM fun asset => do
    let amount ← decimalDivision (← Decimal.fromRatio asset.amount 1) decimalTotal
    pure (⟨env.blockTime, ⟨asset.info, amount⟩⟩ : FeeEvent)
  pure { s with stakingTotals := totals, feeEvents := s.feeEvents ++ events }

def depositFee (deps : Deps) (env : Env) (info : MessageInfo) (feeAssets : List Asset) (s : State) :
    Outcome StdError (State × List (CosmosMsg OutMsg)) := do
  let cdtDenom ← Outcome.ofExcept (deps.creditAsset (s.config.positionsContract.getD ""))
  let (nonCdtAssets, cdtAssets) :=
    if s.config.keepRawCdt then
      (feeAssets.filter fun asset => asset.info ≠ cdtDenom,
        feeAssets.filter fun asset => asset.info = cdtDenom)
    else (feeAssets, [])
  let messages ← auctionMsgs info s.config nonCdtAssets
  let fromAuction : Bool := s.config.auctionContract = some info.sender ∨
    s.config.auctionContract = none
  if cdtAssets ≠ [] ∨ fromAuction then do
    let s ← addFeeEvents deps env (if fromAuction then feeAssets else cdtAssets) s
    pure (s, messages)
  else pure (s, messages)

/-- `ExecuteMsg::DepositFee`. -/
def executeDepositFee (deps : Deps) (env : Env) (info : MessageInfo) (s : State) :
    Result (State × List (CosmosMsg OutMsg)) := do
  let positionsContract ← Outcome.unwrap s.config.positionsContract
  if info.sender ≠ positionsContract then do
    let auctionContract ← Outcome.unwrap s.config.auctionContract
    Outcome.guardErr (info.sender ≠ auctionContract) .unauthorized
    liftStd (depositFee deps env info
      (info.funds.map fun coin => ⟨.nativeToken coin.denom, coin.amount⟩) s)
  else
    liftStd (depositFee deps env info
      (info.funds.map fun coin => ⟨.nativeToken coin.denom, coin.amount⟩) s)

/-- The stakers in the order the chain goes over them. -/
def stakersInOrder (staked : KeyMap Addr (List StakeDeposit)) : List (List StakeDeposit) :=
  (staked.entries.insertionSort fun a b => a.1 ≤ b.1).map fun entry => entry.2

/-- The earliest time that deposits are paid until, from the first one on. -/
def earliestAccrue (deposits : List StakeDeposit) : Outcome ContractError Nat := do
  let first ← Outcome.index deposits 0
  pure (deposits.foldl (fun earliest deposit =>
    if deposit.paidUntil < earliest then deposit.paidUntil else earliest) first.paidUntil)

def trimFeeEvents (info : MessageInfo) (s : State) : Result (State × List (CosmosMsg OutMsg)) := do
  Outcome.guardErr (info.sender ≠ s.config.owner) .unauthorized
  let earliest ← (stakersInOrder s.staked).foldlM (fun _ deposits => do
    -- each staker's time replaces that of the staker before
    pure (some (← earliestAccrue deposits))) none
  let feeEvents := match earliest with
    | some earliest => s.feeEvents.filter fun event => earliest < event.timeOfEvent
    | none => s.feeEvents
  pure ({ s with feeEvents := feeEvents }, [])

/-! ## Messages -/

/-- `ExecuteMsg`, without `DeclareDelegate`. -/
inductive ExecuteMsg where
  | updateConfig (update : UpdateConfig)
  | stake (user : Option String)
  | unstake (mbrnAmount : Option Nat)
  | restake (mbrnAmount : Nat)
  | claimRewards (sendTo : Option String) (restake : Bool)
  | updateDelegations (update : DelegationUpdate)
  | delegateFluidDelegations (governatorAddr : String) (mbrnAmount : Option Nat)
  | depositFee
  | trimFeeEvents
  deriving DecidableEq, Repr

def execute (deps : Deps) (env : Env) (info : MessageInfo) (msg : ExecuteMsg) (s : State) :
    Result (State × List (CosmosMsg OutMsg)) :=
  match msg with
  | .updateConfig update => updateConfig deps.addrValid env info update s
  | .stake user => stake deps env info user s
  | .unstake mbrnAmount => unstake deps env info mbrnAmount s
  | .restake mbrnAmount => restake deps env info mbrnAmount s
  | .claimRewards sendTo restake => claimRewards deps env info sendTo restake s
  | .updateDelegations update => executeUpdateDelegations deps env info update s
  | .delegateFluidDelegations governatorAddr mbrnAmount =>
    delegateFluidDelegations deps env info governatorAddr mbrnAmount s
  | .depositFee => executeDepositFee deps env info s
  | .trimFeeEvents => trimFeeEvents info s

/-- One call of the contract, with what the chain and the other contracts answer to it. -/
structure Call where
  deps : Deps
  env : Env
  info : MessageInfo
  msg : ExecuteMsg

def Call.exec (s : State) (call : Call) : Option State :=
  match execute call.deps call.env call.info call.msg s with
  | .ok (s', _) => some s'
  | .error _ => none

def Steps (s : State) (call : Call) (s' : State) : Prop := Call.exec s call = some s'

/-- The state of a contract that was just instantiated. -/
def Genesis (s : State) : Prop :=
  ∃ addrValid env info msg, instantiate addrValid env info msg = .ok s

end Membrane.Staking
