import Membrane.StabilityPool.Distribution
import Membrane.StabilityPool.Withdrawal

/-!
# The stability pool

The handlers of `contracts/stability-pool`: debt tokens are deposited for liquidations,
earn incentives, and are unstaked before they are withdrawn. A query tells a user how much
is liquidated before its deposits are.
-/

namespace Membrane.StabilityPool

structure UpdateConfig where
  owner : Option String
  incentiveRate : Option Decimal
  maxIncentives : Option Nat
  unstakingPeriod : Option Nat
  minimumDepositAmount : Option Nat
  osmosisProxy : Option String
  positionsContract : Option String
  oracleContract : Option String
  mbrnDenom : Option String

inductive ExecuteMsg where
  | updateConfig (update : UpdateConfig)
  | deposit (user : Option String)
  | withdraw (amount : Nat)
  | restake (restakeAmount : Decimal)
  | claimRewards
  | liquidate (liqAmount : Decimal)
  | distribute (distributionAssets : List Asset) (distributionAssetRatios : List Decimal)
      (distributeFor : Nat)
  | repay (userInfo : UserInfo) (repayment : Asset)

structure InstantiateMsg where
  owner : Option String
  assetPool : AssetPool
  incentiveRate : Option Decimal
  maxIncentives : Option Nat
  minimumDepositAmount : Nat
  osmosisProxy : String
  positionsContract : String
  oracleContract : String
  mbrnDenom : String

def instantiate (addrValid : String → Bool) (info : MessageInfo) (msg : InstantiateMsg) :
    Result State := do
  let osmosisProxy ← liftStd (addrValidate addrValid msg.osmosisProxy)
  let positionsContract ← liftStd (addrValidate addrValid msg.positionsContract)
  let oracleContract ← liftStd (addrValidate addrValid msg.oracleContract)
  let owner ← (match msg.owner with
    | some owner => liftStd (addrValidate addrValid owner)
    | none => pure info.sender)
  pure {
    config := {
      owner := owner
      incentiveRate := msg.incentiveRate.getD (Decimal.percent 9)
      maxIncentives := msg.maxIncentives.getD 10000000000000
      unstakingPeriod := 1
      minimumDepositAmount := msg.minimumDepositAmount
      mbrnDenom := msg.mbrnDenom
      osmosisProxy := osmosisProxy
      positionsContract := positionsContract
      oracleContract := oracleContract }
    asset := { msg.assetPool with deposits := [] }
    repaidAmount := 0
    incentives := 0
    users := ∅
    ownershipTransfer := none }

/-! ## Configuration -/

/-- An address of the configuration, or the one it is replaced with. -/
def setAddr (addrValid : String → Bool) (update : Option String) (addr : Addr) : Result Addr :=
  match update with
  | some text => liftStd (addrValidate addrValid text)
  | none => pure addr

/-- A value of the configuration, or the one it is replaced with, which must be in range. -/
def setInRange {α : Type} (update : Option α) (outside : α → Bool) (message : String) (value : α) :
    Result α :=
  match update with
  | some new => do
      Outcome.guardErr (outside new = true) (.customError message)
      pure new
  | none => pure value

def updateConfig (addrValid : String → Bool) (info : MessageInfo) (update : UpdateConfig)
    (s : State) : Result (State × List (CosmosMsg OutMsg)) := do
  let owner ← (if info.sender ≠ s.config.owner then do
      let pending ← Outcome.ofOption s.ownershipTransfer
        (.std (.notFound "cosmwasm_std::addresses::Addr"))
      Outcome.guardErr (info.sender ≠ pending) .unauthorized
      pure info.sender
    else pure s.config.owner)
  let ownershipTransfer ← (match update.owner with
    | some addr => do pure (some (← liftStd (addrValidate addrValid addr)))
    | none => pure s.ownershipTransfer)
  let osmosisProxy ← setAddr addrValid update.osmosisProxy s.config.osmosisProxy
  let positionsContract ← setAddr addrValid update.positionsContract s.config.positionsContract
  let oracleContract ← setAddr addrValid update.oracleContract s.config.oracleContract
  let incentiveRate ← setInRange update.incentiveRate
    (fun rate => decide (Decimal.percent 20 < rate)) "Incentive rate cannot be greater than 20%"
    s.config.incentiveRate
  let maxIncentives ← setInRange update.maxIncentives
    (fun max => decide (max < 1000000) || decide (10000000 < max))
    "Max incentives must be between 1M and 10M" s.config.maxIncentives
  let unstakingPeriod ← setInRange update.unstakingPeriod
    (fun days => decide (days < 1) || decide (7 < days))
    "Unstaking period must be between 1 and 7 days" s.config.unstakingPeriod
  pure ({ s with
    config := {
      owner := owner
      incentiveRate := incentiveRate
      maxIncentives := maxIncentives
      unstakingPeriod := unstakingPeriod
      minimumDepositAmount := update.minimumDepositAmount.getD s.config.minimumDepositAmount
      mbrnDenom := update.mbrnDenom.getD s.config.mbrnDenom
      osmosisProxy := osmosisProxy
      positionsContract := positionsContract
      oracleContract := oracleContract }
    ownershipTransfer := ownershipTransfer }, [])

/-! ## Deposits -/

def assertSentNativeTokenBalance (denom : String) (info : MessageInfo) : Outcome StdError Asset :=
  match info.funds.find? fun coin => coin.denom == denom with
  | some coin =>
    if 0 < coin.amount then pure ⟨.nativeToken denom, coin.amount⟩
    else Outcome.fail (.genericErr "You gave me nothing to deposit")
  | none => Outcome.fail
      (.genericErr "Incorrect denomination, sent asset denom and asset.info.denom differ")

/-- `validate_assets` of one asset, against the asset of the pool. -/
def validateAssets (s : State) (denom : String) (info : MessageInfo) :
    Outcome StdError (List Asset) :=
  if s.asset.creditAsset.info.equal (.nativeToken denom) then
    Outcome.recover (do pure [← assertSentNativeTokenBalance denom info]) []
  else pure []

def deposit (addrValid : String → Bool) (blockTime : Nat) (info : MessageInfo)
    (positionOwner : Option String) (asset : Asset) (s : State) :
    Result (State × List (CosmosMsg OutMsg)) := do
  Outcome.guardErr (asset.amount < s.config.minimumDepositAmount)
    (.minimumDeposit s.config.minimumDepositAmount)
  let validOwnerAddr ← setAddr addrValid positionOwner info.sender
  let amount ← Decimal.fromRatio asset.amount 1
  Outcome.guardErr (s.asset.creditAsset.info.equal asset.info = false) .invalidAsset
  let total ← Uint128.add s.asset.creditAsset.amount asset.amount
  pure ({ s with asset := { s.asset with
    creditAsset := { s.asset.creditAsset with amount := total }
    deposits := s.asset.deposits ++ [⟨validOwnerAddr, amount, blockTime, blockTime, none⟩] } }, [])

/-- `ExecuteMsg::Deposit`. -/
def executeDeposit (addrValid : String → Bool) (blockTime : Nat) (info : MessageInfo)
    (user : Option String) (s : State) : Result (State × List (CosmosMsg OutMsg)) := do
  let sent ← Outcome.index info.funds 0
  let validAssets ← liftStd (validateAssets s sent.denom info)
  Outcome.guardErr (validAssets = [] ∨ 1 < info.funds.length)
    (.customError "No valid asset or more than one asset sent")
  let asset ← Outcome.index validAssets 0
  deposit addrValid blockTime info user asset s

def totalUserDeposits (user : Addr) (deposits : List Deposit) : Outcome StdError Decimal :=
  Decimal.sum ((deposits.filter fun deposit => deposit.user = user).map Deposit.amount)

def withdrawalMsg (asset : Asset) (recipient : Addr) : Outcome StdError (CosmosMsg OutMsg) :=
  match asset.info with
  | .nativeToken denom => pure (.bankSend recipient [⟨denom, asset.amount⟩])
  | .token _ => Outcome.fail (.genericErr "Native assets only")

def assetToCoin (asset : Asset) : Outcome StdError Coin :=
  match asset.info with
  | .nativeToken denom => pure ⟨denom, asset.amount⟩
  | .token _ => Outcome.fail (.genericErr "CW20 Assets can't be converted into Coin")

/-- The last check of `withdraw`: what is paid is no more than the user has, nor than asked
    for with a rest below the minimum, and the deposits shrank by it. -/
def withdrawableValid (config : Config) (amount withdrawable : Nat) (total newTotal : Decimal) :
    Outcome StdError Bool :=
  if total.toUintFloor < withdrawable then pure false
  else do
    let most ← Uint128.add amount config.minimumDepositAmount
    if most < withdrawable then pure false
    else do
      let kept ← Uint128.add withdrawable newTotal.toUintFloor
      pure (decide (kept = total.toUintFloor))

def withdraw (blockTime : Nat) (info : MessageInfo) (amount : Nat) (s : State) :
    Result (State × List (CosmosMsg OutMsg)) := do
  let total ← liftStd (totalUserDeposits info.sender s.asset.deposits)
  let asked ← Decimal.fromRatio amount 1
  Outcome.guardErr (total < asked) .invalidWithdrawal
  let (withdrawable, s') ← withdrawalFromState blockTime info.sender asked
    (decide (s.config.unstakingPeriod = 0)) s
  let newTotal ← liftStd (totalUserDeposits info.sender s'.asset.deposits)
  let valid ← liftStd (withdrawableValid s.config amount withdrawable total newTotal)
  Outcome.guardErr (valid = false) (.customError "Invalid withdrawable amount")
  if withdrawable = 0 then pure (s', [])
  else do
    let message ← liftStd
      (withdrawalMsg { s.asset.creditAsset with amount := withdrawable } info.sender)
    pure (s', [message])

/-- What the loop of `restake` carries: what is still to restake, the incentives of the call
    and an error of computing them, the total of incentives and the deposits so far. -/
structure Restake where
  restakeAmount : Decimal
  incentives : Nat
  error : Option StdError
  total : Nat
  deposits : List Deposit

/-- One deposit in the loop of `restake`. -/
def restakeDeposit (blockTime : Nat) (config : Config) (user : Addr) (acc : Restake)
    (deposit : Deposit) : Outcome StdError Restake :=
  if deposit.user = user ∧ acc.restakeAmount.isZero = false ∧ deposit.unstakeTime.isSome then do
    let stake ← Decimal.mulUint 1 deposit.amount
    let (incentives, error, total, accrued) ←
      (match ← Outcome.attempt (accrueIncentives blockTime config stake deposit acc.total) with
      | .ok (incentives, accrued, total) => pure (incentives, acc.error, total, accrued)
      | .error error => pure (0, some error, acc.total, { deposit with lastAccrued := blockTime }))
    let incentives ← Uint128.add acc.incentives incentives
    let rest ←
      (if acc.restakeAmount ≤ accrued.amount then pure Decimal.zero
      else Decimal.sub acc.restakeAmount accrued.amount)
    pure ⟨rest, incentives, error, total,
      acc.deposits ++ [{ accrued with unstakeTime := none, depositTime := blockTime }]⟩
  else pure { acc with deposits := acc.deposits ++ [deposit] }

def restake (blockTime : Nat) (info : MessageInfo) (restakeAmount : Decimal) (s : State) :
    Result (State × List (CosmosMsg OutMsg)) := do
  let done ← liftStd (s.asset.deposits.foldlM (restakeDeposit blockTime s.config info.sender)
    ⟨restakeAmount, 0, none, s.incentives, []⟩)
  match done.error with
  | some error => Outcome.fail (.customError error.toText)
  | none => do
      let users ← (if done.incentives = 0 then pure s.users
        else liftStd (addClaim info.sender ⟨s.config.mbrnDenom, done.incentives⟩ s.users))
      pure ({ s with
        asset := { s.asset with deposits := done.deposits }
        incentives := done.total
        users := users }, [])

/-! ## Liquidations -/

def liquidate (info : MessageInfo) (creditAmount : Decimal) (s : State) :
    Result (State × List (CosmosMsg OutMsg)) := do
  Outcome.guardErr (info.sender ≠ s.config.positionsContract) .unauthorized
  let poolAmount ← Decimal.fromRatio s.asset.creditAsset.amount 1
  let repay ←
    (if poolAmount < creditAmount then pure s.asset.creditAsset.amount
    else Decimal.mulUint 1 creditAmount)
  let repaidAmount ← Uint128.add s.repaidAmount repay
  let coin ← liftStd (assetToCoin { s.asset.creditAsset with amount := repay })
  let amount ← subUint s.asset.creditAsset.amount repay
  pure ({ s with
    repaidAmount := repaidAmount
    asset := { s.asset with creditAsset := { s.asset.creditAsset with amount := amount } } },
    [.execute s.config.positionsContract .liqRepay [coin]])

def repay (addrValid : String → Bool) (blockTime : Nat) (info : MessageInfo) (userInfo : UserInfo)
    (repayment : Asset) (s : State) : Result (State × List (CosmosMsg OutMsg)) := do
  Outcome.guardErr (info.sender ≠ s.config.positionsContract) .unauthorized
  Outcome.guardErr (s.asset.creditAsset.info.equal repayment.info = false) .invalidAsset
  let positionOwner ← liftStd (addrValidate addrValid userInfo.positionOwner)
  let total ← liftStd (totalUserDeposits positionOwner s.asset.deposits)
  let asked ← Decimal.fromRatio repayment.amount 1
  Outcome.guardErr (total < asked) .invalidWithdrawal
  Outcome.guardErr (total.isZero = true) .invalidWithdrawal
  let (withdrawable, s') ← withdrawalFromState blockTime positionOwner asked true s
  let coin ← liftStd
    (assetToCoin { repayment with amount := min withdrawable repayment.amount })
  pure (s', [.execute s.config.positionsContract (.repay userInfo.positionId
    (some userInfo.positionOwner) (some userInfo.positionOwner)) [coin]])

/-! ## Claims -/

/-- `user_claims_msgs`: incentives are minted, other coins sent, and the claims removed. -/
def userClaimsMsgs (info : MessageInfo) (s : State) : Result (State × List (CosmosMsg OutMsg)) := do
  let claims ← Outcome.ofOption (s.users.lookup info.sender)
    (.std (.notFound "membrane::types::User"))
  let (mbrn, native) := claims.partition fun coin => coin.denom == s.config.mbrnDenom
  let mints := mbrn.map fun coin => CosmosMsg.execute s.config.osmosisProxy
    (.mintTokens s.config.mbrnDenom coin.amount info.sender) []
  pure ({ s with users := s.users.erase info.sender },
    mints ++ if native = [] then [] else [.bankSend info.sender native])

def claim (blockTime : Nat) (info : MessageInfo) (s : State) :
    Result (State × List (CosmosMsg OutMsg)) := do
  let (incentives, s) ← liftStd (getUserIncentives blockTime info.sender s)
  let users ← liftStd
    (addToUserClaims info.sender (.nativeToken s.config.mbrnDenom) incentives s.users)
  userClaimsMsgs info { s with users := users }

def execute (addrValid : String → Bool) (env : Env) (info : MessageInfo) (msg : ExecuteMsg)
    (s : State) : Result (State × List (CosmosMsg OutMsg)) :=
  match msg with
  | .updateConfig update => updateConfig addrValid info update s
  | .deposit user => executeDeposit addrValid env.blockTime info user s
  | .withdraw amount => withdraw env.blockTime info amount s
  | .restake restakeAmount => restake env.blockTime info restakeAmount s
  | .claimRewards => claim env.blockTime info s
  | .liquidate liqAmount => liquidate info liqAmount s
  | .distribute distributionAssets distributionAssetRatios distributeFor =>
    distributeFunds env.blockTime info distributionAssets distributionAssetRatios distributeFor s
  | .repay userInfo repayment => repay addrValid env.blockTime info userInfo repayment s

/-! ## Queries -/

/-- `DepositPositionResponse`. -/
structure DepositPosition where
  deposit : Deposit
  capitalAhead : Decimal
  deriving DecidableEq, Repr

/-- One deposit in the loop of `query_capital_ahead_of_deposits`. -/
def addPosition (user : Addr) (acc : Decimal × List DepositPosition) (deposit : Deposit) :
    Outcome StdError (Decimal × List DepositPosition) := do
  let resp := if deposit.user = user then acc.2 ++ [⟨deposit, acc.1⟩] else acc.2
  let capitalAhead ← Decimal.add acc.1 deposit.amount
  pure (capitalAhead, resp)

/-- `query_capital_ahead_of_deposits`, of a valid address. -/
def queryCapitalAheadOfDeposits (user : Addr) (s : State) :
    Outcome StdError (List DepositPosition) := do
  let (_, resp) ← s.asset.deposits.foldlM (addPosition user) (Decimal.zero, [])
  pure resp

/-! ## Calls -/

/-- One call from outside: the texts that the chain takes for addresses, its block, its
    sender and its message. -/
structure Call where
  addrValid : String → Bool
  env : Env
  info : MessageInfo
  msg : ExecuteMsg

end Membrane.StabilityPool
