import Membrane.StabilityPool.Incentives

/-!
# Distributing a liquidation

`distribute_funds`: which deposits a liquidation used, in the order of their list, and how
the collateral is split among their users.
-/

namespace Membrane.StabilityPool

/-- A deposit that a distribution uses is accrued for `stake`, unless it has been in this
    block; what it earned is added to the user's claims. -/
def accrueUsed (blockTime : Nat) (config : Config) (stake : Nat) (deposit : Deposit) (s : State) :
    Outcome StdError State :=
  if deposit.lastAccrued < blockTime then do
    let (incentives, _, total) ← accrueIncentives blockTime config stake deposit s.incentives
    let users ← addToUserClaims deposit.user (.nativeToken config.mbrnDenom) incentives s.users
    pure { s with incentives := total, users := users }
  else pure s

/-- The loop that makes the distribution list: the deposits in order until they repay
    `repaid`, the last one with only what is needed of it. -/
def distributionList (blockTime : Nat) (config : Config) (repaid : Decimal) :
    List Deposit → Decimal → List Deposit → State → Outcome StdError (List Deposit × State)
  | [], _, used, s => pure (used, s)
  | deposit :: rest, repayTotal, used, s =>
    if repayTotal < repaid then do
      let sum ← Decimal.add repayTotal deposit.amount
      if repaid < sum then do
        let remaining ← Decimal.sub repaid repayTotal
        let left ← Decimal.sub deposit.amount remaining
        let repayTotal ← Decimal.add repayTotal remaining
        let stake ← Decimal.mulUint 1 remaining
        let s ← accrueUsed blockTime config stake { deposit with amount := left } s
        distributionList blockTime config repaid rest repayTotal
          (used ++ [{ deposit with amount := remaining }]) s
      else do
        let stake ← Decimal.mulUint 1 deposit.amount
        let s ← accrueUsed blockTime config stake deposit s
        distributionList blockTime config repaid rest sum (used ++ [deposit]) s
    else pure (used, s)

/-- The deposits that a distribution leaves. A deposit used in part is taken to be the first
    of those that were not used. -/
def editedDeposits (deposits used : List Deposit) : Outcome StdError (List Deposit) := do
  let kept := deposits.filter fun deposit => !deposit.equal used
  if deposits.length < used.length + kept.length then do
    let first ← Outcome.index kept 0
    let last ← Outcome.index used (used.length - 1)
    let left ← Decimal.sub first.amount last.amount
    Outcome.setIndex kept 0 { first with amount := left }
  else pure kept

/-- One deposit in the loop of `get_distribution_ratios`: the deposits condensed to one for
    each user, and their total. -/
def condenseDeposit (acc : List Deposit × Decimal) (deposit : Deposit) :
    Outcome StdError (List Deposit × Decimal) :=
  match acc.1.find? fun userDeposit => userDeposit.user == deposit.user with
  | some userDeposit => do
      let amount ← Decimal.add userDeposit.amount deposit.amount
      let total ← Decimal.add acc.2 deposit.amount
      pure ((acc.1.filter fun other => other.user ≠ userDeposit.user) ++
        [{ userDeposit with amount := amount }], total)
  | none => do
      let total ← Decimal.add acc.2 deposit.amount
      pure (acc.1 ++ [deposit], total)

/-- `get_distribution_ratios`, as the ratio of each user. -/
def getDistributionRatios (deposits : List Deposit) : Outcome StdError (List UserRatio) := do
  let (userDeposits, total) ← deposits.foldlM condenseDeposit ([], Decimal.zero)
  userDeposits.mapM fun deposit => do
    let ratio ← decimalDivision deposit.amount total
    pure ⟨deposit.user, ratio⟩

/-- What `split_assets_to_users` carries: the ratios of the collateral that are left, the
    assets that are left and the claims. -/
structure Split where
  ratios : List Decimal
  assets : List Asset
  users : KeyMap Addr (List Coin)

/-- Send `amount` of asset `index` to a user, leaving it `left` and its ratio `ratio`. -/
def Split.send (split : Split) (user : Addr) (index amount left : Nat) (ratio : Decimal) :
    Outcome StdError Split := do
  let asset ← Outcome.index split.assets index
  let users ← addToUserClaims user asset.info amount split.users
  pure ⟨split.ratios.set index ratio, split.assets.set index { asset with amount := left }, users⟩

/-- The inner loop of `split_assets_to_users`, over the ratios from `index` on as they were
    when the loop began. -/
def splitToUser (user : Addr) : List Decimal → Nat → Decimal → Split → Outcome StdError Split
  | [], _, _, split => pure split
  | cAssetRatio :: rest, index, ratio, split =>
    if cAssetRatio = Decimal.zero then splitToUser user rest (index + 1) ratio split
    else do
      let asset ← Outcome.index split.assets index
      if ratio = cAssetRatio then split.send user index asset.amount 0 Decimal.zero
      else if ratio < cAssetRatio then do
        let sendRatio ← decimalDivision ratio cAssetRatio
        let send ← decimalMultiplication sendRatio (← Decimal.fromRatio asset.amount 1)
        let sendAmount ← Decimal.mulUint 1 send
        let left ← subUint asset.amount sendAmount
        let ratioLeft ← decimalSubtraction cAssetRatio ratio
        split.send user index sendAmount left ratioLeft
      else do
        let split ← split.send user index asset.amount 0 Decimal.zero
        let ratio ← decimalSubtraction ratio cAssetRatio
        splitToUser user rest (index + 1) ratio split

def splitAssetsToUsers (cAssetRatios : List Decimal) (distributionAssets : List Asset)
    (distributionRatios : List UserRatio) (users : KeyMap Addr (List Coin)) :
    Outcome StdError (KeyMap Addr (List Coin)) := do
  let split ← distributionRatios.foldlM
    (fun split userRatio => splitToUser userRatio.user split.ratios 0 userRatio.ratio split)
    (⟨cAssetRatios, distributionAssets, users⟩ : Split)
  pure split.users

def distributeFunds (blockTime : Nat) (info : MessageInfo) (distributionAssets : List Asset)
    (distributionAssetRatios : List Decimal) (distributeFor : Nat) (s : State) :
    Result (State × List (CosmosMsg OutMsg)) := do
  Outcome.guardErr (info.sender ≠ s.config.positionsContract) .unauthorized
  let repaid ← Decimal.fromRatio distributeFor 1
  let (used, s') ← liftStd
    (distributionList blockTime s.config repaid s.asset.deposits Decimal.zero [] s)
  let edited ← liftStd (editedDeposits s.asset.deposits used)
  let ratios ← liftStd (getDistributionRatios used)
  let users ← liftStd
    (splitAssetsToUsers distributionAssetRatios distributionAssets ratios s'.users)
  pure ({ s' with asset := { s.asset with deposits := edited }, users := users }, [])

end Membrane.StabilityPool
