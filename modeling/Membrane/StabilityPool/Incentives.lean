import Membrane.StabilityPool.State

/-!
# Incentives

How deposits earn: `accrue_incentives`, which the handlers that move a deposit call on it,
and `get_user_incentives` and `query_user_incentives`, which go over all deposits of a user.
-/

namespace Membrane.StabilityPool

/-- `SECONDS_PER_YEAR`. -/
def secondsPerYear : Nat := 31536000

def accumulateInterest (base : Nat) (rate : Decimal) (timeElapsed : Nat) :
    Outcome StdError Nat := do
  let appliedRate ← Decimal.checkedMul rate (← Decimal.fromRatio timeElapsed secondsPerYear)
  Decimal.mulUint base appliedRate

/-- The check of the maximum: what can still be paid of `earned` when `total` has been, and
    the total after it. -/
def capIncentives (maxIncentives total earned : Nat) : Outcome StdError (Nat × Nat) := do
  let sum ← Uint128.add total earned
  if maxIncentives < sum then do
    let rest ← subUint maxIncentives total
    pure (rest, maxIncentives)
  else pure (earned, sum)

/-- `accrue_incentives`: the incentives of `stake`, the deposit with its time of accrual and
    the new total. An unstaking deposit earns nothing. -/
def accrueIncentives (blockTime : Nat) (config : Config) (stake : Nat) (deposit : Deposit)
    (total : Nat) : Outcome StdError (Nat × Deposit × Nat) := do
  let timeElapsed ← (match deposit.unstakeTime with
    | some _ => pure 0
    | none => subUint blockTime deposit.lastAccrued)
  let incentives ← accumulateInterest stake config.incentiveRate timeElapsed
  let (incentives, total) ← capIncentives config.maxIncentives total incentives
  pure (incentives, { deposit with lastAccrued := blockTime }, total)

/-- The time up to which a deposit earns: until it began to unstake. -/
def earnsUntil (blockTime : Nat) (deposit : Deposit) : Nat := deposit.unstakeTime.getD blockTime

/-- One deposit in the loop of `get_user_incentives`: what it earned is added to the total of
    the user, an error of the computation is kept for later. -/
def addUserIncentives (blockTime : Nat) (user : Addr) (rate : Decimal)
    (acc : Nat × Option StdError × List Deposit) (deposit : Deposit) :
    Outcome StdError (Nat × Option StdError × List Deposit) :=
  if deposit.user = user then do
    let timeElapsed ← subUint (earnsUntil blockTime deposit) deposit.lastAccrued
    let stake ← Decimal.mulUint 1 deposit.amount
    let accrued := { deposit with lastAccrued := earnsUntil blockTime deposit }
    if timeElapsed ≠ 0 then do
      match ← Outcome.attempt (accumulateInterest stake rate timeElapsed) with
      | .ok incentives => do
          let sum ← Uint128.add acc.1 incentives
          pure (sum, acc.2.1, acc.2.2 ++ [accrued])
      | .error error => pure (acc.1, some error, acc.2.2 ++ [accrued])
    else pure (acc.1, acc.2.1, acc.2.2 ++ [accrued])
  else pure (acc.1, acc.2.1, acc.2.2 ++ [deposit])

/-- `get_user_incentives`: the incentives of a user, with the pool and the total after. -/
def getUserIncentives (blockTime : Nat) (user : Addr) (s : State) :
    Outcome StdError (Nat × State) := do
  let (totalUserIncentives, error, newDeposits) ←
    s.asset.deposits.foldlM (addUserIncentives blockTime user s.config.incentiveRate) (0, none, [])
  match error with
  | some error => Outcome.fail error
  | none => do
      let (incentives, total) ←
        capIncentives s.config.maxIncentives s.incentives totalUserIncentives
      pure (incentives, { s with
        asset := { s.asset with deposits := newDeposits }
        incentives := total })

/-- `query_user_incentives`, of a valid address. -/
def queryUserIncentives (blockTime : Nat) (user : Addr) (s : State) : Outcome StdError Nat :=
  (s.asset.deposits.filter fun deposit => deposit.user = user).foldlM (fun total deposit => do
    let timeElapsed ← subUint (earnsUntil blockTime deposit) deposit.lastAccrued
    let stake ← Decimal.mulUint 1 deposit.amount
    let incentives ← accumulateInterest stake s.config.incentiveRate timeElapsed
    Uint128.add total incentives) 0

end Membrane.StabilityPool
