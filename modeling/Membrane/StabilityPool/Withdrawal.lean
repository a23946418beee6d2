import Membrane.StabilityPool.Incentives

/-!
# Taking deposits out

`withdrawal_from_state`: the loop over the deposits that begins to unstake what is asked
for, or pays out what has been unstaking long enough. A repayment from the position
contract skips the unstaking.
-/

namespace Membrane.StabilityPool

/-- `SECONDS_PER_DAY`. -/
def secondsPerDay : Nat := 86400

/-- What the loop carries: the total of incentives, those of this call and an error of
    computing them, whether the user has a deposit, what is still to withdraw, what can be
    paid, the deposit that goes to the back of the line, and the deposits so far. -/
structure Withdrawal where
  total : Nat
  mbrnIncentives : Nat
  error : Option StdError
  isUser : Bool
  withdrawalAmount : Decimal
  withdrawableAmount : Nat
  returningDeposit : Option Deposit
  deposits : List Deposit

/-- Accrue a deposit in the loop. An error is kept for after the loop. -/
def accrueInLoop (blockTime : Nat) (config : Config) (stake : Nat) (deposit : Deposit)
    (acc : Withdrawal) : Outcome StdError (Deposit × Withdrawal) := do
  match ← Outcome.attempt (accrueIncentives blockTime config stake deposit acc.total) with
  | .ok (incentives, deposit, total) => do
      let mbrnIncentives ← Uint128.add acc.mbrnIncentives incentives
      pure (deposit, { acc with total := total, mbrnIncentives := mbrnIncentives })
  | .error error =>
    pure ({ deposit with lastAccrued := blockTime }, { acc with error := some error })

/-- The amount that begins to unstake when less than the deposit is asked for: at least the
    minimum, and all of it when less than that would be left. -/
def unstakeAmount (config : Config) (deposit : Deposit) (withdrawalAmount : Decimal) :
    Outcome StdError Decimal := do
  let asked ← Decimal.mulUint 1 withdrawalAmount
  if asked < config.minimumDepositAmount then do
    let minimum ← Decimal.fromRatio config.minimumDepositAmount 1
    let left ← Decimal.sub deposit.amount minimum
    pure (if left < minimum then deposit.amount else minimum)
  else pure withdrawalAmount

/-- A deposit that is not unstaking begins to, for what is still asked for. -/
def beginUnstaking (blockTime : Nat) (config : Config) (deposit : Deposit) (acc : Withdrawal) :
    Outcome StdError (Deposit × Withdrawal) :=
  if acc.withdrawalAmount < deposit.amount ∧ acc.withdrawalAmount ≠ Decimal.zero then do
    let amount ← unstakeAmount config deposit acc.withdrawalAmount
    let left ← Decimal.sub deposit.amount amount
    pure ({ deposit with amount := amount, unstakeTime := some blockTime }, { acc with
      withdrawalAmount := Decimal.zero
      returningDeposit := some { deposit with amount := left } })
  else if acc.withdrawalAmount ≠ Decimal.zero then do
    let rest ← Decimal.sub acc.withdrawalAmount deposit.amount
    pure ({ deposit with unstakeTime := some blockTime }, { acc with withdrawalAmount := rest })
  else pure (deposit, acc)

/-- Whether a deposit can be paid out, after the unstaking that this call begins. -/
def unstake (blockTime : Nat) (config : Config) (skipUnstaking : Bool) (deposit : Deposit)
    (acc : Withdrawal) : Outcome StdError (Bool × Deposit × Withdrawal) :=
  if skipUnstaking then pure (true, { deposit with unstakeTime := some blockTime }, acc)
  else
    match deposit.unstakeTime with
    | some unstakeTime => do
        let elapsed ← subUint blockTime unstakeTime
        let period ← Uint64.mul config.unstakingPeriod secondsPerDay
        pure (decide (period ≤ elapsed), deposit, acc)
    | none => do
        let (deposit, acc) ← beginUnstaking blockTime config deposit acc
        pure (false, deposit, acc)

/-- A deposit that can be paid out pays what is still asked for, and a rest below the
    minimum with it. -/
def payOut (blockTime : Nat) (config : Config) (withdrawable : Bool) (deposit : Deposit)
    (acc : Withdrawal) : Outcome StdError (Deposit × Withdrawal) :=
  if acc.withdrawalAmount ≠ Decimal.zero ∧ acc.withdrawalAmount < deposit.amount ∧
      withdrawable = true then do
    let asked ← Decimal.mulUint 1 acc.withdrawalAmount
    let paid ← Uint128.add acc.withdrawableAmount asked
    let left ← Decimal.sub deposit.amount acc.withdrawalAmount
    let leftover ← Decimal.mulUint 1 left
    let (left, paid) ←
      (if leftover < config.minimumDepositAmount then do
        pure (Decimal.zero, ← Uint128.add paid leftover)
      else pure (left, paid))
    let (deposit, acc) ← accrueInLoop blockTime config asked { deposit with amount := left }
      { acc with withdrawableAmount := paid }
    pure (deposit, { acc with withdrawalAmount := Decimal.zero })
  else if acc.withdrawalAmount ≠ Decimal.zero ∧ deposit.amount ≤ acc.withdrawalAmount ∧
      withdrawable = true then do
    let rest ← Decimal.sub acc.withdrawalAmount deposit.amount
    let amount ← Decimal.mulUint 1 deposit.amount
    let paid ← Uint128.add acc.withdrawableAmount amount
    pure ({ deposit with amount := Decimal.zero },
      { acc with withdrawalAmount := rest, withdrawableAmount := paid })
  else pure (deposit, acc)

/-- One deposit in the loop of `withdrawal_from_state`. -/
def withdrawFromDeposit (blockTime : Nat) (config : Config) (user : Addr) (skipUnstaking : Bool)
    (acc : Withdrawal) (deposit : Deposit) : Outcome StdError Withdrawal :=
  if deposit.user = user then do
    let stake ← Decimal.mulUint 1 deposit.amount
    let (deposit, acc) ←
      accrueInLoop blockTime config stake deposit { acc with isUser := true }
    let (withdrawable, deposit, acc) ← unstake blockTime config skipUnstaking deposit acc
    let (deposit, acc) ← payOut blockTime config withdrawable deposit acc
    pure { acc with deposits := acc.deposits ++ [deposit] }
  else pure { acc with deposits := acc.deposits ++ [deposit] }

/-- The claims of a user after the incentives of a withdrawal. -/
def claimIncentives (config : Config) (user : Addr) (mbrnIncentives : Nat) (isUser : Bool)
    (users : KeyMap Addr (List Coin)) : Result (KeyMap Addr (List Coin)) := do
  if mbrnIncentives = 0 then pure users
  else do
    Outcome.guardErr (users.lookup user = none ∧ isUser = false) (.customError "Invalid user")
    liftStd (addClaim user ⟨config.mbrnDenom, mbrnIncentives⟩ users)

/-- `withdrawal_from_state`: what can be paid, and the state with the new pool. The source
    saves the pool in the callers, after their own checks. -/
def withdrawalFromState (blockTime : Nat) (user : Addr) (withdrawalAmount : Decimal)
    (skipUnstaking : Bool) (s : State) : Result (Nat × State) := do
  let done ← liftStd (s.asset.deposits.foldlM
    (withdrawFromDeposit blockTime s.config user skipUnstaking)
    ⟨s.incentives, 0, none, false, withdrawalAmount, 0, none, []⟩)
  Outcome.guardErr (done.withdrawalAmount ≠ Decimal.zero) .invalidWithdrawal
  let kept := done.deposits.filter fun deposit => deposit.amount ≠ Decimal.zero
  let returning := done.returningDeposit.toList.filter fun deposit => deposit.amount ≠ Decimal.zero
  let amount ← Outcome.unwrap
    (Uint128.checkedSub s.asset.creditAsset.amount done.withdrawableAmount)
  match done.error with
  | some error => Outcome.fail (.customError error.toText)
  | none => do
      let users ← claimIncentives s.config user done.mbrnIncentives done.isUser s.users
      pure (done.withdrawableAmount, { s with
        asset := { s.asset with
          creditAsset := { s.asset.creditAsset with amount := amount }
          deposits := kept ++ returning }
        incentives := done.total
        users := users })

end Membrane.StabilityPool
