import Membrane.StabilityPool.Withdrawal
import Membrane.StabilityPool.Proofs.Incentives

/-!
# Deposits that are unstaking

A withdrawal accrues every deposit of its user, also those that began to unstake before
and stay. These are then accrued after the time they earn until, which the claims
subtract. A withdrawal keeps the times in order exactly when it pays such deposits out.
-/

namespace Membrane.StabilityPool

open Outcome

def periodPassed (blockTime : Nat) (config : Config) (unstakeTime : Nat) : Bool :=
  decide (config.unstakingPeriod * secondsPerDay ≤ blockTime - unstakeTime)

/-- What is still to withdraw after a deposit of the user: one that is not unstaking begins
    to, one that is counts when it can be paid out. -/
def leftToWithdraw (blockTime : Nat) (config : Config) (withdrawalAmount : Decimal)
    (deposit : Deposit) : Decimal :=
  match deposit.unstakeTime with
  | none => ⟨withdrawalAmount.atomics - deposit.amount.atomics⟩
  | some unstakeTime =>
    if periodPassed blockTime config unstakeTime then
      ⟨withdrawalAmount.atomics - deposit.amount.atomics⟩
    else withdrawalAmount

def paidInFull (config : Config) (withdrawalAmount : Decimal) (deposit : Deposit) : Bool :=
  decide (withdrawalAmount ≠ Decimal.zero) && (decide (deposit.amount ≤ withdrawalAmount) ||
    decide ((⟨deposit.amount.atomics - withdrawalAmount.atomics⟩ : Decimal).toUintFloor <
      config.minimumDepositAmount))

def staysUnstaking (blockTime : Nat) (config : Config) (withdrawalAmount : Decimal)
    (deposit : Deposit) : Bool :=
  match deposit.unstakeTime with
  | none => false
  | some unstakeTime => decide (unstakeTime ≠ blockTime) &&
      decide (deposit.amount ≠ Decimal.zero) &&
      !(periodPassed blockTime config unstakeTime && paidInFull config withdrawalAmount deposit)

/-- A withdrawal from the deposits of a user, in their order, leaves none that began to
    unstake in an earlier second: each is past the unstaking period and paid out in full. -/
def clearsUnstaking (blockTime : Nat) (config : Config) : Decimal → List Deposit → Bool
  | _, [] => true
  | withdrawalAmount, deposit :: rest =>
    !staysUnstaking blockTime config withdrawalAmount deposit &&
      clearsUnstaking blockTime config
        (leftToWithdraw blockTime config withdrawalAmount deposit) rest

/-! ## One deposit -/

section

variable {blockTime : Nat} {config : Config} {acc acc' : Withdrawal} {deposit deposit' : Deposit}

/-- What a part of a round leaves alone, and that the total stays within the maximum. -/
structure Carried (config : Config) (acc acc' : Withdrawal) : Prop where
  capped : acc.total ≤ config.maxIncentives → acc'.total ≤ config.maxIncentives
  deposits : acc'.deposits = acc.deposits

theorem Carried.refl (config : Config) (acc : Withdrawal) : Carried config acc acc := ⟨id, rfl⟩

theorem accrueInLoop_spec {stake : Nat}
    (done : accrueInLoop blockTime config stake deposit acc = .ok (deposit', acc')) :
    Carried config acc acc' ∧ deposit' = { deposit with lastAccrued := blockTime } ∧
      acc'.withdrawalAmount = acc.withdrawalAmount ∧
      acc'.returningDeposit = acc.returningDeposit := by
  obtain ⟨asked, hasked, hrest⟩ := bind_eq_ok.mp done
  cases asked with
  | error =>
    obtain ⟨rfl, rfl⟩ := Prod.mk.injEq _ _ _ _ ▸ pure_eq_ok.mp hrest
    exact ⟨⟨id, rfl⟩, rfl, rfl, rfl⟩
  | ok result =>
    obtain ⟨haccrued, hcapped⟩ := accrueIncentives_spec (attempt_eq_ok_ok.mp hasked)
    simp only [bind_eq_ok, pure_eq_ok, Prod.mk.injEq] at hrest
    obtain ⟨_, -, rfl, rfl⟩ := hrest
    exact ⟨⟨fun _ => hcapped, rfl⟩, haccrued, rfl, rfl⟩

theorem sub_spec {a b c : Decimal} (done : (Decimal.sub a b : Outcome StdError Decimal) = .ok c) :
    b ≤ a ∧ c = ⟨a.atomics - b.atomics⟩ := by
  unfold Decimal.sub at done
  split at done
  case isTrue h => exact ⟨h, (Except.ok.inj done).symm⟩
  case isFalse => cases done

theorem beginUnstaking_spec
    (done : beginUnstaking blockTime config deposit acc = .ok (deposit', acc'))
    (unstaked : deposit.unstakeTime = none) :
    Carried config acc acc' ∧ deposit'.lastAccrued = deposit.lastAccrued ∧
      (deposit'.unstakeTime = none ∨ deposit'.unstakeTime = some blockTime) ∧
      acc'.withdrawalAmount = ⟨acc.withdrawalAmount.atomics - deposit.amount.atomics⟩ ∧
      (acc'.returningDeposit = acc.returningDeposit ∨ ∃ amount,
        acc'.returningDeposit = some { deposit with amount := amount }) := by
  unfold beginUnstaking at done
  split at done
  case isTrue h =>
    simp only [bind_eq_ok, pure_eq_ok, Prod.mk.injEq] at done
    obtain ⟨amount, -, left, -, rfl, rfl⟩ := done
    refine ⟨⟨id, rfl⟩, rfl, .inr rfl, ?_, .inr ⟨left, rfl⟩⟩
    show Decimal.zero = _
    have hlt : acc.withdrawalAmount.atomics < deposit.amount.atomics := h.1
    rw [Nat.sub_eq_zero_of_le hlt.le]
    rfl
  case isFalse h =>
    split at done
    case isTrue hsome =>
      simp only [bind_eq_ok, pure_eq_ok, Prod.mk.injEq] at done
      obtain ⟨rest, hrest, rfl, rfl⟩ := done
      exact ⟨⟨id, rfl⟩, rfl, .inr rfl, (sub_spec hrest).2, .inl rfl⟩
    case isFalse hnone =>
      simp only [pure_eq_ok, Prod.mk.injEq] at done
      obtain ⟨rfl, rfl⟩ := done
      refine ⟨.refl _ _, rfl, .inl unstaked, ?_, .inl rfl⟩
      rw [not_not.mp hnone]
      simp [Decimal.zero]

theorem left_ne_zero {a b : Decimal} (less : b < a) :
    (⟨a.atomics - b.atomics⟩ : Decimal) ≠ Decimal.zero := by
  intro hzero
  have hatomics : a.atomics - b.atomics = 0 := congrArg Decimal.atomics hzero
  have hlt : b.atomics < a.atomics := less
  omega

theorem paidInFull_of_lt {withdrawalAmount : Decimal} (asked : withdrawalAmount ≠ Decimal.zero)
    (less : withdrawalAmount < deposit.amount) :
    paidInFull config withdrawalAmount deposit = true ↔
      (⟨deposit.amount.atomics - withdrawalAmount.atomics⟩ : Decimal).toUintFloor <
        config.minimumDepositAmount := by
  have hnot : ¬ deposit.amount ≤ withdrawalAmount := Nat.not_le_of_lt less
  simp [paidInFull, asked, hnot]

theorem payPart_spec (less : acc.withdrawalAmount < deposit.amount)
    (asked : acc.withdrawalAmount ≠ Decimal.zero)
    (done : payOut blockTime config true deposit acc = .ok (deposit', acc')) :
    Carried config acc acc' ∧ deposit'.lastAccrued = blockTime ∧
      deposit'.unstakeTime = deposit.unstakeTime ∧ acc'.withdrawalAmount = Decimal.zero ∧
      acc'.returningDeposit = acc.returningDeposit ∧ (deposit'.amount = Decimal.zero ↔
        paidInFull config acc.withdrawalAmount deposit = true) := by
  rw [payOut, if_pos ⟨asked, less, rfl⟩] at done
  simp only [bind_eq_ok, pure_eq_ok, Prod.mk.injEq] at done
  obtain ⟨stake, -, paid, -, left, hleft, leftover, hleftover, ⟨kept, paid'⟩, hkept,
    ⟨mid, accMid⟩, haccrue, rfl, rfl⟩ := done
  obtain ⟨-, rfl⟩ := sub_spec hleft
  obtain ⟨hcarried, rfl, -, hreturning⟩ := accrueInLoop_spec haccrue
  refine ⟨⟨hcarried.capped, hcarried.deposits⟩, rfl, rfl, rfl, hreturning, ?_⟩
  have hfloor := Decimal.mulUint_eq_ok hleftover
  rw [Nat.one_mul] at hfloor
  rw [paidInFull_of_lt asked less]
  show kept = Decimal.zero ↔ _
  rw [Decimal.toUintFloor, ← hfloor]
  by_cases hsmall : leftover < config.minimumDepositAmount
  · rw [if_pos hsmall] at hkept
    simp only [bind_eq_ok, pure_eq_ok, Prod.mk.injEq] at hkept
    obtain ⟨_, -, rfl, -⟩ := hkept
    exact ⟨fun _ => hsmall, fun _ => rfl⟩
  · rw [if_neg hsmall] at hkept
    simp only [pure_eq_ok, Prod.mk.injEq] at hkept
    obtain ⟨rfl, -⟩ := hkept
    exact ⟨fun hzero => absurd hzero (left_ne_zero less), fun h => absurd h hsmall⟩

theorem payOut_spec {withdrawable : Bool} (accrued : deposit.lastAccrued = blockTime)
    (done : payOut blockTime config withdrawable deposit acc = .ok (deposit', acc')) :
    Carried config acc acc' ∧ deposit'.lastAccrued = blockTime ∧
      deposit'.unstakeTime = deposit.unstakeTime ∧
      acc'.withdrawalAmount = (if withdrawable then
        ⟨acc.withdrawalAmount.atomics - deposit.amount.atomics⟩ else acc.withdrawalAmount) ∧
      acc'.returningDeposit = acc.returningDeposit ∧
      (deposit'.amount = Decimal.zero ↔ deposit.amount = Decimal.zero ∨
        withdrawable = true ∧ paidInFull config acc.withdrawalAmount deposit = true) := by
  -- a deposit that pays nothing stays as it is
  have hkeep : withdrawable = false ∨ acc.withdrawalAmount = Decimal.zero →
      deposit = deposit' ∧ acc = acc' := by
    intro h
    rw [payOut, if_neg (by rintro ⟨hsome, -, hcan⟩; rcases h with h | h <;> simp_all),
      if_neg (by rintro ⟨hsome, -, hcan⟩; rcases h with h | h <;> simp_all)] at done
    simpa using done
  cases withdrawable with
  | false =>
    obtain ⟨rfl, rfl⟩ := hkeep (.inl rfl)
    exact ⟨.refl _ _, accrued, rfl, rfl, rfl, by simp⟩
  | true =>
    by_cases hasked : acc.withdrawalAmount = Decimal.zero
    · obtain ⟨rfl, rfl⟩ := hkeep (.inr hasked)
      refine ⟨.refl _ _, accrued, rfl, ?_, rfl, ?_⟩
      · rw [if_pos rfl, hasked]
        simp [Decimal.zero]
      · simp [paidInFull, hasked]
    · by_cases hless : acc.withdrawalAmount < deposit.amount
      · obtain ⟨hcarried, htime, hunstake, hrest, hreturning, hzero⟩ :=
          payPart_spec hless hasked done
        have hlt : acc.withdrawalAmount.atomics < deposit.amount.atomics := hless
        refine ⟨hcarried, htime, hunstake, ?_, hreturning, ?_⟩
        · rw [hrest, if_pos rfl, Nat.sub_eq_zero_of_le hlt.le]
          rfl
        · have hsome : deposit.amount ≠ Decimal.zero := by
            intro h
            rw [h] at hlt
            exact Nat.not_lt_zero _ hlt
          simp [hzero, hsome]
      · have hle : deposit.amount ≤ acc.withdrawalAmount := Nat.le_of_not_lt hless
        rw [payOut, if_neg (fun h => hless h.2.1), if_pos ⟨hasked, hle, rfl⟩] at done
        simp only [bind_eq_ok, pure_eq_ok, Prod.mk.injEq] at done
        obtain ⟨rest, hrest, _, -, _, -, rfl, rfl⟩ := done
        refine ⟨⟨id, rfl⟩, accrued, rfl, (sub_spec hrest).2, rfl, ?_⟩
        simp [paidInFull, hasked, hle]

theorem unstake_unstaking {withdrawable : Bool} {unstakeTime : Nat}
    (done : unstake blockTime config false deposit acc = .ok (withdrawable, deposit', acc'))
    (unstaking : deposit.unstakeTime = some unstakeTime) :
    unstakeTime ≤ blockTime ∧ withdrawable = periodPassed blockTime config unstakeTime ∧
      deposit' = deposit ∧ acc' = acc := by
  rw [unstake, if_neg Bool.false_ne_true, unstaking] at done
  simp only [bind_eq_ok, pure_eq_ok, subUint_eq_ok, Prod.mk.injEq] at done
  obtain ⟨_, ⟨hle, rfl⟩, period, hperiod, rfl, rfl, rfl⟩ := done
  obtain ⟨-, rfl⟩ := Uint64.mul_eq_ok.mp hperiod
  exact ⟨hle, rfl, rfl, rfl⟩

theorem unstake_staked {withdrawable : Bool}
    (done : unstake blockTime config false deposit acc = .ok (withdrawable, deposit', acc'))
    (unstaked : deposit.unstakeTime = none) :
    withdrawable = false ∧ beginUnstaking blockTime config deposit acc = .ok (deposit', acc') := by
  rw [unstake, if_neg Bool.false_ne_true, unstaked] at done
  simp only [bind_eq_ok, pure_eq_ok, Prod.mk.injEq] at done
  obtain ⟨⟨mid, accMid⟩, hbegin, rfl, rfl, rfl⟩ := done
  exact ⟨rfl, hbegin⟩

structure Round (blockTime : Nat) (config : Config) (skipUnstaking : Bool) (acc acc' : Withdrawal)
    (deposit deposit' : Deposit) : Prop where
  capped : acc.total ≤ config.maxIncentives → acc'.total ≤ config.maxIncentives
  appends : acc'.deposits = acc.deposits ++ [deposit']
  past : Past blockTime deposit'
  returning : acc'.returningDeposit = acc.returningDeposit ∨ ∃ returning,
    acc'.returningDeposit = some returning ∧ Past blockTime returning ∧
      returning.unstakeTime = none
  skipped : skipUnstaking = true → InTime deposit'
  leftOver : skipUnstaking = false → acc'.withdrawalAmount =
    leftToWithdraw blockTime config acc.withdrawalAmount deposit
  stays : skipUnstaking = false → (deposit'.amount ≠ Decimal.zero ∧ ¬ InTime deposit' ↔
    staysUnstaking blockTime config acc.withdrawalAmount deposit = true)

theorem withdrawFromDeposit_skipping {user : Addr} (mine : deposit.user = user)
    (done : withdrawFromDeposit blockTime config user true acc deposit = .ok acc') :
    ∃ deposit', Round blockTime config true acc acc' deposit deposit' := by
  rw [withdrawFromDeposit, if_pos mine] at done
  simp only [bind_eq_ok, pure_eq_ok, unstake, if_true] at done
  obtain ⟨stake, -, ⟨accrued, acc₁⟩, haccrue, _, rfl, ⟨paid, acc₂⟩, hpay, rfl⟩ := done
  dsimp only at hpay
  obtain ⟨hfirst, rfl, -, hreturning⟩ := accrueInLoop_spec haccrue
  obtain ⟨hsecond, haccrued, hunstake, -, hreturning', -⟩ := payOut_spec rfl hpay
  dsimp only at hunstake
  refine ⟨paid, fun h => hsecond.capped (hfirst.capped h), ?_, ⟨haccrued.le, ?_⟩,
    .inl (hreturning'.trans hreturning), ?_, fun h => absurd h (by simp),
    fun h => absurd h (by simp)⟩
  · show acc₂.deposits ++ [paid] = _
    rw [hsecond.deposits, hfirst.deposits]
  · intro unstakeTime h
    exact (Option.some.inj (h.symm.trans hunstake)).le
  · intro _ unstakeTime h
    obtain rfl := Option.some.inj (h.symm.trans hunstake)
    exact haccrued.le

theorem withdrawFromDeposit_staked {user : Addr} (mine : deposit.user = user)
    (unstaked : deposit.unstakeTime = none)
    (done : withdrawFromDeposit blockTime config user false acc deposit = .ok acc') :
    ∃ deposit', Round blockTime config false acc acc' deposit deposit' := by
  rw [withdrawFromDeposit, if_pos mine] at done
  simp only [bind_eq_ok, pure_eq_ok] at done
  obtain ⟨stake, -, ⟨accrued, acc₁⟩, haccrue, ⟨withdrawable, begun, acc₂⟩, hunstake,
    ⟨paid, acc₃⟩, hpay, rfl⟩ := done
  obtain ⟨hfirst, rfl, hsame, hreturning⟩ := accrueInLoop_spec haccrue
  obtain ⟨rfl, hbegin⟩ := unstake_staked hunstake unstaked
  obtain ⟨hsecond, hbegun, htimes, hleft, hreturning₂⟩ := beginUnstaking_spec hbegin unstaked
  obtain ⟨hthird, haccrued, hpaid, hpays, hreturning₃, -⟩ := payOut_spec hbegun hpay
  have hinTime : InTime paid := by
    intro unstakeTime h
    rw [hpaid] at h
    rcases htimes with htimes | htimes
    · rw [htimes] at h
      cases h
    · obtain rfl := Option.some.inj (h.symm.trans htimes)
      exact haccrued.le
  refine ⟨paid, fun h => hthird.capped (hsecond.capped (hfirst.capped h)), ?_,
    ⟨haccrued.le, ?_⟩, ?_, fun _ => hinTime, ?_, ?_⟩
  · show acc₃.deposits ++ [paid] = _
    rw [hthird.deposits, hsecond.deposits, hfirst.deposits]
  · intro unstakeTime h
    rw [hpaid] at h
    rcases htimes with htimes | htimes
    · rw [htimes] at h
      cases h
    · exact (Option.some.inj (h.symm.trans htimes)).le
  · show acc₃.returningDeposit = _ ∨ _
    rw [hreturning₃]
    rcases hreturning₂ with hnone | ⟨amount, hsome⟩
    · exact .inl (hnone.trans hreturning)
    · refine .inr ⟨_, hsome, ⟨Nat.le_refl _, ?_⟩, unstaked⟩
      intro unstakeTime h
      exact absurd (unstaked.symm.trans h) (by simp)
  · intro _
    show acc₃.withdrawalAmount = _
    rw [hpays, if_neg Bool.false_ne_true, hleft, hsame, leftToWithdraw, unstaked]
  · intro _
    rw [staysUnstaking, unstaked]
    constructor
    · rintro ⟨-, hnot⟩
      exact absurd hinTime hnot
    · intro h
      cases h

theorem withdrawFromDeposit_unstaking {user : Addr} {unstakeTime : Nat} (mine : deposit.user = user)
    (unstaking : deposit.unstakeTime = some unstakeTime)
    (done : withdrawFromDeposit blockTime config user false acc deposit = .ok acc') :
    ∃ deposit', Round blockTime config false acc acc' deposit deposit' := by
  rw [withdrawFromDeposit, if_pos mine] at done
  simp only [bind_eq_ok, pure_eq_ok] at done
  obtain ⟨stake, -, ⟨accrued, acc₁⟩, haccrue, ⟨withdrawable, begun, acc₂⟩, hunstake,
    ⟨paid, acc₃⟩, hpay, rfl⟩ := done
  obtain ⟨hfirst, rfl, hsame, hreturning⟩ := accrueInLoop_spec haccrue
  obtain ⟨hle, rfl, rfl, rfl⟩ := unstake_unstaking hunstake unstaking
  dsimp only at hpay hsame
  obtain ⟨hthird, haccrued, hpaid, hpays, hreturning₃, hzero⟩ := payOut_spec rfl hpay
  have htime : paid.unstakeTime = some unstakeTime := hpaid.trans unstaking
  refine ⟨paid, fun h => hthird.capped (hfirst.capped h), ?_, ⟨haccrued.le, ?_⟩,
    .inl (hreturning₃.trans hreturning), fun h => absurd h (by simp), ?_, ?_⟩
  · show acc₃.deposits ++ [paid] = _
    rw [hthird.deposits, hfirst.deposits]
  · intro time h
    obtain rfl := Option.some.inj (h.symm.trans htime)
    exact hle
  · intro _
    show acc₃.withdrawalAmount = _
    rw [hpays, hsame, leftToWithdraw, unstaking]
  · intro _
    have hinTime : InTime paid ↔ unstakeTime = blockTime := by
      constructor
      · intro inTime
        have hlate : paid.lastAccrued ≤ unstakeTime := inTime unstakeTime htime
        rw [haccrued] at hlate
        exact Nat.le_antisymm hle hlate
      · rintro rfl time h
        obtain rfl := Option.some.inj (h.symm.trans htime)
        exact haccrued.le
    have hpaidUp : paid.amount = Decimal.zero ↔ deposit.amount = Decimal.zero ∨
        periodPassed blockTime config unstakeTime = true ∧
          paidInFull config acc.withdrawalAmount deposit = true := by
      rw [← hsame]
      exact hzero
    rw [hinTime, Ne, hpaidUp, staysUnstaking, unstaking]
    simp only [Bool.and_eq_true, decide_eq_true_eq, Bool.not_eq_true', Bool.and_eq_false_imp,
      not_or, not_and, Bool.not_eq_true]
    tauto

theorem withdrawFromDeposit_spec {user : Addr} {skipUnstaking : Bool} (mine : deposit.user = user)
    (done : withdrawFromDeposit blockTime config user skipUnstaking acc deposit = .ok acc') :
    ∃ deposit', Round blockTime config skipUnstaking acc acc' deposit deposit' := by
  cases skipUnstaking with
  | true => exact withdrawFromDeposit_skipping mine done
  | false =>
    cases hunstake : deposit.unstakeTime with
    | none => exact withdrawFromDeposit_staked mine hunstake done
    | some unstakeTime => exact withdrawFromDeposit_unstaking mine hunstake done

end

/-! ## All deposits of a user -/

/-- What the loop does to the deposits. Where all were in time, those it leaves are, when
    it skips the unstaking or clears the deposits that are unstaking. -/
structure Rounds (blockTime : Nat) (config : Config) (user : Addr) (skipUnstaking : Bool)
    (acc acc' : Withdrawal) (deposits deposits' : List Deposit) : Prop where
  capped : acc.total ≤ config.maxIncentives → acc'.total ≤ config.maxIncentives
  appends : acc'.deposits = acc.deposits ++ deposits'
  past : ∀ deposit ∈ deposits', Past blockTime deposit
  returning : acc'.returningDeposit = acc.returningDeposit ∨ ∃ returning,
    acc'.returningDeposit = some returning ∧ Past blockTime returning ∧
      returning.unstakeTime = none
  inTime : (∀ deposit ∈ deposits, InTime deposit) →
    ((∀ deposit ∈ deposits', deposit.amount ≠ Decimal.zero → InTime deposit) ↔
      skipUnstaking = true ∨ clearsUnstaking blockTime config acc.withdrawalAmount
        (deposits.filter fun deposit => deposit.user = user) = true)

section

variable {blockTime : Nat} {config : Config} {user : Addr} {skipUnstaking : Bool}
  {acc mid acc' : Withdrawal} {deposit deposit' : Deposit} {deposits deposits' : List Deposit}

theorem Rounds.cons_other (other : deposit.user ≠ user) (past : Past blockTime deposit)
    (rest : Rounds blockTime config user skipUnstaking
      { acc with deposits := acc.deposits ++ [deposit] } acc' deposits deposits') :
    Rounds blockTime config user skipUnstaking acc acc' (deposit :: deposits)
      (deposit :: deposits') := by
  refine ⟨rest.capped, ?_, ?_, rest.returning, ?_⟩
  · rw [rest.appends, List.append_assoc, List.singleton_append]
  · intro d hmem
    rcases List.mem_cons.mp hmem with rfl | hmem
    · exact past
    · exact rest.past d hmem
  · intro hall
    obtain ⟨hhead, htail⟩ := List.forall_mem_cons.mp hall
    rw [List.filter_cons_of_neg (by simpa using other), ← rest.inTime htail,
      List.forall_mem_cons]
    exact ⟨And.right, fun h => ⟨fun _ => hhead, h⟩⟩

theorem Rounds.cons_mine (mine : deposit.user = user)
    (round : Round blockTime config skipUnstaking acc mid deposit deposit')
    (rest : Rounds blockTime config user skipUnstaking mid acc' deposits deposits') :
    Rounds blockTime config user skipUnstaking acc acc' (deposit :: deposits)
      (deposit' :: deposits') := by
  refine ⟨fun h => rest.capped (round.capped h), ?_, ?_, ?_, ?_⟩
  · rw [rest.appends, round.appends, List.append_assoc, List.singleton_append]
  · intro d hmem
    rcases List.mem_cons.mp hmem with rfl | hmem
    · exact round.past
    · exact rest.past d hmem
  · rcases rest.returning with hsame | hsome
    · rw [hsame]
      exact round.returning
    · exact .inr hsome
  · intro hall
    obtain ⟨-, htail⟩ := List.forall_mem_cons.mp hall
    rw [List.filter_cons_of_pos (by simpa using mine), List.forall_mem_cons, rest.inTime htail]
    cases skipUnstaking with
    | true =>
      have hhead := round.skipped rfl
      simp [hhead]
    | false =>
      have hstays := round.stays rfl
      rw [round.leftOver rfl, clearsUnstaking]
      cases hstay : staysUnstaking blockTime config acc.withdrawalAmount deposit with
      | true =>
        obtain ⟨hsome, hnot⟩ := hstays.mpr hstay
        simp [hsome, hnot]
      | false =>
        have hhead : deposit'.amount ≠ Decimal.zero → InTime deposit' := by
          intro hsome
          by_contra hnot
          rw [hstays.mp ⟨hsome, hnot⟩] at hstay
          cases hstay
        rw [and_iff_right hhead]
        simp

theorem foldlM_withdrawFromDeposit_spec (past : ∀ deposit ∈ deposits, Past blockTime deposit)
    (done : deposits.foldlM (withdrawFromDeposit blockTime config user skipUnstaking) acc =
      .ok acc') :
    ∃ deposits', Rounds blockTime config user skipUnstaking acc acc' deposits deposits' := by
  induction deposits generalizing acc with
  | nil =>
    rw [List.foldlM_nil, pure_eq_ok] at done
    subst done
    refine ⟨[], id, (List.append_nil _).symm, ?_, .inl rfl, ?_⟩
    · intro deposit hmem
      cases hmem
    · simp [clearsUnstaking]
  | cons deposit rest ih =>
    obtain ⟨hpast, hrest⟩ := List.forall_mem_cons.mp past
    rw [List.foldlM_cons, bind_eq_ok] at done
    obtain ⟨mid, hround, hrun⟩ := done
    obtain ⟨rest', hrounds⟩ := ih hrest hrun
    by_cases hmine : deposit.user = user
    · obtain ⟨deposit', hfirst⟩ := withdrawFromDeposit_spec hmine hround
      exact ⟨_, hrounds.cons_mine hmine hfirst⟩
    · rw [withdrawFromDeposit, if_neg hmine, pure_eq_ok] at hround
      subst hround
      exact ⟨_, hrounds.cons_other hmine hpast⟩

end

/-- What taking deposits out leaves: the total stays within its maximum and the times in
    the past. Where all deposits were in time, they are, exactly when the unstaking is
    skipped or the deposits that are unstaking are cleared. -/
theorem withdrawalFromState_spec {blockTime : Nat} {user : Addr} {withdrawalAmount : Decimal}
    {skipUnstaking : Bool} {s s' : State} {withdrawable : Nat}
    (past : ∀ deposit ∈ s.asset.deposits, Past blockTime deposit)
    (done : withdrawalFromState blockTime user withdrawalAmount skipUnstaking s =
      .ok (withdrawable, s')) :
    s'.config = s.config ∧
      (s.incentives ≤ s.config.maxIncentives → s'.incentives ≤ s.config.maxIncentives) ∧
      (∀ deposit ∈ s'.asset.deposits, Past blockTime deposit) ∧
      ((∀ deposit ∈ s.asset.deposits, InTime deposit) →
        ((∀ deposit ∈ s'.asset.deposits, InTime deposit) ↔
          skipUnstaking = true ∨ clearsUnstaking blockTime s.config withdrawalAmount
            (s.asset.deposits.filter fun deposit => deposit.user = user) = true)) := by
  simp only [withdrawalFromState, bind_eq_ok, liftStd_eq_ok] at done
  obtain ⟨result, hloop, -, -, amount, -, hrest⟩ := done
  obtain ⟨deposits', hrounds⟩ := foldlM_withdrawFromDeposit_spec past hloop
  have happends : result.deposits = deposits' := hrounds.appends
  cases herror : result.error with
  | some error =>
    rw [herror] at hrest
    cases hrest
  | none =>
    rw [herror] at hrest
    simp only [bind_eq_ok, pure_eq_ok, Prod.mk.injEq] at hrest
    obtain ⟨users, -, rfl, rfl⟩ := hrest
    -- the deposit at the back of the line is not unstaking
    have hreturning : ∀ deposit ∈ result.returningDeposit.toList,
        Past blockTime deposit ∧ InTime deposit := by
      intro deposit hmem
      rcases hrounds.returning with hnone | ⟨returning, hsome, hpast, hunstaked⟩
      · rw [hnone] at hmem
        cases hmem
      · rw [hsome] at hmem
        obtain rfl := List.mem_singleton.mp hmem
        refine ⟨hpast, ?_⟩
        intro unstakeTime h
        cases hunstaked.symm.trans h
    refine ⟨rfl, hrounds.capped, ?_, ?_⟩
    · intro deposit hmem
      rcases List.mem_append.mp hmem with hmem | hmem
      · rw [happends] at hmem
        exact hrounds.past deposit (List.mem_of_mem_filter hmem)
      · exact (hreturning deposit (List.mem_of_mem_filter hmem)).1
    · intro hall
      rw [← hrounds.inTime hall]
      show (∀ deposit ∈ _ ++ _, InTime deposit) ↔ _
      rw [List.forall_mem_append, happends]
      constructor
      · rintro ⟨hkept, -⟩ deposit hmem hsome
        exact hkept deposit (List.mem_filter.mpr ⟨hmem, by simpa using hsome⟩)
      · intro hkept
        constructor
        · intro deposit hmem
          obtain ⟨hmem, hsome⟩ := List.mem_filter.mp hmem
          exact hkept deposit hmem (by simpa using hsome)
        · intro deposit hmem
          exact (hreturning deposit (List.mem_of_mem_filter hmem)).2

end Membrane.StabilityPool
