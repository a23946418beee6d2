import Membrane.StabilityPool.Proofs.Withdrawing

/-!
# When a withdrawal runs

The arithmetic of `withdrawal_from_state` is checked, and nearly all of it stays in range
while the times are in the past and the amounts fit. What is left is a deposit below the
minimum that less than the minimum is asked of: the minimum is subtracted from it.
-/

namespace Membrane.StabilityPool

open Outcome

/-- A deposit in range: it was accrued in the past, and what it earned can be computed and
    fits next to the maximum of incentives. -/
structure Accruable (blockTime : Nat) (config : Config) (deposit : Deposit) : Prop where
  past : Past blockTime deposit
  earns : ∃ earned, accumulateInterest (tokens (held deposit)) config.incentiveRate
    (accruedSeconds blockTime deposit) = .ok earned ∧ config.maxIncentives + earned < Uint128.limit

def BelowMinimum (minimum : Nat) (deposit : Deposit) (asked : Nat) : Prop :=
  asked ≠ 0 ∧ asked < held deposit ∧ tokens asked < minimum ∧
    held deposit < minimum * Decimal.fractional

instance (minimum : Nat) (deposit : Deposit) (asked : Nat) :
    Decidable (BelowMinimum minimum deposit asked) := inferInstanceAs (Decidable (_ ∧ _))

/-- The loop has accrued without an error and within the maximum. -/
structure Withdrawal.Fine (config : Config) (acc : Withdrawal) : Prop where
  error : acc.error = none
  capped : acc.total ≤ config.maxIncentives
  incentives : acc.mbrnIncentives ≤ acc.total
  isUser : acc.mbrnIncentives ≠ 0 → acc.isUser = true

section

variable {blockTime : Nat} {config : Config} {acc acc' : Withdrawal} {deposit deposit' : Deposit}

theorem accrueIncentives_adds {stake total : Nat} {result : Nat × Deposit × Nat}
    (capped : total ≤ config.maxIncentives)
    (done : accrueIncentives blockTime config stake deposit total = .ok result) :
    total + result.1 = result.2.2 := by
  simp only [accrueIncentives, bind_eq_ok, pure_eq_ok, capIncentives_eq_ok capped] at done
  obtain ⟨_, -, earned, -, _, ⟨-, rfl⟩, rfl⟩ := done
  dsimp only
  omega

theorem bind_runs {ε α β : Type} {x : Outcome ε α} {f : α → Outcome ε β} {a : α} {post : β → Prop}
    (first : x = .ok a) (rest : ∃ b, f a = .ok b ∧ post b) :
    ∃ b, (x >>= f) = .ok b ∧ post b := by
  obtain ⟨b, hrest, hpost⟩ := rest
  exact ⟨b, bind_eq_ok.mpr ⟨a, first, hrest⟩, hpost⟩

theorem accrueInLoop_runs {stake : Nat} (fine : acc.Fine config) (user : acc.isUser = true)
    (past : Past blockTime deposit)
    (earns : ∃ earned, accumulateInterest stake config.incentiveRate
      (accruedSeconds blockTime deposit) = .ok earned ∧
        config.maxIncentives + earned < Uint128.limit) :
    ∃ acc', accrueInLoop blockTime config stake deposit acc =
      .ok ({ deposit with lastAccrued := blockTime }, acc') ∧ acc'.Fine config := by
  obtain ⟨earned, hearned, hfits⟩ := earns
  have hcapped := fine.capped
  obtain ⟨result, hresult⟩ := (accrueIncentives_succeeds fine.capped past).mpr
    ⟨earned, hearned, by omega⟩
  have hadds := accrueIncentives_adds fine.capped hresult
  obtain ⟨haccrued, hwithin⟩ := accrueIncentives_spec hresult
  have hincentives := fine.incentives
  have hsum : acc.mbrnIncentives + result.1 < Uint128.limit := by omega
  refine ⟨{ acc with total := result.2.2, mbrnIncentives := acc.mbrnIncentives + result.1 },
    ?_, ?_⟩
  · refine bind_eq_ok.mpr ⟨_, attempt_eq_ok_ok.mpr hresult, ?_⟩
    refine bind_eq_ok.mpr ⟨_, Uint128.add_eq_ok.mpr ⟨hsum, rfl⟩, ?_⟩
    rw [← haccrued]
    rfl
  · constructor
    · exact fine.error
    · exact hwithin
    · show acc.mbrnIncentives + result.1 ≤ result.2.2
      omega
    · exact fun _ => user

theorem accrueInLoop_over {stake earned : Nat} (exceeded : config.maxIncentives < acc.total)
    (past : Past blockTime deposit)
    (earns : accumulateInterest stake config.incentiveRate (accruedSeconds blockTime deposit) =
      .ok earned) (result : Deposit × Withdrawal) :
    accrueInLoop blockTime config stake deposit { acc with isUser := true } ≠ .ok result := by
  intro done
  obtain ⟨_, hattempt, -⟩ := bind_eq_ok.mp done
  rw [accrueIncentives_panics exceeded past earns] at hattempt
  cases hattempt

theorem mulUint_runs {a : Decimal} (fits : a.atomics < Uint128.limit) :
    (Decimal.mulUint 1 a : Outcome StdError Nat) = .ok (tokens a.atomics) := by
  rw [Decimal.mulUint_ok_iff, Nat.one_mul]
  exact ⟨Nat.lt_of_le_of_lt (Nat.div_le_self _ _) fits, rfl⟩

theorem unstakeAmount_runs (fits : held deposit < Uint128.limit) (less : acc.asked < held deposit)
    (asked : acc.asked ≠ 0)
    (enough : ¬ BelowMinimum config.minimumDepositAmount deposit acc.asked) :
    ∃ amount, unstakeAmount config deposit acc.withdrawalAmount = .ok amount := by
  have hasked := mulUint_runs (a := acc.withdrawalAmount) (Nat.lt_trans less fits)
  apply bind_succeeds hasked
  by_cases short : tokens acc.asked < config.minimumDepositAmount
  · rw [if_pos (show tokens acc.withdrawalAmount.atomics < _ from short)]
    have hlarge : config.minimumDepositAmount * Decimal.fractional ≤ held deposit :=
      Nat.le_of_not_lt fun h => enough ⟨asked, less, short, h⟩
    have hminimum : (Decimal.fromRatio config.minimumDepositAmount 1 : Outcome StdError Decimal) =
        .ok ⟨config.minimumDepositAmount * Decimal.fractional⟩ := by
      rw [Decimal.fromRatio_eq_ok, Nat.div_one]
      exact ⟨Nat.one_ne_zero, Nat.lt_of_le_of_lt hlarge fits, rfl⟩
    apply bind_succeeds hminimum
    exact bind_succeeds (Decimal.sub_eq_ok.mpr ⟨hlarge, rfl⟩) ⟨_, rfl⟩
  · rw [if_neg (show ¬ tokens acc.withdrawalAmount.atomics < _ from short)]
    exact ⟨_, rfl⟩

theorem unstakeAmount_enough {amount : Decimal}
    (done : unstakeAmount config deposit acc.withdrawalAmount = .ok amount) :
    ¬ BelowMinimum config.minimumDepositAmount deposit acc.asked := by
  rintro ⟨-, -, short, small⟩
  simp only [unstakeAmount, bind_eq_ok] at done
  obtain ⟨asked, hasked, hrest⟩ := done
  have hfloor := Decimal.mulUint_eq_ok hasked
  rw [Nat.one_mul] at hfloor
  rw [hfloor, if_pos (show acc.withdrawalAmount.atomics / Decimal.fractional <
    config.minimumDepositAmount from short)] at hrest
  simp only [bind_eq_ok, Decimal.sub_eq_ok] at hrest
  obtain ⟨minimum, hminimum, left, ⟨hle, -⟩, -⟩ := hrest
  obtain rfl := Decimal.fromRatio_one hminimum
  exact Nat.not_lt_of_le hle small

theorem beginUnstaking_runs (fits : held deposit < Uint128.limit)
    (enough : ¬ BelowMinimum config.minimumDepositAmount deposit acc.asked) :
    ∃ result, beginUnstaking blockTime config deposit acc = .ok result := by
  unfold beginUnstaking
  split
  case isTrue h =>
    have hasked : acc.asked ≠ 0 := ne_zero_iff.mp h.2
    obtain ⟨amount, hamount⟩ := unstakeAmount_runs fits h.1 hasked enough
    have hle : amount.atomics ≤ held deposit := by
      rw [unstakeAmount_spec hamount]
      apply unstakePart_le h.1
      intro short
      exact Nat.le_of_not_lt fun small => enough ⟨hasked, h.1, short, small⟩
    apply bind_succeeds hamount
    exact bind_succeeds (Decimal.sub_eq_ok.mpr ⟨hle, rfl⟩) ⟨_, rfl⟩
  case isFalse h =>
    split
    case isTrue hsome =>
      have hle : deposit.amount ≤ acc.withdrawalAmount :=
        Nat.le_of_not_lt fun less => h ⟨less, hsome⟩
      exact bind_succeeds (Decimal.sub_eq_ok.mpr ⟨hle, rfl⟩) ⟨_, rfl⟩
    case isFalse => exact ⟨_, rfl⟩

theorem beginUnstaking_enough {result : Deposit × Withdrawal}
    (done : beginUnstaking blockTime config deposit acc = .ok result) :
    ¬ BelowMinimum config.minimumDepositAmount deposit acc.asked := by
  intro below
  rw [beginUnstaking, if_pos ⟨below.2.1, ne_zero_iff.mpr below.1⟩] at done
  obtain ⟨amount, hamount, -⟩ := bind_eq_ok.mp done
  exact unstakeAmount_enough hamount below

theorem accruedSeconds_now (accrued : deposit.lastAccrued = blockTime) :
    accruedSeconds blockTime deposit = 0 := by
  unfold accruedSeconds
  split
  · rfl
  · rw [accrued, Nat.sub_self]

theorem payOut_runs (withdrawable : Bool) (fine : acc.Fine config) (user : acc.isUser = true)
    (max : config.maxIncentives < Uint128.limit) (past : Past blockTime deposit)
    (accrued : deposit.lastAccrued = blockTime)
    (fits : acc.withdrawableAmount * Decimal.fractional + held deposit < Uint128.limit) :
    ∃ result, payOut blockTime config withdrawable deposit acc = .ok result ∧
      result.2.Fine config := by
  have hheld : held deposit < Uint128.limit := by omega
  have hunit : acc.withdrawableAmount ≤ acc.withdrawableAmount * Decimal.fractional :=
    Nat.le_mul_of_pos_right _ (by decide)
  have htokens : ∀ amount, tokens amount ≤ amount := fun amount => Nat.div_le_self _ _
  unfold payOut
  split
  case isTrue h =>
    have less : acc.asked < held deposit := h.2.1
    have hasked := htokens acc.asked
    have hleft := htokens (held deposit - acc.asked)
    have hpaid : acc.withdrawableAmount + tokens acc.asked < Uint128.limit := by omega
    have hsweep : acc.withdrawableAmount + tokens acc.asked + tokens (held deposit - acc.asked) <
        Uint128.limit := by omega
    have hrest : held deposit - acc.asked < Uint128.limit := by omega
    apply bind_runs (mulUint_runs (a := acc.withdrawalAmount) (Nat.lt_trans less hheld))
    apply bind_runs (Uint128.add_eq_ok.mpr ⟨hpaid, rfl⟩)
    apply bind_runs (Decimal.sub_eq_ok.mpr ⟨Nat.le_of_lt less, rfl⟩)
    apply bind_runs (mulUint_runs (a := ⟨held deposit - acc.asked⟩) hrest)
    have hsplit :
        ∃ kept paid, (if tokens (held deposit - acc.asked) < config.minimumDepositAmount then do
        pure (Decimal.zero, ← Uint128.add (acc.withdrawableAmount + tokens acc.asked)
          (tokens (held deposit - acc.asked)))
        else pure ((⟨held deposit - acc.asked⟩ : Decimal),
          acc.withdrawableAmount + tokens acc.asked) : Outcome StdError (Decimal × Nat)) =
            .ok (kept, paid) := by
      split
      · exact ⟨_, _, bind_eq_ok.mpr ⟨_, Uint128.add_eq_ok.mpr ⟨hsweep, rfl⟩, rfl⟩⟩
      · exact ⟨_, _, rfl⟩
    obtain ⟨kept, paid, hsplit⟩ := hsplit
    apply bind_runs hsplit
    have hpast : Past blockTime { deposit with amount := kept } := ⟨past.accrued, past.unstaking⟩
    have hnow : ({ deposit with amount := kept } : Deposit).lastAccrued = blockTime := accrued
    have hearns : ∃ earned, accumulateInterest (tokens acc.asked) config.incentiveRate
        (accruedSeconds blockTime { deposit with amount := kept }) = .ok earned ∧
          config.maxIncentives + earned < Uint128.limit := by
      rw [accruedSeconds_now hnow]
      exact ⟨0, accumulateInterest_zero _ _, max⟩
    have hfine : ({ acc with withdrawableAmount := paid } : Withdrawal).Fine config :=
      ⟨fine.error, fine.capped, fine.incentives, fine.isUser⟩
    obtain ⟨acc', haccrue, hfine⟩ := accrueInLoop_runs hfine user hpast hearns
    apply bind_runs haccrue
    exact ⟨_, rfl, hfine.error, hfine.capped, hfine.incentives, hfine.isUser⟩
  case isFalse h =>
    split
    case isTrue h' =>
      have hamount := htokens (held deposit)
      have hpaid : acc.withdrawableAmount + tokens (held deposit) < Uint128.limit := by omega
      apply bind_runs (Decimal.sub_eq_ok.mpr ⟨h'.2.1, rfl⟩)
      apply bind_runs (mulUint_runs hheld)
      apply bind_runs (Uint128.add_eq_ok.mpr ⟨hpaid, rfl⟩)
      exact ⟨_, rfl, fine.error, fine.capped, fine.incentives, fine.isUser⟩
    case isFalse => exact ⟨_, rfl, fine⟩

/-! ## The loop -/

def FallsShort (config : Config) (skipUnstaking : Bool) (deposit : Deposit) (asked : Nat) : Prop :=
  skipUnstaking = false ∧ deposit.unstakeTime = none ∧
    BelowMinimum config.minimumDepositAmount deposit asked

instance (config : Config) (skipUnstaking : Bool) (deposit : Deposit) (asked : Nat) :
    Decidable (FallsShort config skipUnstaking deposit asked) := inferInstanceAs (Decidable (_ ∧ _))

variable {user : Addr} {skipUnstaking : Bool}

theorem withdrawFromDeposit_runs (mine : deposit.user = user)
    (accruable : Accruable blockTime config deposit)
    (period : config.unstakingPeriod * secondsPerDay < Uint64.limit)
    (max : config.maxIncentives < Uint128.limit) (fine : acc.Fine config)
    (fits : acc.withdrawableAmount * Decimal.fractional + held deposit < Uint128.limit)
    (enough : ¬ FallsShort config skipUnstaking deposit acc.asked) :
    ∃ acc', withdrawFromDeposit blockTime config user skipUnstaking acc deposit = .ok acc' ∧
      acc'.Fine config := by
  have hheld : held deposit < Uint128.limit := by omega
  have hfine : ({ acc with isUser := true } : Withdrawal).Fine config :=
    ⟨fine.error, fine.capped, fine.incentives, fun _ => rfl⟩
  obtain ⟨acc₁, haccrue, hfine₁⟩ := accrueInLoop_runs hfine rfl accruable.past accruable.earns
  obtain ⟨-, hframe⟩ := accrueInLoop_frame haccrue
  have huser : acc₁.isUser = true := by rw [hframe]
  have hpaid : acc₁.withdrawableAmount = acc.withdrawableAmount := by rw [hframe]
  have hasked : acc₁.asked = acc.asked := by rw [hframe]; rfl
  rw [withdrawFromDeposit, if_pos mine]
  apply bind_runs (mulUint_runs hheld)
  apply bind_runs haccrue
  dsimp only
  cases hskip : skipUnstaking with
  | true =>
    have hpast : Past blockTime
        { deposit with lastAccrued := blockTime, unstakeTime := some blockTime } :=
      ⟨Nat.le_refl _, fun _ h => (Option.some.inj h).ge⟩
    obtain ⟨⟨paid, acc₂⟩, hpay, hfine₂⟩ := payOut_runs true hfine₁ huser max
      hpast rfl (by rw [hpaid]; exact fits)
    apply bind_runs (a := (true, _, acc₁)) rfl
    apply bind_runs hpay
    exact ⟨_, rfl, hfine₂.error, hfine₂.capped, hfine₂.incentives, hfine₂.isUser⟩
  | false =>
    cases hunstake : deposit.unstakeTime with
    | some unstakeTime =>
      have hpast : Past blockTime { deposit with lastAccrued := blockTime } :=
        ⟨Nat.le_refl _, accruable.past.unstaking⟩
      obtain ⟨⟨paid, acc₂⟩, hpay, hfine₂⟩ := payOut_runs
        (periodPassed blockTime config unstakeTime) hfine₁ huser max hpast rfl
        (by rw [hpaid]; exact fits)
      have hunstaking : unstake blockTime config false { deposit with lastAccrued := blockTime }
          acc₁ = .ok (periodPassed blockTime config unstakeTime,
            { deposit with lastAccrued := blockTime }, acc₁) := by
        rw [unstake, if_neg Bool.false_ne_true, hunstake]
        exact bind_eq_ok.mpr ⟨_, subUint_eq_ok.mpr
          ⟨accruable.past.unstaking unstakeTime hunstake, rfl⟩,
          bind_eq_ok.mpr ⟨_, Uint64.mul_eq_ok.mpr ⟨period, rfl⟩, rfl⟩⟩
      rw [hunstake] at hunstaking hpay
      apply bind_runs hunstaking
      apply bind_runs hpay
      exact ⟨_, rfl, hfine₂.error, hfine₂.capped, hfine₂.incentives, hfine₂.isUser⟩
    | none =>
      have henough : ¬ BelowMinimum config.minimumDepositAmount
          { deposit with lastAccrued := blockTime } acc₁.asked := by
        rw [hasked]
        exact fun below => enough ⟨hskip, hunstake, below⟩
      have hruns : ∃ result, beginUnstaking blockTime config
          { deposit with lastAccrued := blockTime } acc₁ = .ok result :=
        beginUnstaking_runs hheld henough
      obtain ⟨⟨begun, acc₂⟩, hbegin⟩ := hruns
      obtain ⟨-, hbegun⟩ := beginUnstaking_turn hbegin
      have hunstaking : unstake blockTime config false { deposit with lastAccrued := blockTime }
          acc₁ = .ok (false, begun, acc₂) := by
        rw [unstake, if_neg Bool.false_ne_true, hunstake]
        rw [hunstake] at hbegin
        exact bind_eq_ok.mpr ⟨_, hbegin, rfl⟩
      rw [hunstake] at hunstaking
      apply bind_runs hunstaking
      apply bind_runs (payOut_idle blockTime config begun acc₂)
      refine ⟨_, rfl, ?_, ?_, ?_, ?_⟩
      · rw [hbegun]
        exact hfine₁.error
      · rw [hbegun]
        exact hfine₁.capped
      · rw [hbegun]
        exact hfine₁.incentives
      · rw [hbegun]
        exact hfine₁.isUser

theorem withdrawFromDeposit_enough (mine : deposit.user = user)
    (done : withdrawFromDeposit blockTime config user skipUnstaking acc deposit = .ok acc') :
    ¬ FallsShort config skipUnstaking deposit acc.asked := by
  rintro ⟨rfl, hunstake, below⟩
  rw [withdrawFromDeposit, if_pos mine] at done
  simp only [bind_eq_ok] at done
  obtain ⟨stake, -, ⟨accrued, acc₁⟩, haccrue, ⟨withdrawable, begun, acc₂⟩, hunstaking, -⟩ := done
  obtain ⟨rfl, hframe⟩ := accrueInLoop_frame haccrue
  obtain ⟨-, hbegin⟩ := unstake_staked hunstaking hunstake
  have hasked : acc₁.asked = acc.asked := by rw [hframe]; rfl
  have henough := beginUnstaking_enough hbegin
  rw [hasked] at henough
  exact henough below

theorem turnOf_paid_le (blockTime : Nat) (config : Config) (skipUnstaking : Bool)
    (deposit : Deposit)
    (asked : Nat) :
    (turnOf blockTime config skipUnstaking deposit asked).paid * Decimal.fractional ≤
      held deposit := by
  have hnothing : 0 * Decimal.fractional ≤ held deposit := by
    rw [Nat.zero_mul]
    exact Nat.zero_le _
  unfold turnOf
  split
  case isTrue =>
    exact Nat.le_trans (Nat.le_add_left _ _)
      (payTurn_spec config.minimumDepositAmount (held deposit) asked).1
  case isFalse =>
    split
    case isTrue => exact hnothing
    case isFalse =>
      unfold unstakeTurn idleTurn
      split
      case isTrue => exact hnothing
      case isFalse => split <;> exact hnothing

theorem foldlM_withdrawFromDeposit_runs
    (period : config.unstakingPeriod * secondsPerDay < Uint64.limit)
    (max : config.maxIncentives < Uint128.limit) : ∀ {deposits : List Deposit} {acc : Withdrawal},
    (∀ deposit ∈ depositsOf user deposits, Accruable blockTime config deposit) → acc.Fine config →
    acc.withdrawableAmount * Decimal.fractional + heldIn (depositsOf user deposits) <
      Uint128.limit →
    (∀ entry ∈ turns blockTime config skipUnstaking acc.asked (depositsOf user deposits),
      ¬ FallsShort config skipUnstaking entry.1 entry.2) →
    ∃ acc', deposits.foldlM (withdrawFromDeposit blockTime config user skipUnstaking) acc =
      .ok acc' ∧
      acc'.Fine config := by
  intro deposits
  induction deposits with
  | nil => exact fun _ fine _ _ => ⟨_, rfl, fine⟩
  | cons deposit rest ih =>
    intro acc accruable fine fits enough
    rw [List.foldlM_cons]
    by_cases hmine : deposit.user = user
    · have hhead : depositsOf user (deposit :: rest) = deposit :: depositsOf user rest :=
        List.filter_cons_of_pos (by simpa using hmine)
      rw [hhead] at accruable fits enough
      rw [turns] at enough
      have hsum : heldIn (deposit :: depositsOf user rest) =
          held deposit + heldIn (depositsOf user rest) := by
        rw [heldIn, List.map_cons, List.sum_cons, heldIn]
      rw [hsum] at fits
      obtain ⟨mid, hround, hfine⟩ := withdrawFromDeposit_runs hmine
        (accruable deposit List.mem_cons_self) period max fine (by omega)
        (enough _ List.mem_cons_self)
      have hturn := withdrawFromDeposit_turn hmine hround
      have hpaid := turnOf_paid_le blockTime config skipUnstaking deposit acc.asked
      apply bind_runs hround
      apply ih (fun other mem => accruable other (List.mem_cons_of_mem _ mem)) hfine
      · rw [hturn.paid, Nat.add_mul]
        omega
      · rw [hturn.asked]
        exact fun entry mem => enough entry (List.mem_cons_of_mem _ mem)
    · have hhead : depositsOf user (deposit :: rest) = depositsOf user rest :=
        List.filter_cons_of_neg (by simpa using hmine)
      rw [hhead] at accruable fits enough
      apply bind_runs (a := { acc with deposits := acc.deposits ++ [deposit] })
        (by rw [withdrawFromDeposit, if_neg hmine]; rfl)
      exact ih accruable ⟨fine.error, fine.capped, fine.incentives, fine.isUser⟩ fits enough

theorem foldlM_withdrawFromDeposit_idle : ∀ {deposits : List Deposit} (acc : Withdrawal),
    depositsOf user deposits = [] →
    deposits.foldlM (withdrawFromDeposit blockTime config user skipUnstaking) acc =
      .ok { acc with deposits := acc.deposits ++ deposits } := by
  intro deposits
  induction deposits with
  | nil =>
    intro acc _
    rw [List.append_nil]
    rfl
  | cons deposit rest ih =>
    intro acc none
    have hother : deposit.user ≠ user := fun mine =>
      List.filter_eq_nil_iff.mp none deposit List.mem_cons_self (decide_eq_true mine)
    have hrest : depositsOf user rest = [] := by
      rw [← none]
      exact (List.filter_cons_of_neg (by simpa using hother)).symm
    have hround : withdrawFromDeposit blockTime config user skipUnstaking acc deposit =
        .ok { acc with deposits := acc.deposits ++ [deposit] } := by
      rw [withdrawFromDeposit, if_neg hother]
      rfl
    rw [List.foldlM_cons, hround]
    refine (ih _ hrest).trans ?_
    rw [List.append_assoc]
    rfl

theorem foldlM_withdrawFromDeposit_over : ∀ {deposits : List Deposit} {acc : Withdrawal},
    (∀ deposit ∈ depositsOf user deposits, Accruable blockTime config deposit) →
    config.maxIncentives < acc.total → depositsOf user deposits ≠ [] → ∀ acc' : Withdrawal,
    deposits.foldlM (withdrawFromDeposit blockTime config user skipUnstaking) acc ≠ .ok acc' := by
  intro deposits
  induction deposits with
  | nil => exact fun _ _ owns => absurd rfl owns
  | cons deposit rest ih =>
    intro acc accruable exceeded owns acc' done
    rw [List.foldlM_cons] at done
    obtain ⟨mid, hround, hrun⟩ := bind_eq_ok.mp done
    by_cases hmine : deposit.user = user
    · have hhead : depositsOf user (deposit :: rest) = deposit :: depositsOf user rest :=
        List.filter_cons_of_pos (by simpa using hmine)
      rw [hhead] at accruable
      obtain ⟨hpast, earned, hearned, -⟩ := accruable deposit List.mem_cons_self
      rw [withdrawFromDeposit, if_pos hmine] at hround
      obtain ⟨stake, hstake, hround⟩ := bind_eq_ok.mp hround
      obtain ⟨accrued, haccrue, -⟩ := bind_eq_ok.mp hround
      obtain rfl : stake = tokens (held deposit) :=
        (Decimal.mulUint_eq_ok hstake).trans (by rw [Nat.one_mul]; rfl)
      exact accrueInLoop_over exceeded hpast hearned accrued haccrue
    · have hhead : depositsOf user (deposit :: rest) = depositsOf user rest :=
        List.filter_cons_of_neg (by simpa using hmine)
      rw [hhead] at accruable owns
      rw [withdrawFromDeposit, if_neg hmine] at hround
      obtain rfl := pure_eq_ok.mp hround
      refine ih accruable ?_ owns acc' hrun
      exact exceeded

theorem foldlM_withdrawFromDeposit_enough : ∀ {deposits : List Deposit} {acc acc' : Withdrawal},
    deposits.foldlM (withdrawFromDeposit blockTime config user skipUnstaking) acc = .ok acc' →
    ∀ entry ∈ turns blockTime config skipUnstaking acc.asked (depositsOf user deposits),
      ¬ FallsShort config skipUnstaking entry.1 entry.2 := by
  intro deposits
  induction deposits with
  | nil => exact fun _ entry mem => (List.not_mem_nil mem).elim
  | cons deposit rest ih =>
    intro acc acc' done entry mem
    rw [List.foldlM_cons] at done
    obtain ⟨mid, hround, hrun⟩ := bind_eq_ok.mp done
    by_cases hmine : deposit.user = user
    · have hhead : depositsOf user (deposit :: rest) = deposit :: depositsOf user rest :=
        List.filter_cons_of_pos (by simpa using hmine)
      rw [hhead, turns] at mem
      rcases List.mem_cons.mp mem with rfl | mem
      · exact withdrawFromDeposit_enough hmine hround
      · rw [← (withdrawFromDeposit_turn hmine hround).asked] at mem
        exact ih hrun entry mem
    · have hhead : depositsOf user (deposit :: rest) = depositsOf user rest :=
        List.filter_cons_of_neg (by simpa using hmine)
      rw [withdrawFromDeposit, if_neg hmine] at hround
      obtain rfl := pure_eq_ok.mp hround
      rw [hhead] at mem
      exact ih hrun entry mem

/-! ## The loop returns no error value -/

theorem accrueInLoop_errorless (stake : Nat) (deposit : Deposit) (acc : Withdrawal) :
    Errorless (accrueInLoop blockTime config stake deposit acc) := by
  apply Errorless.bind (.attempt _)
  intro result
  cases result with
  | ok result => exact .bind (Uint128.add_errorless _ _) fun _ => .pure _
  | error => exact .pure _

theorem beginUnstaking_errorless (deposit : Deposit) (acc : Withdrawal) :
    Errorless (beginUnstaking blockTime config deposit acc) := by
  apply Errorless.ite
  · apply Errorless.bind
    · apply Errorless.bind (Decimal.mulUint_errorless _ _)
      intro asked
      apply Errorless.ite _ (.pure _)
      apply Errorless.bind (Decimal.fromRatio_errorless _ _)
      exact fun _ => .bind (Decimal.sub_errorless _ _) fun _ => .pure _
    · exact fun _ => .bind (Decimal.sub_errorless _ _) fun _ => .pure _
  · apply Errorless.ite _ (.pure _)
    exact .bind (Decimal.sub_errorless _ _) fun _ => .pure _

theorem unstake_errorless (deposit : Deposit) (acc : Withdrawal) :
    Errorless (unstake blockTime config skipUnstaking deposit acc) := by
  apply Errorless.ite (.pure _)
  cases deposit.unstakeTime with
  | none => exact .bind (beginUnstaking_errorless _ _) fun _ => .pure _
  | some unstakeTime =>
    exact .bind (subUint_errorless _ _) fun _ =>
      .bind (.ite (.pure _) .abort) fun _ => .pure _

theorem payOut_errorless (withdrawable : Bool) (deposit : Deposit) (acc : Withdrawal) :
    Errorless (payOut blockTime config withdrawable deposit acc) := by
  apply Errorless.ite
  · apply Errorless.bind (Decimal.mulUint_errorless _ _)
    intro asked
    apply Errorless.bind (Uint128.add_errorless _ _)
    intro paid
    apply Errorless.bind (Decimal.sub_errorless _ _)
    intro left
    apply Errorless.bind (Decimal.mulUint_errorless _ _)
    intro leftover
    apply Errorless.bind
    · exact .ite (.bind (Uint128.add_errorless _ _) fun _ => .pure _) (.pure _)
    · exact fun _ => .bind (accrueInLoop_errorless _ _ _) fun _ => .pure _
  · apply Errorless.ite _ (.pure _)
    apply Errorless.bind (Decimal.sub_errorless _ _)
    intro rest
    apply Errorless.bind (Decimal.mulUint_errorless _ _)
    exact fun _ => .bind (Uint128.add_errorless _ _) fun _ => .pure _

theorem withdrawFromDeposit_errorless (acc : Withdrawal) (deposit : Deposit) :
    Errorless (withdrawFromDeposit blockTime config user skipUnstaking acc deposit) := by
  apply Errorless.ite _ (.pure _)
  apply Errorless.bind (Decimal.mulUint_errorless _ _)
  intro stake
  apply Errorless.bind (accrueInLoop_errorless _ _ _)
  intro accrued
  apply Errorless.bind (unstake_errorless _ _)
  exact fun _ => .bind (payOut_errorless _ _ _) fun _ => .pure _

end

end Membrane.StabilityPool
