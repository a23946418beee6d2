import Membrane.Vesting.Contract

/-!
# What an allocation unlocks

`get_unlocked_amount` before the end of the vesting period and from its end on.
-/

namespace Membrane.Vesting

open Outcome

def Allocation.Vested (allocation : Allocation) (time : Nat) : Prop :=
  allocation.startTimeOfAllocation + allocation.vestingPeriod.cliff * secondsInADay +
    allocation.vestingPeriod.linear * secondsInADay ≤ time

instance (allocation : Allocation) (time : Nat) : Decidable (allocation.Vested time) :=
  inferInstanceAs (Decidable (_ ≤ _))

/-- What unlocking writes to an allocation, and what it unlocks. -/
inductive Unlocked (allocation : Allocation) (time : Nat) : Nat → Allocation → Prop where
  /-- Nothing is unlocked: no amount, or no time past the cliff. -/
  | nothing : Unlocked allocation time 0 allocation
  /-- The part for the time passed, less what was withdrawn. -/
  | part (unlocked : Nat) (bounded : allocation.amountWithdrawn + unlocked ≤ allocation.amount)
      (before : ¬ allocation.Vested time) :
      Unlocked allocation time unlocked
        { allocation with amountWithdrawn := allocation.amountWithdrawn + unlocked }
  /-- All that was not withdrawn, written as if all of the amount was. -/
  | whole (bounded : allocation.amountWithdrawn ≤ allocation.amount)
      (vested : allocation.Vested time) :
      Unlocked allocation time (allocation.amount - allocation.amountWithdrawn)
        { allocation with amountWithdrawn := allocation.amountWithdrawn + allocation.amount }

theorem decimalDivision_ratio_le {numerator denominator : Nat} {ratio : Decimal}
    (smaller : numerator ≤ denominator)
    (divided : decimalDivision ⟨numerator * Decimal.fractional⟩
      ⟨denominator * Decimal.fractional⟩ = .ok ratio) : ratio.atomics ≤ Decimal.fractional := by
  obtain ⟨-, -, rfl⟩ := decimalDivision_eq_ok.mp divided
  refine Nat.div_le_of_le_mul ?_
  exact Nat.mul_le_mul_right _ (Nat.mul_le_mul_right _ smaller)

theorem mul_ratio_le {amount : Nat} {ratio : Decimal}
    (le_one : ratio.atomics ≤ Decimal.fractional) :
    amount * ratio.atomics / Decimal.fractional ≤ amount := by
  refine Nat.div_le_of_le_mul ?_
  rw [Nat.mul_comm]
  exact Nat.mul_le_mul_right _ le_one

theorem getUnlockedAmount_spec {allocation allocation' : Allocation} {time unlocked : Nat}
    (done : getUnlockedAmount allocation time = .ok (unlocked, allocation')) :
    Unlocked allocation time unlocked allocation' := by
  unfold getUnlockedAmount at done
  split at done
  case isTrue =>
    simp only [pure_eq_ok, Prod.mk.injEq] at done
    obtain ⟨rfl, rfl⟩ := done
    exact .nothing
  case isFalse =>
    simp only [bind_eq_ok, subUint_eq_ok, Uint64.mul_eq_ok] at done
    obtain ⟨_, ⟨hstarted, rfl⟩, _, ⟨-, rfl⟩, done⟩ := done
    split at done
    case isTrue =>
      simp only [pure_eq_ok, Prod.mk.injEq] at done
      obtain ⟨rfl, rfl⟩ := done
      exact .nothing
    case isFalse hpast =>
      simp only [bind_eq_ok, Uint64.mul_eq_ok] at done
      obtain ⟨_, ⟨-, rfl⟩, done⟩ := done
      split at done
      case isTrue hbefore =>
        simp only [bind_eq_ok, Uint128.add_eq_ok, pure_eq_ok, Prod.mk.injEq] at done
        obtain ⟨passed, hpassed, period, hperiod, ratio, hratio, newly, hnewly, _, ⟨-, rfl⟩, rfl,
          rfl⟩ := done
        obtain rfl := Decimal.fromRatio_one hpassed
        obtain rfl := Decimal.fromRatio_one hperiod
        have hnot : ¬ allocation.Vested time := by
          unfold Allocation.Vested
          omega
        split at hnewly
        case isTrue =>
          simp only [bind_eq_ok, subUint_eq_ok] at hnewly
          obtain ⟨part, hpart, hle, rfl⟩ := hnewly
          have hbound : part ≤ allocation.amount := by
            rw [Decimal.mulUint_eq_ok hpart]
            exact mul_ratio_le (decimalDivision_ratio_le (Nat.le_of_lt hbefore) hratio)
          exact .part _ (by omega) hnot
        case isFalse =>
          obtain rfl : 0 = newly := by simpa using hnewly
          exact .nothing
      case isFalse hafter =>
        simp only [bind_eq_ok, ofOption_eq_ok, Uint128.checkedSub_eq_some,
          Uint128.add_eq_ok, pure_eq_ok, Prod.mk.injEq] at done
        obtain ⟨_, ⟨hle, rfl⟩, _, ⟨-, rfl⟩, rfl, rfl⟩ := done
        refine .whole hle ?_
        unfold Allocation.Vested
        omega

theorem Unlocked.amount {allocation allocation' : Allocation} {time unlocked : Nat}
    (done : Unlocked allocation time unlocked allocation') :
    allocation'.amount = allocation.amount := by
  cases done <;> rfl

/-- The part of an allocation that was minted, as far as the allocation tells: what
    was withdrawn, and never more than the amount. -/
def Allocation.mintable (allocation : Allocation) : Nat :=
  min allocation.amount allocation.amountWithdrawn

theorem Unlocked.mintable {allocation allocation' : Allocation} {time unlocked : Nat}
    (done : Unlocked allocation time unlocked allocation') :
    allocation'.mintable = allocation.mintable + unlocked := by
  unfold Allocation.mintable
  cases done with
  | nothing => rfl
  | part _ bounded => simp only; omega
  | whole bounded => simp only; omega

end Membrane.Vesting
