import Membrane.Lib.ConversionLoss
import Membrane.LiqQueue.Proofs.Sizing
import Membrane.Prices
import Membrane.Std.TextRoundTrip
import Mathlib.Tactic.NormNum

/-!
# Conversions at a price

An amount converted to its value and back never grows, and neither does a value converted to
its amount and back. With at most 18 decimals the loss is small: a unit and what the atomics
lost on the way are worth. The conversions of 256 bits give what those of 128 bits give.
-/

namespace Membrane.LiqQueue

open Outcome

/-- An amount converted to its value and back loses less than a unit and the truncated parts
    of the value and of the quotient. -/
def AmountsReturn (self : PriceResponse) : Prop :=
  ∀ (amount : Nat) (value : Decimal) (back : Nat),
    self.getValue amount = .ok value → self.getAmount value = .ok back →
      0 ≤ (amount : ℚ) - back ∧
        (amount : ℚ) - back < 1 + 10 ^ ((self.decimals : ℤ) - 18) * (1 + 1 / self.price.toRat)

/-- A value converted to its amount and back loses less than an atomic and what a unit and an
    atomic of the asset are worth. -/
def ValuesReturn (self : PriceResponse) : Prop :=
  ∀ (value : Decimal) (amount : Nat) (back : Decimal),
    self.getAmount value = .ok amount → self.getValue amount = .ok back →
      0 ≤ value.toRat - back.toRat ∧
        value.toRat - back.toRat <
          self.price.toRat * (10 ^ (-(self.decimals : ℤ)) + 10 ^ (-18 : ℤ)) + 10 ^ (-18 : ℤ)

/-- Where the conversions of 128 bits have a result, those of 256 bits have the same. -/
def AgreesWide (self : PriceResponse) : Prop :=
  (∀ (amount : Nat) (value : Decimal), self.getValue amount = .ok value →
    (toDecimal256 self).getValue amount = .ok ⟨value.atomics⟩) ∧
  ∀ (value : Decimal) (amount : Nat), self.getAmount value = .ok amount →
    (toDecimal256 self).getAmount ⟨value.atomics⟩ = .ok amount

variable {self : PriceResponse}

theorem fractional_eq : Decimal.fractional = 10 ^ 18 := by decide

theorem fractional_cast : (Decimal.fractional : ℚ) = 10 ^ (18 : ℤ) := by
  rw [fractional_eq]
  norm_num

theorem unit_eq (decimals : self.decimals ≤ 18) : self.unit = 10 ^ self.decimals := by
  unfold PriceResponse.unit
  rw [Nat.mod_eq_of_lt (by omega)]

theorem unit_dvd (decimals : self.decimals ≤ 18) : self.unit ∣ Decimal.fractional := by
  rw [unit_eq decimals, fractional_eq]
  exact pow_dvd_pow 10 decimals

theorem amounts_return (positive : 0 < self.price.atomics) (decimals : self.decimals ≤ 18) :
    AmountsReturn self := by
  intro amount value back hvalue hback
  obtain ⟨-, -, -, rfl⟩ := PriceResponse.getValue_eq_ok.mp hvalue
  obtain ⟨-, -, -, -, rfl⟩ := PriceResponse.getAmount_eq_ok.mp hback
  have hparts : 0 < Decimal.fractional := by decide
  have hle : self.amountOf (self.valueOf amount) ≤ amount :=
    truncAmount_truncValue_le amount hparts positive le_rfl
  have hloss := truncAmount_truncValue_loss amount hparts PriceResponse.unit_pos positive
    (unit_dvd decimals)
  constructor
  · rw [sub_nonneg]
    exact_mod_cast hle
  · have hunit : (self.unit : ℚ) / Decimal.fractional = 10 ^ ((self.decimals : ℤ) - 18) := by
      rw [unit_eq decimals, fractional_cast, zpow_sub₀ (by norm_num)]
      norm_num
    have hprice : (Decimal.fractional : ℚ) / self.price.atomics = 1 / self.price.toRat := by
      rw [Decimal.toRat, one_div_div]
    rw [hunit, hprice] at hloss
    exact hloss

theorem values_return (positive : 0 < self.price.atomics) (decimals : self.decimals ≤ 18) :
    ValuesReturn self := by
  intro value amount back hamount hback
  obtain ⟨-, -, -, -, rfl⟩ := PriceResponse.getAmount_eq_ok.mp hamount
  obtain ⟨-, -, -, rfl⟩ := PriceResponse.getValue_eq_ok.mp hback
  have hparts : 0 < Decimal.fractional := by decide
  have hcast : (0 : ℚ) < Decimal.fractional := by exact_mod_cast hparts
  have hle : self.valueOf (self.amountOf value.atomics) ≤ value.atomics :=
    truncValue_truncAmount_le value.atomics hparts PriceResponse.unit_pos
  have hloss := truncValue_truncAmount_loss value.atomics hparts PriceResponse.unit_pos positive
    (unit_dvd decimals)
  have hdiff : value.toRat - Decimal.toRat ⟨self.valueOf (self.amountOf value.atomics)⟩ =
      ((value.atomics : ℚ) - self.valueOf (self.amountOf value.atomics)) / Decimal.fractional :=
    (sub_div _ _ _).symm
  rw [hdiff]
  constructor
  · apply div_nonneg
    · rw [sub_nonneg]
      exact_mod_cast hle
    · exact hcast.le
  · have hunit : (1 : ℚ) / self.unit = 10 ^ (-(self.decimals : ℤ)) := by
      rw [unit_eq decimals, zpow_neg, one_div]
      norm_num
    have hatomic : (1 : ℚ) / Decimal.fractional = 10 ^ (-18 : ℤ) := by
      rw [fractional_cast, zpow_neg, one_div]
    have hprice : (self.price.atomics : ℚ) = self.price.toRat * Decimal.fractional := by
      rw [Decimal.toRat, div_mul_cancel₀ _ hcast.ne']
    rw [hunit, hatomic, hprice] at hloss
    rw [div_lt_iff₀ hcast]
    calc (value.atomics : ℚ) - self.valueOf (self.amountOf value.atomics)
        < self.price.toRat * Decimal.fractional *
            (10 ^ (-(self.decimals : ℤ)) + 10 ^ (-18 : ℤ)) + 1 := hloss
      _ = self.price.toRat * (10 ^ (-(self.decimals : ℤ)) + 10 ^ (-18 : ℤ)) *
            Decimal.fractional + 10 ^ (-18 : ℤ) * Decimal.fractional := by
          rw [← hatomic, one_div_mul_cancel hcast.ne']
          ring
      _ = (self.price.toRat * (10 ^ (-(self.decimals : ℤ)) + 10 ^ (-18 : ℤ)) + 10 ^ (-18 : ℤ)) *
            Decimal.fractional := by ring

theorem lt_wide_of_div_lt {n divisor : Nat} (positive : 0 < divisor)
    (small : divisor ≤ Uint128.limit) (fits : n / divisor < Uint128.limit) : n < Uint256.limit := by
  have hlt : n < Uint128.limit * divisor := (Nat.div_lt_iff_lt_mul positive).mp fits
  calc n
      < Uint128.limit * divisor := hlt
    _ ≤ Uint128.limit * Uint128.limit := Nat.mul_le_mul_left _ small
    _ = Uint256.limit := by decide

theorem unit_small (decimals : self.decimals % 2 ^ 32 < 20) : self.unit ≤ Uint128.limit := by
  calc self.unit
      ≤ 10 ^ 20 := Nat.pow_le_pow_right (by decide) (by omega)
    _ ≤ Uint128.limit := by decide

theorem agrees_wide (fits : self.price.atomics < Uint128.limit) : AgreesWide self := by
  constructor
  · intro amount value done
    obtain ⟨hdecimals, hscaled, hfits, rfl⟩ := PriceResponse.getValue_eq_ok.mp done
    refine PriceResponse256.getValue_eq_ok.mpr ⟨hdecimals, ?_, ?_, rfl⟩
    · exact lt_wide_of_div_lt PriceResponse.unit_pos (unit_small hdecimals) hscaled
    · exact lt_wide_of_div_lt (by decide) (by decide) hfits
  · intro value amount done
    obtain ⟨hprice, hscaled, hdecimals, hfits, rfl⟩ := PriceResponse.getAmount_eq_ok.mp done
    refine PriceResponse256.getAmount_eq_ok.mpr ⟨hprice, ?_, hdecimals, ?_, rfl⟩
    · exact lt_wide_of_div_lt (Nat.pos_of_ne_zero hprice) fits.le hscaled
    · exact lt_wide_of_div_lt (by decide) (by decide) hfits

/-- Conversions lose in one direction only, and little: at a positive price of an asset with
    at most 18 decimals, what is converted and converted back is no more than it was and within
    the truncations of it. The conversions of 256 bits agree. -/
theorem conversions_lose_little (self : PriceResponse) (fits : self.price.atomics < Uint128.limit)
    (positive : 0 < self.price.atomics) (decimals : self.decimals ≤ 18) :
    AmountsReturn self ∧ ValuesReturn self ∧ AgreesWide self :=
  ⟨amounts_return positive decimals, values_return positive decimals, agrees_wide fits⟩

/-- At a price of three for an asset with six decimals, where one is converted to 333333 units
    and back to 0.999999. -/
theorem conversions_lose_little_three :
    (AmountsReturn ⟨Decimal.ofNat 3, 6⟩ ∧ ValuesReturn ⟨Decimal.ofNat 3, 6⟩ ∧
      AgreesWide ⟨Decimal.ofNat 3, 6⟩) ∧
      PriceResponse.getAmount ⟨Decimal.ofNat 3, 6⟩ Decimal.one = .ok 333333 ∧
        PriceResponse.getValue ⟨Decimal.ofNat 3, 6⟩ 333333 = .ok ⟨999999000000000000⟩ :=
  ⟨conversions_lose_little ⟨Decimal.ofNat 3, 6⟩ (by decide) (by decide) (by decide),
    by decide +kernel, by decide +kernel⟩

end Membrane.LiqQueue
