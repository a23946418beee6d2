import Membrane.Lib.Truncation
import Membrane.Types

/-!
# Values and amounts at a price

What `get_value` and `get_amount` compute, and when: both scale by a power of ten and
truncate, and both fail where a number does not fit 128 bits.
-/

namespace Membrane

open Outcome

namespace PriceResponse

variable {self : PriceResponse}

def unit (self : PriceResponse) : Nat := 10 ^ (self.decimals % 2 ^ 32)

def valueOf (self : PriceResponse) (amount : Nat) : Nat :=
  truncValue Decimal.fractional self.unit self.price.atomics amount

def amountOf (self : PriceResponse) (value : Nat) : Nat :=
  truncAmount Decimal.fractional self.unit self.price.atomics value

/-- The value of an amount in atomics, rounded up. -/
def valueUp (self : PriceResponse) (amount : Nat) : Nat :=
  ceilValue Decimal.fractional self.unit self.price.atomics amount

/-- The amount for a value in atomics, rounded up. -/
def amountUp (self : PriceResponse) (value : Nat) : Nat :=
  ceilValue Decimal.fractional self.price.atomics self.unit value

theorem unit_pos : 0 < self.unit := Nat.pow_pos (by decide)

theorem le_amountOf_iff (priced : self.price.atomics ≠ 0) {amount value : Nat} :
    amount ≤ self.amountOf value ↔ self.valueUp amount ≤ value :=
  le_truncAmount_iff (by decide) unit_pos (Nat.pos_of_ne_zero priced)

theorem le_valueOf_iff (priced : self.price.atomics ≠ 0) {value amount : Nat} :
    value ≤ self.valueOf amount ↔ self.amountUp value ≤ amount :=
  le_truncAmount_iff (by decide) (Nat.pos_of_ne_zero priced) unit_pos

theorem unit_aligned (self : PriceResponse) :
    self.unit ∣ Decimal.fractional ∨ Decimal.fractional ∣ self.unit := by
  have hten : Decimal.fractional = 10 ^ 18 := by decide
  rw [hten, unit]
  by_cases h : self.decimals % 2 ^ 32 ≤ 18
  · exact .inl (pow_dvd_pow 10 h)
  · exact .inr (pow_dvd_pow 10 (by omega))

theorem getValue_eq_ok {amount : Nat} {value : Decimal} :
    self.getValue amount = .ok value ↔
      self.decimals % 2 ^ 32 < 20 ∧ amount * Decimal.fractional / self.unit < Uint128.limit ∧
        self.valueOf amount < Uint128.limit ∧ ⟨self.valueOf amount⟩ = value := by
  simp only [getValue, bind_eq_ok, Uint64.tenPow_eq_ok, Decimal.fromRatio_eq_ok,
    decimalMultiplication_eq_ok]
  constructor
  · rintro ⟨_, ⟨hdecimals, rfl⟩, _, ⟨-, hscaled, rfl⟩, hfits, rfl⟩
    exact ⟨hdecimals, hscaled, hfits, rfl⟩
  · rintro ⟨hdecimals, hscaled, hfits, rfl⟩
    exact ⟨_, ⟨hdecimals, rfl⟩, _, ⟨Nat.pos_iff_ne_zero.mp unit_pos, hscaled, rfl⟩, hfits, rfl⟩

theorem getAmount_eq_ok {value : Decimal} {amount : Nat} :
    self.getAmount value = .ok amount ↔
      self.price.atomics ≠ 0 ∧
        value.atomics * Decimal.fractional / self.price.atomics < Uint128.limit ∧
          self.decimals % 2 ^ 32 < 20 ∧ self.amountOf value.atomics < Uint128.limit ∧
            self.amountOf value.atomics = amount := by
  simp only [getAmount, bind_eq_ok, Uint64.tenPow_eq_ok, decimalDivision_eq_ok,
    Decimal.mulUint_ok_iff]
  constructor
  · rintro ⟨_, ⟨hprice, hscaled, rfl⟩, _, ⟨hdecimals, rfl⟩, hfits, rfl⟩
    exact ⟨hprice, hscaled, hdecimals, hfits, rfl⟩
  · rintro ⟨hprice, hscaled, hdecimals, hfits, rfl⟩
    exact ⟨_, ⟨hprice, hscaled, rfl⟩, _, ⟨hdecimals, rfl⟩, hfits, rfl⟩

theorem valueOf_zero : self.valueOf 0 = 0 := by
  simp [valueOf, truncValue]

end PriceResponse

end Membrane
