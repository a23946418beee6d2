import Membrane.Std.Decimal
import Membrane.Std.Decimal256
import Mathlib.Algebra.Order.Floor.Semifield
import Mathlib.Data.Rat.Floor

/-!
# The numbers of decimals

The rational number that a decimal stands for, and its products with integers.
-/

namespace Membrane

def Decimal.toRat (a : Decimal) : ℚ := a.atomics / Decimal.fractional

/-- The number that a decimal of 256 bits stands for. -/
def Decimal256.toRat (a : Decimal256) : ℚ := a.atomics / Decimal256.fractional

theorem Decimal.toRat_nonneg (a : Decimal) : 0 ≤ a.toRat :=
  div_nonneg (Nat.cast_nonneg _) (Nat.cast_nonneg _)

theorem floor_mul_toRat (n : Nat) (a : Decimal) :
    ⌊(n : ℚ) * a.toRat⌋₊ = n * a.atomics / Decimal.fractional := by
  rw [Decimal.toRat, ← mul_div_assoc, ← Nat.cast_mul, Nat.floor_div_natCast, Nat.floor_natCast]

end Membrane
