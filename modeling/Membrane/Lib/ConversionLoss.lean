import Membrane.Lib.Truncation
import Mathlib.Algebra.Order.BigOperators.GroupWithZero.List
import Mathlib.Algebra.Order.Floor.Semifield
import Mathlib.Data.Rat.Floor
import Mathlib.Tactic.FieldSimp
import Mathlib.Tactic.Linarith

/-!
# What roundings lose

An amount converted to its truncated value and back, or a value to its truncated amount and
back, comes back no larger. Where a unit is a whole number of parts the scaling of an amount
is exact, and what is lost is bounded by one step of each of the other truncations, carried
through the steps after it. A product of several factors that is rounded down after every
factor is at most the exact product, and what a rounding loses is carried on by the factors
after it.
-/

namespace Membrane

variable {parts unit price : Nat}

/-! ## Conversions -/

theorem cast_div_lt_add_one {divisor : Nat} (n : Nat) (positive : 0 < divisor) :
    (n : ℚ) < ((n / divisor : Nat) + 1) * divisor := by
  have hlt : n < (n / divisor + 1) * divisor := by
    rw [Nat.mul_comm]
    exact Nat.lt_mul_div_succ n positive
  exact_mod_cast hlt

theorem truncValue_truncAmount_le (value : Nat) (positive : 0 < parts) (positive' : 0 < unit) :
    truncValue parts unit price (truncAmount parts unit price value) ≤ value := by
  refine Nat.le_of_mul_le_mul_right ?_ positive'
  calc truncValue parts unit price (truncAmount parts unit price value) * unit
      ≤ price * truncAmount parts unit price value := truncValue_mul_le _ positive
    _ = truncAmount parts unit price value * price := Nat.mul_comm _ _
    _ ≤ value * unit := truncAmount_mul_le value positive

theorem truncAmount_truncValue_loss (amount : Nat) (positive : 0 < parts) (positive' : 0 < unit)
    (priced : 0 < price) (aligned : unit ∣ parts) :
    (amount : ℚ) - truncAmount parts unit price (truncValue parts unit price amount) <
      1 + unit / parts * (1 + parts / price) := by
  obtain ⟨factor, rfl⟩ := aligned
  have hunit : (0 : ℚ) < unit := by exact_mod_cast positive'
  have hprice : (0 : ℚ) < price := by exact_mod_cast priced
  have hfactor : (0 : ℚ) < factor := by exact_mod_cast Nat.pos_of_mul_pos_left positive
  have hscaled : amount * (unit * factor) / unit = amount * factor := by
    rw [Nat.mul_left_comm, Nat.mul_div_cancel_left _ positive']
  unfold truncAmount truncValue
  rw [hscaled]
  have hvalue := cast_div_lt_add_one (price * (amount * factor)) positive
  generalize price * (amount * factor) / (unit * factor) = value at hvalue ⊢
  have hquotient := cast_div_lt_add_one (value * (unit * factor)) priced
  generalize value * (unit * factor) / price = quotient at hquotient ⊢
  have hback := cast_div_lt_add_one (unit * quotient) positive
  generalize unit * quotient / (unit * factor) = back at hback ⊢
  push_cast at hvalue hquotient hback ⊢
  -- What each truncation leaves, in units of the amount.
  have hexact : (amount : ℚ) < (value + 1) * unit / price := by
    rw [lt_div_iff₀ hprice]
    nlinarith
  have hwhole : (value : ℚ) * unit / price < (quotient + 1) / factor := by
    rw [div_lt_div_iff₀ hprice hfactor]
    nlinarith
  have hstep : (quotient : ℚ) / factor < back + 1 := by
    rw [div_lt_iff₀ hfactor]
    nlinarith
  have hbound : (unit : ℚ) / (unit * factor) * (1 + unit * factor / price) =
      1 / factor + unit / price := by
    field_simp
  have hexact' : (value + 1 : ℚ) * unit / price = value * unit / price + unit / price := by
    ring
  have hwhole' : (quotient + 1 : ℚ) / factor = quotient / factor + 1 / factor := by
    ring
  rw [hbound]
  rw [hexact'] at hexact
  rw [hwhole'] at hwhole
  linarith

theorem truncValue_truncAmount_loss (value : Nat) (positive : 0 < parts) (positive' : 0 < unit)
    (priced : 0 < price) (aligned : unit ∣ parts) :
    (value : ℚ) - truncValue parts unit price (truncAmount parts unit price value) <
      price * (1 / unit + 1 / parts) + 1 := by
  obtain ⟨factor, rfl⟩ := aligned
  have hunit : (0 : ℚ) < unit := by exact_mod_cast positive'
  have hprice : (0 : ℚ) < price := by exact_mod_cast priced
  have hfactor : (0 : ℚ) < factor := by exact_mod_cast Nat.pos_of_mul_pos_left positive
  unfold truncAmount truncValue
  have hquotient := cast_div_lt_add_one (value * (unit * factor)) priced
  generalize value * (unit * factor) / price = quotient at hquotient ⊢
  have hamount := cast_div_lt_add_one (unit * quotient) positive
  generalize unit * quotient / (unit * factor) = amount at hamount ⊢
  have hscaled : amount * (unit * factor) / unit = amount * factor := by
    rw [Nat.mul_left_comm, Nat.mul_div_cancel_left _ positive']
  rw [hscaled]
  have hback := cast_div_lt_add_one (price * (amount * factor)) positive
  generalize price * (amount * factor) / (unit * factor) = back at hback ⊢
  push_cast at hquotient hamount hback ⊢
  -- What each truncation leaves, in parts of the value.
  have hwhole : (value : ℚ) < (quotient + 1) * price / (unit * factor) := by
    rw [lt_div_iff₀ (mul_pos hunit hfactor)]
    exact hquotient
  have hstep : (quotient : ℚ) < (amount + 1) * factor := by
    nlinarith
  have hexact : (price : ℚ) * amount / unit < back + 1 := by
    rw [div_lt_iff₀ hunit]
    nlinarith
  have hstep' : (quotient + 1) * (price : ℚ) / (unit * factor) <
      ((amount + 1) * factor + 1) * price / (unit * factor) := by
    gcongr
  have hsum : ((amount + 1) * factor + 1) * (price : ℚ) / (unit * factor) =
      price * amount / unit + price * (1 / unit + 1 / (unit * factor)) := by
    field_simp
    ring
  linarith

/-! ## Rounded products -/

/-- The product of a start with some factors, rounded down after each. -/
def roundedProduct (start : Nat) (factors : List ℚ) : Nat :=
  factors.foldl (fun product factor => ⌊(product : ℚ) * factor⌋₊) start

/-- What the roundings of a product lose at most: one unit each, carried on by the factors
    after it. -/
def roundingLoss : List ℚ → ℚ
  | [] => 0
  | _ :: rest => rest.prod + roundingLoss rest

@[simp]
theorem roundedProduct_nil (start : Nat) : roundedProduct start [] = start := rfl

@[simp]
theorem roundedProduct_cons (start : Nat) (factor : ℚ) (rest : List ℚ) :
    roundedProduct start (factor :: rest) = roundedProduct ⌊(start : ℚ) * factor⌋₊ rest := rfl

theorem roundedProduct_append (start : Nat) (factors rest : List ℚ) :
    roundedProduct start (factors ++ rest) = roundedProduct (roundedProduct start factors) rest :=
  List.foldl_append

theorem roundedProduct_bounds {factors : List ℚ} (nonneg : ∀ factor ∈ factors, 0 ≤ factor)
    (start : Nat) : (roundedProduct start factors : ℚ) ≤ start * factors.prod ∧
      start * factors.prod - roundingLoss factors ≤ roundedProduct start factors := by
  induction factors generalizing start with
  | nil => simp [roundingLoss]
  | cons factor rest ih =>
    have hfactor : 0 ≤ factor := nonneg factor List.mem_cons_self
    have hrest : 0 ≤ rest.prod :=
      List.prod_nonneg fun f hf => nonneg f (List.mem_cons_of_mem _ hf)
    have hstep : 0 ≤ (start : ℚ) * factor := mul_nonneg (Nat.cast_nonneg start) hfactor
    obtain ⟨hle, hloss⟩ := ih (fun f hf => nonneg f (List.mem_cons_of_mem _ hf))
      ⌊(start : ℚ) * factor⌋₊
    rw [roundedProduct_cons, List.prod_cons, roundingLoss]
    constructor
    · calc (roundedProduct ⌊(start : ℚ) * factor⌋₊ rest : ℚ)
          ≤ ⌊(start : ℚ) * factor⌋₊ * rest.prod := hle
        _ ≤ start * factor * rest.prod := mul_le_mul_of_nonneg_right (Nat.floor_le hstep) hrest
        _ = start * (factor * rest.prod) := mul_assoc _ _ _
    · -- the rounding of the first product loses less than one
      have hfirst : start * factor * rest.prod ≤
          (⌊(start : ℚ) * factor⌋₊ + 1) * rest.prod :=
        mul_le_mul_of_nonneg_right (Nat.lt_floor_add_one _).le hrest
      linarith

end Membrane
