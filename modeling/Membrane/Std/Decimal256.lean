import Membrane.Std.Uint
import Mathlib.Order.Basic

/-!
# 256-bit integers and decimals

The `U256` arithmetic of `packages/membrane/src/math.rs`. A `Uint256` is a natural
number, a `Decimal256` its number of atomics with 18 fractional digits. Every operator
aborts where a result, or the product inside a division, does not fit 256 bits.
-/

namespace Membrane

universe u

variable {ε : Type u}

namespace Uint256

/-- The first number past `U256::MAX`. -/
def limit : Nat := 2 ^ 256

/-- `a + b` on `U256`. -/
def add (a b : Nat) : Outcome ε Nat :=
  if a + b < limit then .ok (a + b) else Outcome.abort

/-- `a * b` on `U256`. -/
def mul (a b : Nat) : Outcome ε Nat :=
  if a * b < limit then .ok (a * b) else Outcome.abort

/-- `a / b` on `U256`. -/
def div (a b : Nat) : Outcome ε Nat :=
  if b = 0 then Outcome.abort else .ok (a / b)

/-- `u128::from`, which aborts past 128 bits. -/
def toUint128 (a : Nat) : Outcome ε Nat :=
  if a < Uint128.limit then .ok a else Outcome.abort

@[simp]
theorem add_eq_ok {a b c : Nat} :
    (add a b : Outcome ε Nat) = .ok c ↔ a + b < limit ∧ a + b = c := by
  by_cases h : a + b < limit <;> simp [add, h]

@[simp]
theorem mul_eq_ok {a b c : Nat} :
    (mul a b : Outcome ε Nat) = .ok c ↔ a * b < limit ∧ a * b = c := by
  by_cases h : a * b < limit <;> simp [mul, h]

@[simp]
theorem div_eq_ok {a b c : Nat} :
    (div a b : Outcome ε Nat) = .ok c ↔ b ≠ 0 ∧ a / b = c := by
  by_cases h : b = 0 <;> simp [div, h]

@[simp]
theorem toUint128_eq_ok {a b : Nat} :
    (toUint128 a : Outcome ε Nat) = .ok b ↔ a < Uint128.limit ∧ a = b := by
  by_cases h : a < Uint128.limit <;> simp [toUint128, h]

theorem add_errorless (a b : Nat) : Outcome.Errorless (add a b : Outcome ε Nat) :=
  .ite (.pure _) .abort

theorem mul_errorless (a b : Nat) : Outcome.Errorless (mul a b : Outcome ε Nat) :=
  .ite (.pure _) .abort

theorem div_errorless (a b : Nat) : Outcome.Errorless (div a b : Outcome ε Nat) :=
  .ite .abort (.pure _)

theorem toUint128_errorless (a : Nat) : Outcome.Errorless (toUint128 a : Outcome ε Nat) :=
  .ite (.pure _) .abort

end Uint256

/-- `Decimal256`, as its number of `10⁻¹⁸` parts. -/
structure Decimal256 where
  atomics : Nat
  deriving DecidableEq, Repr

namespace Decimal256

/-- `DECIMAL_FRACTIONAL`. -/
def fractional : Nat := 1000000000000000000

def zero : Decimal256 := ⟨0⟩

def one : Decimal256 := ⟨fractional⟩

/-- `Decimal256::percent(x)` of a `u64`. -/
def percent (x : Nat) : Decimal256 := ⟨x * 10000000000000000⟩

def isZero (a : Decimal256) : Bool := a.atomics == 0

instance : LE Decimal256 := ⟨fun a b => a.atomics ≤ b.atomics⟩

instance : LT Decimal256 := ⟨fun a b => a.atomics < b.atomics⟩

instance (a b : Decimal256) : Decidable (a ≤ b) :=
  inferInstanceAs (Decidable (a.atomics ≤ b.atomics))

instance (a b : Decimal256) : Decidable (a < b) :=
  inferInstanceAs (Decidable (a.atomics < b.atomics))

theorem le_def {a b : Decimal256} : a ≤ b ↔ a.atomics ≤ b.atomics := Iff.rfl

theorem lt_def {a b : Decimal256} : a < b ↔ a.atomics < b.atomics := Iff.rfl

/-- `Decimal256::from_uint256`. -/
def fromUint256 (n : Nat) : Outcome ε Decimal256 := do
  pure ⟨← Uint256.mul n fractional⟩

/-- `Decimal256::from_ratio`. -/
def fromRatio (numerator denominator : Nat) : Outcome ε Decimal256 := do
  Outcome.guardPanic (denominator = 0)
  pure ⟨← Uint256.div (← Uint256.mul numerator fractional) denominator⟩

/-- `a + b`. -/
def add (a b : Decimal256) : Outcome ε Decimal256 := do
  pure ⟨← Uint256.add a.atomics b.atomics⟩

/-- `a - b`. -/
def sub (a b : Decimal256) : Outcome ε Decimal256 := do
  pure ⟨← subUint a.atomics b.atomics⟩

/-- `a * b`. -/
def mul (a b : Decimal256) : Outcome ε Decimal256 := do
  pure ⟨← Uint256.div (← Uint256.mul a.atomics b.atomics) fractional⟩

/-- `a / b`. -/
def div (a b : Decimal256) : Outcome ε Decimal256 := do
  Outcome.guardPanic (b.isZero = true)
  pure ⟨← Uint256.div (← Uint256.mul a.atomics fractional) b.atomics⟩

/-- `a * n` of a decimal and an integer, which is an integer: zero at once when either
    is zero. -/
def mulUint (a : Decimal256) (n : Nat) : Outcome ε Nat :=
  if n = 0 ∨ a.isZero = true then .ok 0
  else do Uint256.div (← Uint256.mul n a.atomics) fractional

@[simp]
theorem fractional_ne_zero : fractional ≠ 0 := by decide

theorem fractional_pos : 0 < fractional := by decide

@[simp]
theorem percent_inj {a b : Nat} : percent a = percent b ↔ a = b := by
  constructor
  · intro h
    have hatomics : a * 10000000000000000 = b * 10000000000000000 :=
      congrArg Decimal256.atomics h
    exact Nat.eq_of_mul_eq_mul_right (by decide) hatomics
  · intro h
    rw [h]

@[simp]
theorem isZero_iff {a : Decimal256} : a.isZero = true ↔ a.atomics = 0 := by
  simp [isZero]

@[simp]
theorem fromUint256_eq_ok {n : Nat} {a : Decimal256} :
    (fromUint256 n : Outcome ε Decimal256) = .ok a ↔
      n * fractional < Uint256.limit ∧ ⟨n * fractional⟩ = a := by
  simp only [fromUint256, Outcome.bind_eq_ok, Uint256.mul_eq_ok, Outcome.pure_eq_ok]
  constructor
  · rintro ⟨_, ⟨hfits, rfl⟩, rfl⟩
    exact ⟨hfits, rfl⟩
  · rintro ⟨hfits, rfl⟩
    exact ⟨_, ⟨hfits, rfl⟩, rfl⟩

@[simp]
theorem fromRatio_eq_ok {n d : Nat} {a : Decimal256} :
    (fromRatio n d : Outcome ε Decimal256) = .ok a ↔
      d ≠ 0 ∧ n * fractional < Uint256.limit ∧ ⟨n * fractional / d⟩ = a := by
  simp only [fromRatio, Outcome.bind_eq_ok, Outcome.guardPanic_eq_ok, Uint256.mul_eq_ok,
    Uint256.div_eq_ok, Outcome.pure_eq_ok]
  constructor
  · rintro ⟨_, hpos, _, ⟨hfits, rfl⟩, _, ⟨-, rfl⟩, rfl⟩
    exact ⟨hpos, hfits, rfl⟩
  · rintro ⟨hpos, hfits, rfl⟩
    exact ⟨⟨⟩, hpos, _, ⟨hfits, rfl⟩, _, ⟨hpos, rfl⟩, rfl⟩

@[simp]
theorem add_eq_ok {a b c : Decimal256} :
    (add a b : Outcome ε Decimal256) = .ok c ↔
      a.atomics + b.atomics < Uint256.limit ∧ ⟨a.atomics + b.atomics⟩ = c := by
  simp only [add, Outcome.bind_eq_ok, Uint256.add_eq_ok, Outcome.pure_eq_ok]
  constructor
  · rintro ⟨_, ⟨hfits, rfl⟩, rfl⟩
    exact ⟨hfits, rfl⟩
  · rintro ⟨hfits, rfl⟩
    exact ⟨_, ⟨hfits, rfl⟩, rfl⟩

@[simp]
theorem sub_eq_ok {a b c : Decimal256} :
    (sub a b : Outcome ε Decimal256) = .ok c ↔ b ≤ a ∧ ⟨a.atomics - b.atomics⟩ = c := by
  simp only [sub, Outcome.bind_eq_ok, subUint_eq_ok, Outcome.pure_eq_ok, le_def]
  constructor
  · rintro ⟨_, ⟨hle, rfl⟩, rfl⟩
    exact ⟨hle, rfl⟩
  · rintro ⟨hle, rfl⟩
    exact ⟨_, ⟨hle, rfl⟩, rfl⟩

@[simp]
theorem mul_eq_ok {a b c : Decimal256} :
    (mul a b : Outcome ε Decimal256) = .ok c ↔
      a.atomics * b.atomics < Uint256.limit ∧ ⟨a.atomics * b.atomics / fractional⟩ = c := by
  simp only [mul, Outcome.bind_eq_ok, Uint256.mul_eq_ok, Uint256.div_eq_ok, Outcome.pure_eq_ok]
  constructor
  · rintro ⟨_, ⟨hfits, rfl⟩, _, ⟨-, rfl⟩, rfl⟩
    exact ⟨hfits, rfl⟩
  · rintro ⟨hfits, rfl⟩
    exact ⟨_, ⟨hfits, rfl⟩, _, ⟨fractional_ne_zero, rfl⟩, rfl⟩

@[simp]
theorem div_eq_ok {a b c : Decimal256} :
    (div a b : Outcome ε Decimal256) = .ok c ↔
      b.atomics ≠ 0 ∧ a.atomics * fractional < Uint256.limit ∧
        ⟨a.atomics * fractional / b.atomics⟩ = c := by
  simp only [div, Outcome.bind_eq_ok, Outcome.guardPanic_eq_ok, isZero_iff, Uint256.mul_eq_ok,
    Uint256.div_eq_ok, Outcome.pure_eq_ok]
  constructor
  · rintro ⟨_, hpos, _, ⟨hfits, rfl⟩, _, ⟨-, rfl⟩, rfl⟩
    exact ⟨hpos, hfits, rfl⟩
  · rintro ⟨hpos, hfits, rfl⟩
    exact ⟨⟨⟩, hpos, _, ⟨hfits, rfl⟩, _, ⟨hpos, rfl⟩, rfl⟩

theorem mulUint_eq {a : Decimal256} {n m : Nat}
    (done : (mulUint a n : Outcome ε Nat) = .ok m) : m = n * a.atomics / fractional := by
  unfold mulUint at done
  split at done
  case isTrue h =>
    obtain rfl : 0 = m := by simpa using done
    rcases h with rfl | h
    · simp
    · simp [isZero_iff.mp h]
  case isFalse =>
    simp only [Outcome.bind_eq_ok, Uint256.mul_eq_ok, Uint256.div_eq_ok] at done
    obtain ⟨_, ⟨-, rfl⟩, -, rfl⟩ := done
    rfl

theorem mulUint_one {a : Decimal256} (fits : a.atomics < Uint256.limit) :
    (mulUint a 1 : Outcome ε Nat) = .ok (a.atomics / fractional) := by
  unfold mulUint
  by_cases h : a.isZero = true
  · rw [if_pos (Or.inr h), isZero_iff.mp h, Nat.zero_div]
  · rw [if_neg (by simpa using h)]
    simp only [Outcome.bind_eq_ok, Uint256.mul_eq_ok, Uint256.div_eq_ok, Nat.one_mul]
    exact ⟨_, ⟨fits, rfl⟩, fractional_ne_zero, rfl⟩

/-! The operators fail in no other way than by aborting. -/

theorem fromUint256_errorless (n : Nat) :
    Outcome.Errorless (fromUint256 n : Outcome ε Decimal256) :=
  .bind (Uint256.mul_errorless _ _) fun _ => .pure _

theorem fromRatio_errorless (n d : Nat) :
    Outcome.Errorless (fromRatio n d : Outcome ε Decimal256) :=
  .bind .guardPanic fun _ => .bind (Uint256.mul_errorless _ _) fun _ =>
    .bind (Uint256.div_errorless _ _) fun _ => .pure _

theorem add_errorless (a b : Decimal256) : Outcome.Errorless (add a b : Outcome ε Decimal256) :=
  .bind (Uint256.add_errorless _ _) fun _ => .pure _

theorem sub_errorless (a b : Decimal256) : Outcome.Errorless (sub a b : Outcome ε Decimal256) :=
  .bind (subUint_errorless _ _) fun _ => .pure _

theorem mul_errorless (a b : Decimal256) : Outcome.Errorless (mul a b : Outcome ε Decimal256) :=
  .bind (Uint256.mul_errorless _ _) fun _ => .bind (Uint256.div_errorless _ _) fun _ => .pure _

theorem div_errorless (a b : Decimal256) : Outcome.Errorless (div a b : Outcome ε Decimal256) :=
  .bind .guardPanic fun _ => .bind (Uint256.mul_errorless _ _) fun _ =>
    .bind (Uint256.div_errorless _ _) fun _ => .pure _

theorem mulUint_errorless (a : Decimal256) (n : Nat) :
    Outcome.Errorless (mulUint a n : Outcome ε Nat) :=
  .ite (.pure _) (.bind (Uint256.mul_errorless _ _) fun _ => Uint256.div_errorless _ _)

end Decimal256

end Membrane
