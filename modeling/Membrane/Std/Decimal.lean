import Membrane.Lib.Digits
import Membrane.Std.Uint
import Membrane.Std.Error
import Mathlib.Order.Basic
import Mathlib.Data.Nat.Sqrt

/-!
# Fixed-point decimals

`Decimal` has 18 fractional digits and is stored as its number of atomics, which
fits 128 bits. Every operation truncates. The operators abort where the result
does not fit or a divisor is zero; the checked ones return an error, which the
`decimal_*` helpers of the repository reword.
-/

namespace Membrane

universe u

/-- `base.checked_pow(exp)` on `Uint128`. -/
def Uint128.checkedPow (base exp : Nat) : Outcome StdError Nat :=
  if base ^ exp < Uint128.limit then .ok (base ^ exp)
  else Outcome.fail (.overflow "Pow" (toString base) (toString exp))

/-- A decimal, as its number of `10⁻¹⁸` parts. -/
structure Decimal where
  atomics : Nat
  deriving DecidableEq, Repr

namespace Decimal

variable {ε : Type u}

def fractional : Nat := 1000000000000000000

def zero : Decimal := ⟨0⟩

def one : Decimal := ⟨fractional⟩

/-- `Decimal::percent(x)`. -/
def percent (x : Nat) : Decimal := ⟨x * 10000000000000000⟩

/-- The decimal of a whole number, as parsing its digits gives it. -/
def ofNat (n : Nat) : Decimal := ⟨n * fractional⟩

instance : LE Decimal := ⟨fun a b => a.atomics ≤ b.atomics⟩

instance : LT Decimal := ⟨fun a b => a.atomics < b.atomics⟩

instance (a b : Decimal) : Decidable (a ≤ b) := inferInstanceAs (Decidable (a.atomics ≤ b.atomics))

instance (a b : Decimal) : Decidable (a < b) := inferInstanceAs (Decidable (a.atomics < b.atomics))

theorem le_def {a b : Decimal} : a ≤ b ↔ a.atomics ≤ b.atomics := Iff.rfl

theorem lt_def {a b : Decimal} : a < b ↔ a.atomics < b.atomics := Iff.rfl

def min (a b : Decimal) : Decimal := if a.atomics ≤ b.atomics then a else b

def isZero (a : Decimal) : Bool := a.atomics == 0

/-- A decimal as displayed: the whole part, then the fraction without trailing
    zeros. -/
def toText (a : Decimal) : String :=
  let whole := toString (a.atomics / fractional)
  let digits := toString (a.atomics % fractional)
  let padded := List.replicate (18 - digits.length) '0' ++ digits.toList
  match trimZeros padded with
  | [] => whole
  | kept => whole ++ "." ++ String.ofList kept

/-- A number of atomics that must fit the 128 bits of a decimal. -/
def fits (atomics : Nat) : Option Decimal :=
  if atomics < Uint128.limit then some ⟨atomics⟩ else none

/-- `Decimal::from_ratio`. -/
def fromRatio (numerator denominator : Nat) : Outcome ε Decimal :=
  if denominator = 0 then Outcome.abort
  else Outcome.unwrap (fits (numerator * fractional / denominator))

/-- `a + b`. -/
def add (a b : Decimal) : Outcome ε Decimal := Outcome.unwrap (fits (a.atomics + b.atomics))

/-- `a - b`. -/
def sub (a b : Decimal) : Outcome ε Decimal :=
  if b ≤ a then .ok ⟨a.atomics - b.atomics⟩ else Outcome.abort

/-- `a * b`. -/
def mul (a b : Decimal) : Outcome ε Decimal :=
  Outcome.unwrap (fits (a.atomics * b.atomics / fractional))

def sum (values : List Decimal) : Outcome ε Decimal := values.foldlM add zero

/-- `a.abs_diff(b)`. -/
def absDiff (a b : Decimal) : Decimal :=
  if a < b then ⟨b.atomics - a.atomics⟩ else ⟨a.atomics - b.atomics⟩

def toUintFloor (a : Decimal) : Nat := a.atomics / fractional

def toUintCeil (a : Decimal) : Nat :=
  if a.atomics = 0 then 0 else 1 + (a.atomics - 1) / fractional

/-- The square root at the highest precision, from `precision` down, at which the scaled
    number of atomics still fits. -/
def sqrtFrom (a : Decimal) : (precision : Nat) → Decimal
  | 0 => ⟨Nat.sqrt a.atomics * 10 ^ 9⟩
  | precision + 1 =>
    if a.atomics * 100 ^ (precision + 1) < Uint128.limit then
      ⟨Nat.sqrt (a.atomics * 100 ^ (precision + 1)) * 10 ^ (9 - (precision + 1))⟩
    else a.sqrtFrom precision

def sqrt (a : Decimal) : Decimal := a.sqrtFrom 9

/-- `amount * a` of an integer and a decimal: zero at once when either is zero. -/
def mulUint (amount : Nat) (a : Decimal) : Outcome ε Nat :=
  if amount = 0 ∨ a.atomics = 0 then .ok 0
  else if amount * a.atomics / fractional < Uint128.limit then
    .ok (amount * a.atomics / fractional)
  else Outcome.abort

/-- `a.checked_sub(b)`. -/
def checkedSub (a b : Decimal) : Outcome StdError Decimal :=
  if b ≤ a then .ok ⟨a.atomics - b.atomics⟩
  else Outcome.fail (.overflow "Sub" a.toText b.toText)

/-- `a.checked_mul(b)`. -/
def checkedMul (a b : Decimal) : Outcome StdError Decimal :=
  Outcome.ofOption (fits (a.atomics * b.atomics / fractional)) (.overflow "Mul" a.toText b.toText)

/-- `a.checked_div(b)`. -/
def checkedDiv (a b : Decimal) : Outcome StdError Decimal :=
  if b.atomics = 0 then Outcome.fail .checkedFromRatio
  else Outcome.ofOption (fits (a.atomics * fractional / b.atomics)) .checkedFromRatio

/-- The loop of `a.checked_pow(exp)` over the bits of the exponent. The last product is not
    a checked one. -/
def powLoop : (bits : Nat) → (x y : Decimal) → (exp : Nat) → Outcome StdError Decimal
  | 0, x, y, _ => mul x y
  | bits + 1, x, y, exp =>
    if exp ≤ 1 then mul x y
    else if exp % 2 = 0 then do
      powLoop bits (← x.checkedMul x) y (exp / 2)
    else do
      let y ← x.checkedMul y
      powLoop bits (← x.checkedMul x) y ((exp - 1) / 2)

/-- `a.checked_pow(exp)`, with an exponent of 32 bits. -/
def checkedPow (a : Decimal) (exp : Nat) : Outcome StdError Decimal :=
  if exp = 0 then .ok one
  else Outcome.mapErr (fun _ => .overflow "Pow" a.toText (toString exp)) (powLoop 32 a one exp)

theorem fits_eq_some {n : Nat} {a : Decimal} :
    fits n = some a ↔ n < Uint128.limit ∧ a = ⟨n⟩ := by
  by_cases h : n < Uint128.limit
  · simp [fits, h, eq_comm]
  · simp [fits, h]

theorem fromRatio_eq_ok {numerator denominator : Nat} {a : Decimal} :
    (fromRatio numerator denominator : Outcome ε Decimal) = .ok a ↔
      denominator ≠ 0 ∧ numerator * fractional / denominator < Uint128.limit ∧
        a = ⟨numerator * fractional / denominator⟩ := by
  by_cases h : denominator = 0
  · simp [fromRatio, h]
  · simp only [fromRatio, if_neg h, Outcome.unwrap_eq_ok, fits_eq_some]
    exact ⟨fun fits => ⟨h, fits⟩, fun done => done.2⟩

theorem add_eq_ok {a b c : Decimal} : (add a b : Outcome ε Decimal) = .ok c ↔
    a.atomics + b.atomics < Uint128.limit ∧ c = ⟨a.atomics + b.atomics⟩ := by
  rw [add, Outcome.unwrap_eq_ok, fits_eq_some]

theorem sub_eq_ok {a b c : Decimal} :
    (sub a b : Outcome ε Decimal) = .ok c ↔ b ≤ a ∧ c = ⟨a.atomics - b.atomics⟩ := by
  by_cases h : b ≤ a
  · simp [sub, h, eq_comm]
  · simp [sub, h]

theorem checkedDiv_eq_ok {a b c : Decimal} : checkedDiv a b = .ok c ↔
    b.atomics ≠ 0 ∧ a.atomics * fractional / b.atomics < Uint128.limit ∧
      c = ⟨a.atomics * fractional / b.atomics⟩ := by
  by_cases h : b.atomics = 0
  · simp [checkedDiv, h]
  · simp only [checkedDiv, if_neg h, Outcome.ofOption_eq_ok, fits_eq_some]
    exact ⟨fun fits => ⟨h, fits⟩, fun done => done.2⟩

theorem add_swaps (acc a b result : Decimal)
    (done : (add acc a >>= fun mid => add mid b : Outcome ε Decimal) = .ok result) :
    (add acc b >>= fun mid => add mid a : Outcome ε Decimal) = .ok result := by
  simp only [Outcome.bind_eq_ok, add, Outcome.unwrap_eq_ok, fits_eq_some] at done ⊢
  obtain ⟨_, ⟨-, rfl⟩, hfits, rfl⟩ := done
  refine ⟨_, ⟨?_, rfl⟩, ?_, ?_⟩
  · simp only at hfits
    omega
  · simp only at hfits ⊢
    omega
  · simp only [mk.injEq]
    omega

theorem add_mono {a a' b b' sum sum' : Decimal} (left : a ≤ a')
    (right : b ≤ b') (done : (add a b : Outcome ε Decimal) = .ok sum)
    (done' : (add a' b' : Outcome ε Decimal) = .ok sum') : sum ≤ sum' := by
  simp only [add, Outcome.unwrap_eq_ok, fits_eq_some] at done done'
  obtain ⟨-, rfl⟩ := done
  obtain ⟨-, rfl⟩ := done'
  show a.atomics + b.atomics ≤ a'.atomics + b'.atomics
  apply Nat.add_le_add
  · exact left
  · exact right

theorem sum_eq_ok {values : List Decimal} {total : Decimal} :
    (sum values : Outcome ε Decimal) = .ok total ↔
      (values.map (·.atomics)).sum < Uint128.limit ∧ total = ⟨(values.map (·.atomics)).sum⟩ := by
  suffices h : ∀ (values : List Decimal) (start : Decimal), start.atomics < Uint128.limit →
      ((values.foldlM add start : Outcome ε Decimal) = .ok total ↔
        start.atomics + (values.map (·.atomics)).sum < Uint128.limit ∧
          total = ⟨start.atomics + (values.map (·.atomics)).sum⟩) by
    have hsum := h values zero (by decide)
    simpa only [sum, zero, Nat.zero_add] using hsum
  intro values
  induction values with
  | nil =>
    intro start hstart
    rw [List.foldlM_nil, Outcome.pure_eq_ok]
    simp [hstart, eq_comm]
  | cons value rest ih =>
    intro start hstart
    simp only [List.foldlM_cons, Outcome.bind_eq_ok, add_eq_ok, List.map_cons, List.sum_cons]
    constructor
    · rintro ⟨mid, ⟨hmid, rfl⟩, hrest⟩
      rw [← Nat.add_assoc]
      exact (ih _ hmid).mp hrest
    · rw [← Nat.add_assoc]
      rintro ⟨hfits, rfl⟩
      have hmid : start.atomics + value.atomics < Uint128.limit := by omega
      exact ⟨_, ⟨hmid, rfl⟩, (ih ⟨_⟩ hmid).mpr ⟨hfits, rfl⟩⟩

theorem sum_perm {values values' : List Decimal} {total : Decimal} (perm : values.Perm values')
    (done : (sum values : Outcome ε Decimal) = .ok total) :
    (sum values' : Outcome ε Decimal) = .ok total :=
  Outcome.foldlM_perm (fun acc a b result h => add_swaps acc a b result h) perm done

theorem fromRatio_errorless (numerator denominator : Nat) :
    Outcome.Errorless (fromRatio numerator denominator : Outcome ε Decimal) :=
  .ite .abort (.unwrap _)

theorem sub_errorless (a b : Decimal) : Outcome.Errorless (sub a b : Outcome ε Decimal) :=
  .ite (.pure _) .abort

theorem mulUint_errorless (amount : Nat) (a : Decimal) :
    Outcome.Errorless (mulUint amount a : Outcome ε Nat) :=
  .ite (.pure _) (.ite (.pure _) .abort)

theorem fromRatio_one {n : Nat} {a : Decimal}
    (done : (fromRatio n 1 : Outcome ε Decimal) = .ok a) : a = ⟨n * fractional⟩ := by
  simp only [fromRatio, Nat.one_ne_zero, if_false, Nat.div_one, Outcome.unwrap_eq_ok,
    fits_eq_some] at done
  exact done.2

theorem min_whole (m n : Nat) :
    min ⟨m * fractional⟩ ⟨n * fractional⟩ = ⟨Min.min m n * fractional⟩ := by
  unfold min
  by_cases h : m ≤ n
  · rw [if_pos (Nat.mul_le_mul_right _ h), Nat.min_eq_left h]
  · have hlt : ¬ m * fractional ≤ n * fractional := by
      intro hle
      exact h (Nat.le_of_mul_le_mul_right hle (by decide))
    rw [if_neg hlt, Nat.min_eq_right (by omega)]

@[simp]
theorem toUintFloor_whole (n : Nat) : toUintFloor ⟨n * fractional⟩ = n :=
  Nat.mul_div_cancel n (by decide)

theorem mulUint_eq_ok {amount : Nat} {a : Decimal} {n : Nat}
    (done : (mulUint amount a : Outcome ε Nat) = .ok n) :
    n = amount * a.atomics / fractional := by
  unfold mulUint at done
  split at done
  case isTrue h =>
    obtain rfl : 0 = n := by simpa using done
    rcases h with rfl | h
    · simp
    · simp [h]
  case isFalse =>
    split at done
    case isTrue => simpa [eq_comm] using done
    case isFalse => simp at done

theorem mulUint_ok_iff {amount : Nat} {a : Decimal} {n : Nat} :
    (mulUint amount a : Outcome ε Nat) = .ok n ↔
      amount * a.atomics / fractional < Uint128.limit ∧ n = amount * a.atomics / fractional := by
  unfold mulUint
  by_cases h : amount = 0 ∨ a.atomics = 0
  · have hzero : amount * a.atomics / fractional = 0 := by
      rw [Nat.mul_eq_zero.mpr h, Nat.zero_div]
    have hfits : 0 < Uint128.limit := by decide
    rw [if_pos h, hzero]
    constructor
    · intro done
      exact ⟨hfits, (Except.ok.inj done).symm⟩
    · rintro ⟨-, rfl⟩
      rfl
  · rw [if_neg h]
    by_cases hfits : amount * a.atomics / fractional < Uint128.limit
    · simp [hfits, eq_comm]
    · simp [hfits]

end Decimal

def decimalSubtraction (a b : Decimal) : Outcome StdError Decimal :=
  Outcome.mapErr (fun _ => .genericErr "Decimal subtraction overflow") (a.checkedSub b)

def decimalDivision (a b : Decimal) : Outcome StdError Decimal :=
  Outcome.mapErr (fun _ => .genericErr "Decimal division overflow") (a.checkedDiv b)

def decimalMultiplication (a b : Decimal) : Outcome StdError Decimal :=
  Outcome.mapErr (fun _ => .genericErr "Decimal multiplication overflow") (a.checkedMul b)

theorem decimalSubtraction_eq_ok {a b c : Decimal} :
    decimalSubtraction a b = .ok c ↔ b ≤ a ∧ ⟨a.atomics - b.atomics⟩ = c := by
  by_cases h : b ≤ a
  · simp [decimalSubtraction, Decimal.checkedSub, h]
  · simp [decimalSubtraction, Decimal.checkedSub, h]

theorem decimalDivision_eq_ok {a b c : Decimal} : decimalDivision a b = .ok c ↔
    b.atomics ≠ 0 ∧ a.atomics * Decimal.fractional / b.atomics < Uint128.limit ∧
      c = ⟨a.atomics * Decimal.fractional / b.atomics⟩ := by
  rw [decimalDivision, Outcome.mapErr_eq_ok, Decimal.checkedDiv_eq_ok]

theorem decimalDivision_whole {a b : Nat} {ratio : Decimal}
    (done : decimalDivision ⟨a * Decimal.fractional⟩ ⟨b * Decimal.fractional⟩ = .ok ratio) :
    b ≠ 0 ∧ ratio = ⟨a * Decimal.fractional / b⟩ := by
  obtain ⟨hne, -, rfl⟩ := decimalDivision_eq_ok.mp done
  refine ⟨fun hzero => hne ?_, ?_⟩
  · rw [hzero, Nat.zero_mul]
  · rw [Nat.mul_div_mul_right _ _ (by decide : 0 < Decimal.fractional)]

theorem decimalMultiplication_eq_ok {a b c : Decimal} : decimalMultiplication a b = .ok c ↔
    a.atomics * b.atomics / Decimal.fractional < Uint128.limit ∧
      c = ⟨a.atomics * b.atomics / Decimal.fractional⟩ := by
  rw [decimalMultiplication, Outcome.mapErr_eq_ok, Decimal.checkedMul, Outcome.ofOption_eq_ok,
    Decimal.fits_eq_some]

theorem decimalMultiplication_mono {ratio limit limit' product product' : Decimal}
    (le : limit ≤ limit') (done : decimalMultiplication ratio limit = .ok product)
    (done' : decimalMultiplication ratio limit' = .ok product') : product ≤ product' := by
  simp only [decimalMultiplication, Decimal.checkedMul, Outcome.mapErr_eq_ok,
    Outcome.ofOption_eq_ok,
    Decimal.fits_eq_some] at done done'
  obtain ⟨-, rfl⟩ := done
  obtain ⟨-, rfl⟩ := done'
  show ratio.atomics * limit.atomics / Decimal.fractional ≤
    ratio.atomics * limit'.atomics / Decimal.fractional
  apply Nat.div_le_div_right
  apply Nat.mul_le_mul_left
  exact le

end Membrane
