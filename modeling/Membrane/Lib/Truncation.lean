import Mathlib.Algebra.BigOperators.Ring.List
import Mathlib.Algebra.Order.Floor.Div
import Mathlib.Algebra.Order.Ring.Nat
import Mathlib.Tactic.Ring

/-!
# Truncated prices

A price is a number of parts; an amount is a number of units. The value of an amount
and the amount for a value are computed with two truncating divisions each. Both stay at
or below the exact ones, which the lemmas state without divisions, and the amounts for
two values are at most that for both.
-/

namespace Membrane

variable {parts unit price : Nat}

def truncValue (parts unit price amount : Nat) : Nat := price * (amount * parts / unit) / parts

def truncAmount (parts unit price value : Nat) : Nat := unit * (value * parts / price) / parts

theorem truncValue_mul_le (amount : Nat) (positive : 0 < parts) :
    truncValue parts unit price amount * unit ≤ price * amount := by
  have hvalue : truncValue parts unit price amount * parts ≤ price * (amount * parts / unit) :=
    Nat.div_mul_le_self _ _
  have hscaled : amount * parts / unit * unit ≤ amount * parts := Nat.div_mul_le_self _ _
  refine Nat.le_of_mul_le_mul_right ?_ positive
  calc truncValue parts unit price amount * unit * parts
      = truncValue parts unit price amount * parts * unit := Nat.mul_right_comm _ _ _
    _ ≤ price * (amount * parts / unit) * unit := Nat.mul_le_mul_right _ hvalue
    _ = price * (amount * parts / unit * unit) := Nat.mul_assoc _ _ _
    _ ≤ price * (amount * parts) := Nat.mul_le_mul_left _ hscaled
    _ = price * amount * parts := (Nat.mul_assoc _ _ _).symm

theorem truncAmount_mul_le (value : Nat) (positive : 0 < parts) :
    truncAmount parts unit price value * price ≤ value * unit := by
  have hamount : truncAmount parts unit price value * parts ≤ unit * (value * parts / price) :=
    Nat.div_mul_le_self _ _
  have hscaled : value * parts / price * price ≤ value * parts := Nat.div_mul_le_self _ _
  refine Nat.le_of_mul_le_mul_right ?_ positive
  calc truncAmount parts unit price value * price * parts
      = truncAmount parts unit price value * parts * price := Nat.mul_right_comm _ _ _
    _ ≤ unit * (value * parts / price) * price := Nat.mul_le_mul_right _ hamount
    _ = unit * (value * parts / price * price) := Nat.mul_assoc _ _ _
    _ ≤ unit * (value * parts) := Nat.mul_le_mul_left _ hscaled
    _ = value * unit * parts := by ring

/-- The value, in parts, of an amount at a price, rounded up. -/
def ceilValue (parts unit price amount : Nat) : Nat :=
  (price * (amount * parts ⌈/⌉ unit)) ⌈/⌉ parts

theorem le_truncAmount_iff {amount value : Nat} (positive : 0 < parts) (positive' : 0 < unit)
    (priced : 0 < price) :
    amount ≤ truncAmount parts unit price value ↔ ceilValue parts unit price amount ≤ value := by
  unfold truncAmount ceilValue
  rw [Nat.le_div_iff_mul_le positive, ← ceilDiv_le_iff_le_mul positive',
    Nat.le_div_iff_mul_le priced, ceilDiv_le_iff_le_mul positive, Nat.mul_comm _ price,
    Nat.mul_comm value]

theorem truncAmount_add_le (value value' : Nat) :
    truncAmount parts unit price value + truncAmount parts unit price value' ≤
      truncAmount parts unit price (value + value') := by
  unfold truncAmount
  have hscaled : value * parts / price + value' * parts / price ≤
      (value + value') * parts / price := by
    rw [Nat.add_mul]
    exact Nat.div_add_div_le_add_div
  calc unit * (value * parts / price) / parts + unit * (value' * parts / price) / parts
      ≤ (unit * (value * parts / price) + unit * (value' * parts / price)) / parts :=
        Nat.div_add_div_le_add_div
    _ = unit * (value * parts / price + value' * parts / price) / parts := by rw [Nat.mul_add]
    _ ≤ unit * ((value + value') * parts / price) / parts :=
        Nat.div_le_div_right (Nat.mul_le_mul_left _ hscaled)

theorem truncAmount_truncValue_le {value : Nat} (amount : Nat) (positive : 0 < parts)
    (priced : 0 < price) (within : value ≤ truncValue parts unit price amount) :
    truncAmount parts unit price value ≤ amount := by
  have hamount : truncAmount parts unit price value * price ≤ value * unit :=
    truncAmount_mul_le value positive
  have hvalue : truncValue parts unit price amount * unit ≤ price * amount :=
    truncValue_mul_le amount positive
  refine Nat.le_of_mul_le_mul_right ?_ priced
  calc truncAmount parts unit price value * price
      ≤ value * unit := hamount
    _ ≤ truncValue parts unit price amount * unit := Nat.mul_le_mul_right _ within
    _ ≤ price * amount := hvalue
    _ = amount * price := Nat.mul_comm _ _

theorem scaled_add_le (amount scaled : Nat) (positive : 0 < parts) (positive' : 0 < unit)
    (aligned : unit ∣ parts ∨ parts ∣ unit) :
    (amount + unit * scaled / parts) * parts / unit ≤ amount * parts / unit + scaled := by
  rcases aligned with ⟨factor, rfl⟩ | ⟨factor, rfl⟩
  · have hfactor : 0 < factor := Nat.pos_of_mul_pos_left positive
    have hsum : (amount + scaled / factor) * (unit * factor) =
        unit * ((amount + scaled / factor) * factor) := by ring
    have hone : amount * (unit * factor) = unit * (amount * factor) := by ring
    rw [Nat.mul_div_mul_left _ _ positive', hsum, hone, Nat.mul_div_cancel_left _ positive',
      Nat.mul_div_cancel_left _ positive', Nat.add_mul]
    exact Nat.add_le_add_left (Nat.div_mul_le_self _ _) _
  · have hfactor : 0 < factor := Nat.pos_of_mul_pos_left positive'
    have hscaled : parts * factor * scaled = parts * (factor * scaled) := by ring
    rw [hscaled, Nat.mul_div_cancel_left _ positive, Nat.mul_comm _ parts, Nat.mul_comm _ parts,
      Nat.mul_div_mul_left _ _ positive, Nat.mul_div_mul_left _ _ positive,
      Nat.add_mul_div_left _ _ hfactor]

theorem truncValue_add_truncAmount_le (amount value : Nat) (positive : 0 < parts)
    (positive' : 0 < unit) (aligned : unit ∣ parts ∨ parts ∣ unit) :
    truncValue parts unit price (amount + truncAmount parts unit price value) ≤
      truncValue parts unit price amount + value := by
  have hscaled : (amount + truncAmount parts unit price value) * parts / unit ≤
      amount * parts / unit + value * parts / price :=
    scaled_add_le amount _ positive positive' aligned
  have hvalue : price * (value * parts / price) ≤ value * parts := Nat.mul_div_le _ _
  unfold truncValue
  calc price * ((amount + truncAmount parts unit price value) * parts / unit) / parts
      ≤ price * (amount * parts / unit + value * parts / price) / parts :=
        Nat.div_le_div_right (Nat.mul_le_mul_left _ hscaled)
    _ = (price * (amount * parts / unit) + price * (value * parts / price)) / parts := by
        rw [Nat.mul_add]
    _ ≤ (price * (amount * parts / unit) + value * parts) / parts :=
        Nat.div_le_div_right (Nat.add_le_add_left hvalue _)
    _ = price * (amount * parts / unit) / parts + value := Nat.add_mul_div_right _ _ positive

theorem ratio_le_target {value grown total target : Nat} (positive : 0 < total)
    (lacks : value * parts / total ≤ target)
    (grows : grown ≤ value + total * (target - value * parts / total) / parts) :
    grown * parts / total ≤ target := by
  have hratio : value * parts < (value * parts / total + 1) * total := by
    rw [Nat.mul_comm (_ + 1)]
    exact Nat.lt_mul_div_succ _ positive
  generalize value * parts / total = ratio at lacks grows hratio
  have hgain : total * (target - ratio) / parts * parts ≤ total * (target - ratio) :=
    Nat.div_mul_le_self _ _
  have hgrown : grown * parts ≤ value * parts + total * (target - ratio) := by
    calc grown * parts
        ≤ (value + total * (target - ratio) / parts) * parts := Nat.mul_le_mul_right _ grows
      _ = value * parts + total * (target - ratio) / parts * parts := Nat.add_mul _ _ _
      _ ≤ value * parts + total * (target - ratio) := Nat.add_le_add_left hgain _
  have hlt : grown * parts < total * (target + 1) := by
    calc grown * parts
        ≤ value * parts + total * (target - ratio) := hgrown
      _ < (ratio + 1) * total + total * (target - ratio) := Nat.add_lt_add_right hratio _
      _ = total * (ratio + 1 + (target - ratio)) := by ring
      _ = total * (target + 1) := by
          have hsum : ratio + 1 + (target - ratio) = target + 1 := by omega
          rw [hsum]
  exact Nat.lt_succ_iff.mp (Nat.div_lt_of_lt_mul hlt)

/-- An amount at a truncated price, as one at the exact price: where the truncation of the
    price moves the amount by no more than a unit, it is at most a unit more. The exact
    price has `parts` times as many parts. -/
theorem truncAmount_exact_le {exact value : Nat} (positive : 0 < parts) (some : 0 < exact / parts)
    (close : value * unit * (exact - exact / parts * parts) ≤ exact / parts * exact) :
    truncAmount parts unit (exact / parts) value * exact ≤ value * unit * parts + exact := by
  have hamount : truncAmount parts unit (exact / parts) value * (exact / parts) ≤ value * unit :=
    truncAmount_mul_le value positive
  have hle : exact / parts * parts ≤ exact := Nat.div_mul_le_self _ _
  generalize truncAmount parts unit (exact / parts) value = amount at hamount ⊢
  generalize value * unit = worth at hamount close ⊢
  generalize exact / parts = price at *
  refine Nat.le_of_mul_le_mul_left ?_ some
  rw [Nat.mul_sub, tsub_le_iff_right] at close
  calc price * (amount * exact)
      = amount * price * exact := by ring
    _ ≤ worth * exact := Nat.mul_le_mul_right _ hamount
    _ ≤ price * exact + worth * (price * parts) := close
    _ = price * (worth * parts + exact) := by ring

theorem sum_map_div_le {α : Type} (part : α → Nat) (divisor : Nat) (l : List α) :
    (l.map fun a => part a / divisor).sum ≤ (l.map part).sum / divisor := by
  induction l with
  | nil => exact Nat.zero_le _
  | cons a rest ih =>
    simp only [List.map_cons, List.sum_cons]
    calc part a / divisor + (rest.map fun a => part a / divisor).sum
        ≤ part a / divisor + (rest.map part).sum / divisor := Nat.add_le_add_left ih _
      _ ≤ (part a + (rest.map part).sum) / divisor := Nat.div_add_div_le_add_div

theorem sum_map_div_add_mod {α : Type} (part : α → Nat) (divisor : Nat) (l : List α) :
    (l.map fun a => part a / divisor).sum * divisor + (l.map fun a => part a % divisor).sum =
      (l.map part).sum := by
  rw [← List.sum_map_mul_right, ← List.sum_map_add]
  exact congrArg List.sum (List.map_congr_left fun a _ => Nat.div_add_mod' _ _)

theorem sum_shares_le {α : Type} (part : α → Nat) (l : List α) :
    (l.map fun a => part a * parts / (l.map part).sum).sum ≤ parts := by
  calc (l.map fun a => part a * parts / (l.map part).sum).sum
      ≤ (l.map fun a => part a * parts).sum / (l.map part).sum := sum_map_div_le _ _ l
    _ = (l.map part).sum * parts / (l.map part).sum := by rw [List.sum_map_mul_right]
    _ ≤ parts := Nat.div_le_of_le_mul (Nat.le_refl _)

end Membrane
