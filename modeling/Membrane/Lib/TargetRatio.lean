import Membrane.Lib.Truncation

/-!
# Ratios kept at a target

A ratio of parts is computed truncated, and a total has room for a removal where the ratio
lies below a target. Both truncations favour the debt, so a removal can raise the ratio over the
target, by less than three parts where no more than twice the debt is removed.
-/

namespace Membrane

variable {parts total ratio target removed remaining : Nat}

def roomOf (parts total target ratio : Nat) : Nat :=
  total * (target - ratio) / parts * parts / target

theorem roomOf_le (le : target ≤ parts) : roomOf parts total target ratio ≤ total := by
  rcases Nat.eq_zero_or_pos target with rfl | positive
  · rw [roomOf, Nat.div_zero]
    exact Nat.zero_le _
  · refine Nat.div_le_of_le_mul ?_
    calc total * (target - ratio) / parts * parts
        ≤ total * (target - ratio) := Nat.div_mul_le_self _ _
      _ ≤ total * target := Nat.mul_le_mul_left _ (Nat.sub_le _ _)
      _ = target * total := Nat.mul_comm _ _

theorem ratio_mul_le_of_room (within : ratio ≤ target)
    (removes : removed ≤ roomOf parts total target ratio) (remains : total ≤ remaining + removed) :
    ratio * total ≤ target * remaining := by
  have hroom : target * removed ≤ total * (target - ratio) := by
    calc target * removed
        ≤ target * roomOf parts total target ratio := Nat.mul_le_mul_left _ removes
      _ ≤ total * (target - ratio) / parts * parts := Nat.mul_div_le _ _
      _ ≤ total * (target - ratio) := Nat.div_mul_le_self _ _
  have hwhole : total * (target - ratio) + ratio * total = target * total := by
    rw [Nat.mul_comm ratio, ← Nat.mul_add, Nat.sub_add_cancel within, Nat.mul_comm]
  have hremains : target * total ≤ target * remaining + target * removed := by
    rw [← Nat.mul_add]
    exact Nat.mul_le_mul_left _ remains
  omega

theorem ratio_after_room {debt : Nat} (high : target ≤ 3 * ratio) (positive : 0 < target)
    (close : debt * parts < (ratio + 1) * total) (carried : ratio * total ≤ target * remaining) :
    debt * parts < (target + 3) * remaining := by
  have hthird : total ≤ 3 * remaining := by
    refine Nat.le_of_mul_le_mul_left ?_ positive
    calc target * total
        ≤ 3 * ratio * total := Nat.mul_le_mul_right _ high
      _ = 3 * (ratio * total) := Nat.mul_assoc _ _ _
      _ ≤ 3 * (target * remaining) := Nat.mul_le_mul_left _ carried
      _ = target * (3 * remaining) := by ring
  calc debt * parts
      < (ratio + 1) * total := close
    _ = ratio * total + total := Nat.succ_mul _ _
    _ ≤ target * remaining + 3 * remaining := Nat.add_le_add carried hthird
    _ = (target + 3) * remaining := (Nat.add_mul _ _ _).symm

theorem ratio_after_few {debt : Nat} (low : 3 * (ratio + 1) ≤ target) (le : target ≤ parts)
    (close : debt * parts < (ratio + 1) * total) (few : removed ≤ 2 * debt)
    (remains : total ≤ remaining + removed) : debt * parts < target * remaining := by
  have hthrice : 3 * (debt * parts) < target * total := by
    calc 3 * (debt * parts)
        < 3 * ((ratio + 1) * total) := Nat.mul_lt_mul_of_pos_left close (by decide)
      _ = 3 * (ratio + 1) * total := (Nat.mul_assoc _ _ _).symm
      _ ≤ target * total := Nat.mul_le_mul_right _ low
  have htwice : target * removed ≤ 2 * (debt * parts) := by
    calc target * removed
        ≤ target * (2 * debt) := Nat.mul_le_mul_left _ few
      _ ≤ parts * (2 * debt) := Nat.mul_le_mul_right _ le
      _ = 2 * (debt * parts) := by ring
  have hremains : target * total ≤ target * remaining + target * removed := by
    rw [← Nat.mul_add]
    exact Nat.mul_le_mul_left _ remains
  omega

theorem ratio_after_removal {debt : Nat} (thirds : 3 ∣ target) (positive : 0 < target)
    (le : target ≤ parts) (some : 0 < total) (within : debt * parts / total ≤ target)
    (removes : removed ≤ roomOf parts total target (debt * parts / total))
    (few : removed ≤ 2 * debt) (remains : total ≤ remaining + removed) :
    debt * parts < (target + 3) * remaining := by
  have hclose : debt * parts < (debt * parts / total + 1) * total := by
    rw [Nat.mul_comm (_ + 1)]
    exact Nat.lt_mul_div_succ _ some
  generalize debt * parts / total = ratio at within removes hclose
  by_cases high : target ≤ 3 * ratio
  · exact ratio_after_room high positive hclose (ratio_mul_le_of_room within removes remains)
  · have hlow : 3 * (ratio + 1) ≤ target := by
      obtain ⟨third, rfl⟩ := thirds
      omega
    calc debt * parts
        < target * remaining := ratio_after_few hlow le hclose few remains
      _ ≤ (target + 3) * remaining := Nat.mul_le_mul_right _ (Nat.le_add_right _ _)

/-- The fewest units whose value the parts tell apart. -/
def grainOf (parts unit : Nat) : Nat := max 1 (unit / parts)

theorem le_truncValue_grain {unit price : Nat} (value : Nat) (positive : 0 < parts)
    (positive' : 0 < unit) (priced : 0 < price) (aligned : unit ∣ parts ∨ parts ∣ unit) :
    value ≤ truncValue parts unit price
      (truncAmount parts unit price value + grainOf parts unit) := by
  have hscaled : value * parts / price + 1 ≤
      (truncAmount parts unit price value + grainOf parts unit) * parts / unit := by
    unfold truncAmount grainOf
    generalize value * parts / price = scaled
    rcases aligned with ⟨factor, rfl⟩ | ⟨factor, rfl⟩
    · have hfactor : 0 < factor := Nat.pos_of_mul_pos_left positive
      have hnext : scaled < factor * (scaled / factor + 1) := Nat.lt_mul_div_succ _ hfactor
      rw [Nat.mul_div_mul_left _ _ positive']
      refine (Nat.le_div_iff_mul_le positive').mpr ?_
      calc (scaled + 1) * unit
          ≤ factor * (scaled / factor + 1) * unit := Nat.mul_le_mul_right _ hnext
        _ = (scaled / factor + 1) * (unit * factor) := by ring
        _ ≤ (scaled / factor + max 1 (unit / (unit * factor))) * (unit * factor) :=
            Nat.mul_le_mul_right _ (Nat.add_le_add_left (Nat.le_max_left _ _) _)
    · have hscaled : parts * factor * scaled = parts * (factor * scaled) := Nat.mul_assoc _ _ _
      rw [hscaled, Nat.mul_div_cancel_left _ positive, Nat.mul_div_cancel_left _ positive]
      refine (Nat.le_div_iff_mul_le positive').mpr ?_
      calc (scaled + 1) * (parts * factor)
          = (factor * scaled + factor) * parts := by ring
        _ ≤ (factor * scaled + max 1 factor) * parts :=
            Nat.mul_le_mul_right _ (Nat.add_le_add_left (Nat.le_max_right _ _) _)
  have hworth : value * parts < price * (value * parts / price + 1) :=
    Nat.lt_mul_div_succ _ priced
  unfold truncValue
  refine (Nat.le_div_iff_mul_le positive).mpr ?_
  exact Nat.le_trans (Nat.le_of_lt hworth) (Nat.mul_le_mul_left _ hscaled)

end Membrane
