import Mathlib.Algebra.Order.Ring.Nat
import Mathlib.Algebra.BigOperators.Group.List.Basic

/-!
# Taking from the front of a queue

A queue of elements that each hold an amount, and an amount that is taken from its front:
every element gives what what lies ahead of it leaves to be taken, at most all it holds.
-/

namespace Membrane.Fifo

universe u

variable {α : Type u} (amount : α → Nat) (resize : α → Nat → α)

/-- The elements of a queue, each with what lies ahead of it. -/
def withAhead : Nat → List α → List (α × Nat)
  | _, [] => []
  | ahead, a :: rest => (a, ahead) :: withAhead (ahead + amount a) rest

def takenOf (wanted : Nat) (entry : α × Nat) : Option α :=
  if entry.2 < wanted then some (resize entry.1 (min (amount entry.1) (wanted - entry.2)))
  else none

/-- The part of an element that is left. An element that is all taken leaves the queue. -/
def leftOf (wanted : Nat) (entry : α × Nat) : Option α :=
  if entry.2 < wanted ∧ amount entry.1 ≤ wanted - entry.2 then none
  else some (resize entry.1 (amount entry.1 - min (amount entry.1) (wanted - entry.2)))

/-- How a queue falls into what is taken and what is left, with the elements that are not
    all taken as they were: at the end of an element or inside of one. -/
inductive Parts : List α → List α → List α → List α → Prop
  | between (done rest : List α) : Parts (done ++ rest) done rest rest
  | inside (done : List α) (a : α) (rest : List α) (part : Nat) (positive : 0 < part)
      (less : part < amount a) :
      Parts (done ++ a :: rest) (done ++ [resize a part])
        (resize a (amount a - part) :: rest) (a :: rest)

/-- The elements of a queue that are not all taken. -/
def remaining (wanted ahead : Nat) (queue : List α) : List α :=
  ((withAhead amount ahead queue).filter fun entry =>
    (leftOf amount resize wanted entry).isSome).map Prod.fst

section

variable {amount resize} (same : ∀ a, resize a (amount a) = a)
include same

theorem beyond {wanted : Nat} : ∀ (queue : List α) {ahead : Nat}, wanted ≤ ahead →
    (withAhead amount ahead queue).filterMap (takenOf amount resize wanted) = [] ∧
      (withAhead amount ahead queue).filterMap (leftOf amount resize wanted) = queue ∧
      remaining amount resize wanted ahead queue = queue := by
  intro queue
  induction queue with
  | nil => exact fun _ => ⟨rfl, rfl, rfl⟩
  | cons a rest ih =>
    intro ahead far
    obtain ⟨htaken, hleft, hremaining⟩ := ih (Nat.le_add_right_of_le far (k := amount a))
    have hnot : ¬ ahead < wanted := Nat.not_lt.mpr far
    have hnone : takenOf amount resize wanted (a, ahead) = none := if_neg hnot
    have hwhole : leftOf amount resize wanted (a, ahead) = some a := by
      rw [leftOf, if_neg fun h => hnot h.1, Nat.sub_eq_zero_of_le far, Nat.min_zero, Nat.sub_zero,
        same]
    refine ⟨?_, ?_, ?_⟩
    · rw [withAhead, List.filterMap_cons_none hnone, htaken]
    · rw [withAhead, List.filterMap_cons_some hwhole, hleft]
    · rw [remaining, withAhead, List.filter_cons_of_pos (by rw [hwhole]; rfl), List.map_cons]
      exact congrArg (a :: ·) hremaining

theorem parts {wanted : Nat} : ∀ (queue : List α) (ahead : Nat),
    Parts amount resize queue
      ((withAhead amount ahead queue).filterMap (takenOf amount resize wanted))
      ((withAhead amount ahead queue).filterMap (leftOf amount resize wanted))
      (remaining amount resize wanted ahead queue) := by
  intro queue
  induction queue with
  | nil => exact fun _ => .between [] []
  | cons a rest ih =>
    intro ahead
    by_cases near : ahead < wanted
    · by_cases all : amount a ≤ wanted - ahead
      · -- the element is all taken
        have htaken : takenOf amount resize wanted (a, ahead) = some a := by
          rw [takenOf, if_pos near, Nat.min_eq_left all, same]
        have hleft : leftOf amount resize wanted (a, ahead) = none := if_pos ⟨near, all⟩
        have hrest := ih (ahead + amount a)
        rw [remaining] at hrest ⊢
        rw [withAhead, List.filterMap_cons_some htaken, List.filterMap_cons_none hleft,
          List.filter_cons_of_neg (by rw [hleft]; exact Bool.false_ne_true)]
        revert hrest
        generalize (withAhead amount (ahead + amount a) rest).filterMap
          (takenOf amount resize wanted) = taken
        generalize (withAhead amount (ahead + amount a) rest).filterMap
          (leftOf amount resize wanted) = left
        generalize (List.filter _ _).map Prod.fst = untouched
        intro hrest
        cases hrest with
        | between => exact .between (a :: taken) left
        | inside done b after part positive less =>
          exact .inside (a :: done) b after part positive less
      · -- a part of it is taken, and nothing after it
        have less : wanted - ahead < amount a := Nat.lt_of_not_le all
        have htaken :
            takenOf amount resize wanted (a, ahead) = some (resize a (wanted - ahead)) := by
          rw [takenOf, if_pos near, Nat.min_eq_right (Nat.le_of_lt less)]
        have hleft : leftOf amount resize wanted (a, ahead) =
            some (resize a (amount a - (wanted - ahead))) := by
          rw [leftOf, if_neg fun h => all h.2, Nat.min_eq_right (Nat.le_of_lt less)]
        obtain ⟨hnone, hall, hremaining⟩ := beyond same rest
          (show wanted ≤ ahead + amount a by omega)
        rw [remaining] at hremaining ⊢
        rw [withAhead, List.filterMap_cons_some htaken, List.filterMap_cons_some hleft,
          List.filter_cons_of_pos (by rw [hleft]; rfl), List.map_cons, hnone, hall, hremaining]
        exact .inside [] a rest (wanted - ahead) (Nat.sub_pos_of_lt near) less
    · obtain ⟨hnone, hall, hremaining⟩ := beyond same (a :: rest) (Nat.not_lt.mp near)
      rw [hnone, hall, hremaining]
      exact .between [] (a :: rest)

end

variable {amount resize}

theorem Parts.total (resized : ∀ a n, amount (resize a n) = n) {queue taken left untouched : List α}
    (parts : Parts amount resize queue taken left untouched) :
    (taken.map amount).sum + (left.map amount).sum = (queue.map amount).sum := by
  cases parts with
  | between done rest => rw [List.map_append, List.sum_append]
  | inside done a rest part _ less =>
    simp only [List.map_append, List.map_cons, List.map_nil, List.sum_append, List.sum_cons,
      List.sum_nil, resized]
    omega

theorem taken_sum (resized : ∀ a n, amount (resize a n) = n) {wanted : Nat} :
    ∀ (queue : List α) (ahead : Nat),
      (((withAhead amount ahead queue).filterMap (takenOf amount resize wanted)).map amount).sum =
        min (queue.map amount).sum (wanted - ahead) := by
  intro queue
  induction queue with
  | nil => intro ahead; simp [withAhead]
  | cons a rest ih =>
    intro ahead
    rw [withAhead, List.map_cons, List.sum_cons]
    by_cases near : ahead < wanted
    · have htaken : takenOf amount resize wanted (a, ahead) =
          some (resize a (min (amount a) (wanted - ahead))) := if_pos near
      rw [List.filterMap_cons_some htaken, List.map_cons, List.sum_cons, ih, resized]
      omega
    · have hnone : takenOf amount resize wanted (a, ahead) = none := if_neg near
      rw [List.filterMap_cons_none hnone, ih]
      omega

end Membrane.Fifo
