import Mathlib.Algebra.BigOperators.Group.List.Basic
import Mathlib.Algebra.Order.Ring.Nat

/-!
# Serving debts in order

An amount pays the debts of a list one after the other, each as far as the amount still
goes. The shares never exceed the debts, add up to the smaller of the amount and the
debts, and lower the debts by just that.
-/

namespace Membrane

def shares : List Nat → Nat → List Nat
  | [], _ => []
  | debt :: debts, amount => min debt amount :: shares debts (amount - min debt amount)

def lowered (debts paid : List Nat) : List Nat := List.zipWith (· - ·) debts paid

@[simp]
theorem shares_nil (amount : Nat) : shares [] amount = [] := rfl

@[simp]
theorem shares_cons (debt : Nat) (debts : List Nat) (amount : Nat) :
    shares (debt :: debts) amount = min debt amount :: shares debts (amount - min debt amount) :=
  rfl

theorem shares_le (debts : List Nat) (amount : Nat) :
    List.Forall₂ (· ≤ ·) (shares debts amount) debts := by
  induction debts generalizing amount with
  | nil => exact .nil
  | cons debt debts ih => exact .cons (Nat.min_le_left _ _) (ih _)

theorem shares_sum (debts : List Nat) (amount : Nat) :
    (shares debts amount).sum = min debts.sum amount := by
  induction debts generalizing amount with
  | nil => simp
  | cons debt debts ih =>
    rw [shares_cons, List.sum_cons, ih, List.sum_cons]
    omega

theorem lowered_sum (debts : List Nat) (amount : Nat) :
    (lowered debts (shares debts amount)).sum + (shares debts amount).sum = debts.sum := by
  induction debts generalizing amount with
  | nil => rfl
  | cons debt debts ih =>
    have htail := ih (amount - min debt amount)
    rw [lowered] at htail
    simp only [lowered, shares_cons, List.zipWith_cons_cons, List.sum_cons]
    omega

theorem sum_map_le {α : Type} {f g : α → Nat} {list : List α} (le : ∀ x ∈ list, f x ≤ g x) :
    (list.map f).sum ≤ (list.map g).sum ∧
      ((list.map f).sum = (list.map g).sum ↔ ∀ x ∈ list, f x = g x) := by
  induction list with
  | nil => exact ⟨Nat.le_refl _, fun _ _ mem => (List.not_mem_nil mem).elim, fun _ => rfl⟩
  | cons x rest ih =>
    obtain ⟨hle, hiff⟩ := ih fun y mem => le y (List.mem_cons_of_mem _ mem)
    have hhead := le x List.mem_cons_self
    simp only [List.map_cons, List.sum_cons, List.forall_mem_cons, ← hiff]
    omega

theorem sum_filter_ne_zero {α : Type} (debt : α → Nat) (list : List α) :
    ((list.filter fun x => debt x ≠ 0).map debt).sum = (list.map debt).sum := by
  induction list with
  | nil => rfl
  | cons x list ih =>
    by_cases hzero : debt x = 0
    · rw [List.filter_cons_of_neg (by simpa using hzero), ih, List.map_cons, List.sum_cons, hzero,
        Nat.zero_add]
    · rw [List.filter_cons_of_pos (by simpa using hzero), List.map_cons, List.sum_cons, ih,
        List.map_cons, List.sum_cons]

end Membrane
