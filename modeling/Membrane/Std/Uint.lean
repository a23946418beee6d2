import Membrane.Lib.Traverse

/-!
# Unsigned integers of the contract runtime

Amounts are natural numbers; the operators of a machine width fail where the
runtime's do. The workspace is built with overflow checks on, so `+`, `-` and
`*` abort the transaction when the result does not fit.
-/

namespace Membrane

universe u

variable {ε : Type u}

/-- Subtraction of an unsigned integer of any width. -/
def subUint (a b : Nat) : Outcome ε Nat :=
  if b ≤ a then .ok (a - b) else Outcome.abort

@[simp]
theorem subUint_eq_ok {a b c : Nat} :
    (subUint a b : Outcome ε Nat) = .ok c ↔ b ≤ a ∧ a - b = c := by
  by_cases h : b ≤ a <;> simp [subUint, h]

theorem subUint_errorless (a b : Nat) : Outcome.Errorless (subUint a b : Outcome ε Nat) :=
  .ite (.pure _) .abort

namespace Uint64

/-- The first number past `u64::MAX`. -/
def limit : Nat := 2 ^ 64

/-- `a + b` on `u64`. -/
def add (a b : Nat) : Outcome ε Nat :=
  if a + b < limit then .ok (a + b) else Outcome.abort

/-- `a * b` on `u64`. -/
def mul (a b : Nat) : Outcome ε Nat :=
  if a * b < limit then .ok (a * b) else Outcome.abort

/-- `10u64.pow(decimals as u32)`: the cast keeps the low 32 bits, the power
    aborts from `10^20` on. -/
def tenPow (decimals : Nat) : Outcome ε Nat :=
  if decimals % 2 ^ 32 < 20 then .ok (10 ^ (decimals % 2 ^ 32)) else Outcome.abort

@[simp]
theorem add_eq_ok {a b c : Nat} :
    (add a b : Outcome ε Nat) = .ok c ↔ a + b < limit ∧ a + b = c := by
  by_cases h : a + b < limit <;> simp [add, h]

@[simp]
theorem mul_eq_ok {a b c : Nat} :
    (mul a b : Outcome ε Nat) = .ok c ↔ a * b < limit ∧ a * b = c := by
  by_cases h : a * b < limit <;> simp [mul, h]

theorem tenPow_eq_ok {decimals power : Nat} : (tenPow decimals : Outcome ε Nat) = .ok power ↔
    decimals % 2 ^ 32 < 20 ∧ 10 ^ (decimals % 2 ^ 32) = power := by
  unfold tenPow
  by_cases h : decimals % 2 ^ 32 < 20
  · rw [if_pos h, Except.ok.injEq]
    exact (and_iff_right h).symm
  · rw [if_neg h]
    exact iff_of_false (fun hfail => by cases hfail) fun hless => h hless.1

theorem tenPow_errorless (decimals : Nat) :
    Outcome.Errorless (tenPow decimals : Outcome ε Nat) := .ite (.pure _) .abort

end Uint64

namespace Uint128

/-- The first number past `Uint128::MAX`. -/
def limit : Nat := 2 ^ 128

/-- `a + b` on `Uint128`. -/
def add (a b : Nat) : Outcome ε Nat :=
  if a + b < limit then .ok (a + b) else Outcome.abort

/-- `a * b` on `Uint128`. -/
def mul (a b : Nat) : Outcome ε Nat :=
  if a * b < limit then .ok (a * b) else Outcome.abort

/-- `a / b` on `Uint128`. -/
def div (a b : Nat) : Outcome ε Nat :=
  if b = 0 then Outcome.abort else .ok (a / b)

/-- `a.multiply_ratio(numerator, denominator)`: the product is taken in full, the quotient
    must fit. -/
def multiplyRatio (a numerator denominator : Nat) : Outcome ε Nat :=
  if denominator = 0 then Outcome.abort
  else if a * numerator / denominator < limit then .ok (a * numerator / denominator)
  else Outcome.abort

/-- `a.checked_sub(b)`, nothing when it would go below zero. -/
def checkedSub (a b : Nat) : Option Nat :=
  if b ≤ a then some (a - b) else none

def sum (amounts : List Nat) : Outcome ε Nat := amounts.foldlM add 0

@[simp]
theorem add_eq_ok {a b c : Nat} :
    (add a b : Outcome ε Nat) = .ok c ↔ a + b < limit ∧ a + b = c := by
  by_cases h : a + b < limit <;> simp [add, h]

@[simp]
theorem mul_eq_ok {a b c : Nat} :
    (mul a b : Outcome ε Nat) = .ok c ↔ a * b < limit ∧ a * b = c := by
  by_cases h : a * b < limit <;> simp [mul, h]

@[simp]
theorem multiplyRatio_eq_ok {a numerator denominator c : Nat} :
    (multiplyRatio a numerator denominator : Outcome ε Nat) = .ok c ↔
      denominator ≠ 0 ∧ a * numerator / denominator < limit ∧ a * numerator / denominator = c := by
  unfold multiplyRatio
  by_cases hzero : denominator = 0
  · simp [hzero]
  · by_cases hfits : a * numerator / denominator < limit <;> simp [hzero, hfits]

theorem add_errorless (a b : Nat) : Outcome.Errorless (add a b : Outcome ε Nat) :=
  .ite (.pure _) .abort

@[simp]
theorem checkedSub_eq_some {a b c : Nat} : checkedSub a b = some c ↔ b ≤ a ∧ a - b = c := by
  by_cases h : b ≤ a <;> simp [checkedSub, h]

@[simp]
theorem checkedSub_eq_none {a b : Nat} : checkedSub a b = none ↔ a < b := by
  by_cases h : b ≤ a
  · simp [checkedSub, h]
  · simp [checkedSub, h]
    omega

private theorem foldlM_add (amounts : List Nat) :
    ∀ start total, amounts.foldlM (add (ε := ε)) start = .ok total →
      total = start + amounts.sum := by
  induction amounts with
  | nil =>
    intro start total done
    simp only [List.foldlM_nil, Outcome.pure_eq_ok] at done
    simp [done]
  | cons amount rest ih =>
    intro start total done
    simp only [List.foldlM_cons, Outcome.bind_eq_ok, add_eq_ok] at done
    obtain ⟨mid, ⟨-, rfl⟩, hrest⟩ := done
    have := ih _ _ hrest
    simp only [List.sum_cons]
    omega

theorem add_swaps (acc a b result : Nat)
    (done : (add acc a >>= fun mid => add mid b : Outcome ε Nat) = .ok result) :
    (add acc b >>= fun mid => add mid a : Outcome ε Nat) = .ok result := by
  simp only [Outcome.bind_eq_ok, add_eq_ok] at done ⊢
  obtain ⟨_, ⟨-, rfl⟩, hfits, rfl⟩ := done
  refine ⟨_, ⟨?_, rfl⟩, ?_, ?_⟩ <;> omega

theorem sum_perm {amounts amounts' : List Nat} {total : Nat} (perm : amounts.Perm amounts')
    (done : (sum amounts : Outcome ε Nat) = .ok total) :
    (sum amounts' : Outcome ε Nat) = .ok total :=
  Outcome.foldlM_perm (fun acc a b result h => add_swaps acc a b result h) perm done

theorem sum_eq {amounts : List Nat} {total : Nat}
    (done : (sum amounts : Outcome ε Nat) = .ok total) : total = amounts.sum := by
  have := foldlM_add amounts 0 total done
  omega

private theorem foldlM_add_fits (amounts : List Nat) :
    ∀ start, start + amounts.sum < limit →
      amounts.foldlM (add (ε := ε)) start = .ok (start + amounts.sum) := by
  induction amounts with
  | nil => intro start _; rfl
  | cons amount rest ih =>
    intro start fits
    rw [List.sum_cons, ← Nat.add_assoc] at fits ⊢
    rw [List.foldlM_cons, Outcome.bind_eq_ok]
    exact ⟨start + amount, add_eq_ok.mpr ⟨by omega, rfl⟩, ih _ fits⟩

theorem sum_fits {amounts : List Nat} (fits : amounts.sum < limit) :
    (sum amounts : Outcome ε Nat) = .ok amounts.sum := by
  have hsum := foldlM_add_fits (ε := ε) amounts 0 (by rwa [Nat.zero_add])
  rwa [Nat.zero_add] at hsum

end Uint128

end Membrane
