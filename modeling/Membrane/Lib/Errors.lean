import Membrane.Lib.Outcome

/-!
# The errors of a composed call

Which error values a call can return, panics aside. A composed call returns those of its
parts, so a bound on the errors of a handler is put together from bounds on what it calls.
-/

namespace Membrane.Outcome

universe u v

variable {ε ε' : Type u} {α β γ : Type v}

/-- Every error value of the call is among `allowed`. -/
structure ErrsWithin (allowed : ε → Prop) (x : Outcome ε α) : Prop where
  isAllowed : ∀ e, x = .error (.err e) → allowed e

namespace ErrsWithin

variable {allowed : ε → Prop}

theorem of_errorless {x : Outcome ε α} (errorless : Errorless x) : ErrsWithin allowed x :=
  ⟨fun e failed => absurd failed (errorless e)⟩

theorem pure (a : α) : ErrsWithin allowed (pure a : Outcome ε α) := of_errorless (.pure a)

theorem unwrap (o : Option α) : ErrsWithin allowed (unwrap o : Outcome ε α) :=
  of_errorless (.unwrap o)

theorem index (l : List α) (i : Nat) : ErrsWithin allowed (index l i : Outcome ε α) := unwrap _

theorem setIndex (l : List α) (i : Nat) (a : α) :
    ErrsWithin allowed (setIndex l i a : Outcome ε (List α)) :=
  of_errorless (.ite (.pure _) .abort)

theorem removeIndex (l : List α) (i : Nat) :
    ErrsWithin allowed (removeIndex l i : Outcome ε (List α)) :=
  of_errorless (.ite (.pure _) .abort)

theorem fail {e : ε} (isAllowed : allowed e) : ErrsWithin allowed (fail e : Outcome ε α) := by
  constructor
  intro e' failed
  cases failed
  exact isAllowed

theorem ite {bad : Prop} [Decidable bad] {x y : Outcome ε α} (isTrue : ErrsWithin allowed x)
    (isFalse : ErrsWithin allowed y) : ErrsWithin allowed (if bad then x else y) := by
  split
  · exact isTrue
  · exact isFalse

theorem guardErr {bad : Prop} [Decidable bad] {e : ε} (isAllowed : bad → allowed e) :
    ErrsWithin allowed (guardErr bad e) := by
  constructor
  intro e' failed
  obtain ⟨hbad, rfl⟩ := guardErr_eq_err.mp failed
  exact isAllowed hbad

theorem ofOption {o : Option α} {e : ε} (isAllowed : allowed e) :
    ErrsWithin allowed (ofOption o e) := by
  constructor
  intro e' failed
  obtain ⟨-, rfl⟩ := ofOption_eq_err.mp failed
  exact isAllowed

theorem bind {x : Outcome ε α} {f : α → Outcome ε β} (first : ErrsWithin allowed x)
    (rest : ∀ a, x = .ok a → ErrsWithin allowed (f a)) : ErrsWithin allowed (x >>= f) := by
  constructor
  intro e failed
  rcases bind_eq_err.mp failed with h | ⟨a, hfirst, h⟩
  · exact first.isAllowed e h
  · exact (rest a hfirst).isAllowed e h

theorem mapErr {f : ε' → ε} {x : Outcome ε' α} (isAllowed : ∀ e, allowed (f e)) :
    ErrsWithin allowed (mapErr f x) := by
  constructor
  intro e failed
  rcases x with (e' | _) | _
  · cases failed
    exact isAllowed e'
  · cases failed
  · cases failed

theorem foldlM {step : γ → α → Outcome ε γ} (one : ∀ acc a, ErrsWithin allowed (step acc a)) :
    ∀ (l : List α) (acc : γ), ErrsWithin allowed (l.foldlM step acc) := by
  intro l
  induction l with
  | nil =>
    intro acc
    exact pure acc
  | cons a rest ih =>
    intro acc
    rw [List.foldlM_cons]
    exact bind (one acc a) fun mid _ => ih mid

theorem forM {f : α → Outcome ε PUnit} (one : ∀ a, ErrsWithin allowed (f a)) :
    ∀ l : List α, ErrsWithin allowed (l.forM f) := by
  intro l
  induction l with
  | nil => exact pure _
  | cons a rest ih => exact bind (one a) fun _ _ => ih

end ErrsWithin

end Membrane.Outcome
