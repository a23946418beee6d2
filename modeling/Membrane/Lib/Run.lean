import Mathlib.Logic.Relation

/-!
# Runs of a labelled system

A system takes labelled steps; a run is any finite sequence of them. A run may
be restricted to steps that meet a condition on the label and the state before
the step, which is how a property that holds only away from some inputs is
stated. The rule of invariants is proved once here.
-/

namespace Membrane

universe u v

variable {σ : Type u} {ℓ : Type v}

/-- One step from `s` to `s'` whose label is allowed in `s`. -/
def StepWhere (step : σ → ℓ → σ → Prop) (allowed : σ → ℓ → Prop) (s s' : σ) : Prop :=
  ∃ label, allowed s label ∧ step s label s'

/-- A finite run of allowed steps. -/
abbrev RunWhere (step : σ → ℓ → σ → Prop) (allowed : σ → ℓ → Prop) : σ → σ → Prop :=
  Relation.ReflTransGen (StepWhere step allowed)

namespace RunWhere

variable {step : σ → ℓ → σ → Prop} {allowed : σ → ℓ → Prop}

theorem keeps {Inv : σ → Prop}
    (keepsStep : ∀ s label s', Inv s → allowed s label → step s label s' → Inv s')
    {s s' : σ} (run : RunWhere step allowed s s') (start : Inv s) : Inv s' := by
  induction run with
  | refl => exact start
  | tail _ last ih =>
    obtain ⟨label, hallowed, hstep⟩ := last
    exact keepsStep _ label _ ih hallowed hstep

theorem snoc {s s' s'' : σ} (run : RunWhere step allowed s s') (label : ℓ)
    (hallowed : allowed s' label) (hstep : step s' label s'') : RunWhere step allowed s s'' :=
  Relation.ReflTransGen.tail run ⟨label, hallowed, hstep⟩

theorem mono {allowed' : σ → ℓ → Prop}
    (weaker : ∀ s label s', allowed s label → step s label s' → allowed' s label) {s s' : σ}
    (run : RunWhere step allowed s s') : RunWhere step allowed' s s' := by
  induction run with
  | refl => exact .refl
  | tail _ last ih =>
    obtain ⟨label, hallowed, hstep⟩ := last
    exact ih.tail ⟨label, weaker _ label _ hallowed hstep, hstep⟩

end RunWhere

/-! ## Executing a list of labels -/

/-- Take the steps of an executable system one after the other. -/
def execAll (exec : σ → ℓ → Option σ) : List ℓ → σ → Option σ
  | [], s => some s
  | label :: rest, s => (exec s label).bind (execAll exec rest)

theorem execAll_append (exec : σ → ℓ → Option σ) (labels later : List ℓ) (s : σ) :
    execAll exec (labels ++ later) s = (execAll exec labels s).bind (execAll exec later) := by
  induction labels generalizing s with
  | nil => rfl
  | cons label rest ih =>
    simp only [List.cons_append, execAll, Option.bind_assoc]
    exact congrArg (Option.bind (exec s label)) (funext ih)

theorem execAll_run {exec : σ → ℓ → Option σ} {step : σ → ℓ → σ → Prop} {allowed : σ → ℓ → Prop}
    (steps : ∀ s label s', exec s label = some s' → step s label s') :
    ∀ {labels : List ℓ} {s s' : σ}, (∀ label ∈ labels, ∀ s, allowed s label) →
      execAll exec labels s = some s' → RunWhere step allowed s s' := by
  intro labels
  induction labels with
  | nil =>
    intro s s' _ done
    obtain rfl : s = s' := Option.some.inj done
    exact .refl
  | cons label rest ih =>
    intro s s' hallowed done
    obtain ⟨mid, hstep, hrest⟩ := Option.bind_eq_some_iff.mp done
    have hhead : StepWhere step allowed s mid :=
      ⟨label, hallowed label List.mem_cons_self s, steps s label mid hstep⟩
    exact (Relation.ReflTransGen.single hhead).trans
      (ih (fun l hl => hallowed l (List.mem_cons_of_mem _ hl)) hrest)

/-- Take a step only when its label is allowed. -/
def execWhere (exec : σ → ℓ → Option σ) (allowed : σ → ℓ → Prop)
    [∀ s label, Decidable (allowed s label)] (s : σ) (label : ℓ) : Option σ :=
  if allowed s label then exec s label else none

theorem execWhere_run {exec : σ → ℓ → Option σ} {step : σ → ℓ → σ → Prop}
    {allowed : σ → ℓ → Prop} [∀ s label, Decidable (allowed s label)]
    (steps : ∀ s label s', exec s label = some s' → step s label s') :
    ∀ {labels : List ℓ} {s s' : σ}, execAll (execWhere exec allowed) labels s = some s' →
      RunWhere step allowed s s' := by
  intro labels
  induction labels with
  | nil =>
    intro s s' done
    obtain rfl : s = s' := Option.some.inj done
    exact .refl
  | cons label rest ih =>
    intro s s' done
    obtain ⟨mid, hstep, hrest⟩ := Option.bind_eq_some_iff.mp done
    unfold execWhere at hstep
    split at hstep
    case isTrue hallowed =>
      have hhead : StepWhere step allowed s mid := ⟨label, hallowed, steps s label mid hstep⟩
      exact (Relation.ReflTransGen.single hhead).trans (ih hrest)
    case isFalse => cases hstep

end Membrane
