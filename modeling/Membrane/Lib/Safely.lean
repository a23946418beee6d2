import Membrane.Lib.Outcome

/-!
# Calls that do not panic

A judgement on a composed call: it does not panic, and a result that it returns meets a
condition. An error value is allowed. The rules follow the way calls are composed, and the
rule for a loop carries an invariant of its accumulator.
-/

namespace Membrane.Outcome

universe u v

variable {ε ε' : Type u} {α β γ : Type v}

def panicked : Outcome ε α → Bool
  | .error .panic => true
  | _ => false

theorem panicked_iff {x : Outcome ε α} : panicked x = true ↔ x = .error .panic := by
  cases x with
  | ok a => simp [panicked]
  | error fault => cases fault <;> simp [panicked]

/-- The call does not panic, and what it returns meets `post`. -/
structure Safely (x : Outcome ε α) (post : α → Prop) : Prop where
  noPanic : x ≠ .error .panic
  returns : ∀ a, x = .ok a → post a

namespace Safely

variable {x : Outcome ε α} {post post' : α → Prop}

theorem mono (safe : Safely x post) (weaker : ∀ a, post a → post' a) : Safely x post' :=
  ⟨safe.noPanic, fun a done => weaker a (safe.returns a done)⟩

theorem pure {a : α} (holds : post a) : Safely (pure a : Outcome ε α) post := by
  constructor
  · intro panics
    cases panics
  · intro b done
    rw [pure_eq_ok] at done
    exact done ▸ holds

theorem fail (e : ε) : Safely (fail e : Outcome ε α) post := by
  constructor
  · intro panics
    cases panics
  · intro b done
    cases done

theorem bind {f : α → Outcome ε β} {post : β → Prop} {mid : α → Prop} (first : Safely x mid)
    (rest : ∀ a, x = .ok a → mid a → Safely (f a) post) : Safely (x >>= f) post := by
  cases hx : x with
  | error fault =>
    constructor
    · intro panics
      have hfault : fault = .panic := by
        cases panics
        rfl
      rw [hfault] at hx
      exact first.noPanic hx
    · intro b done
      cases done
  | ok a => exact rest a hx (first.returns a hx)

theorem bind_done {f : α → Outcome ε β} {post : β → Prop} {a : α} (done : x = .ok a)
    (rest : Safely (f a) post) : Safely (x >>= f) post := by
  rw [done]
  exact rest

theorem ite {cond : Prop} [Decidable cond] {y : Outcome ε α} (isTrue : cond → Safely x post)
    (isFalse : ¬ cond → Safely y post) : Safely (if cond then x else y) post := by
  by_cases h : cond
  · rw [if_pos h]
    exact isTrue h
  · rw [if_neg h]
    exact isFalse h

theorem guardErr {bad : Prop} [Decidable bad] {e : ε} :
    Safely (guardErr bad e) (fun _ => ¬ bad) := by
  by_cases h : bad
  · have hfails : Outcome.guardErr bad e = Outcome.fail e := if_pos h
    rw [hfails]
    exact fail e
  · have hpasses : Outcome.guardErr bad e = .ok ⟨⟩ := if_neg h
    rw [hpasses]
    exact pure h

theorem ofOption {o : Option α} {e : ε} : Safely (ofOption o e) (fun a => o = some a) := by
  cases o with
  | none => exact fail e
  | some a => exact pure rfl

theorem index {l : List α} {i : Nat} (bound : i < l.length) :
    Safely (index l i : Outcome ε α) (fun a => l[i]? = some a) := by
  have hdone : (Outcome.index l i : Outcome ε α) = .ok l[i] :=
    index_eq_ok.mpr (List.getElem?_eq_getElem bound)
  rw [hdone]
  exact pure (List.getElem?_eq_getElem bound)

theorem setIndex {l : List α} {i : Nat} {a : α} (bound : i < l.length) :
    Safely (setIndex l i a : Outcome ε (List α)) (fun l' => l' = l.set i a) := by
  have hdone : (Outcome.setIndex l i a : Outcome ε (List α)) = .ok (l.set i a) :=
    setIndex_eq_ok.mpr ⟨bound, rfl⟩
  rw [hdone]
  exact pure rfl

theorem removeIndex {l : List α} {i : Nat} (bound : i < l.length) :
    Safely (removeIndex l i : Outcome ε (List α)) (fun l' => l' = l.eraseIdx i) := by
  have hdone : (Outcome.removeIndex l i : Outcome ε (List α)) = .ok (l.eraseIdx i) :=
    removeIndex_eq_ok.mpr ⟨bound, rfl⟩
  rw [hdone]
  exact pure rfl

theorem mapErr {f : ε' → ε} {x : Outcome ε' α} (safe : Safely x post) :
    Safely (mapErr f x) post := by
  cases hx : x with
  | error fault =>
    cases fault with
    | err e => exact fail (f e)
    | panic => exact absurd hx safe.noPanic
  | ok a => exact pure (safe.returns a hx)

theorem forM {f : α → Outcome ε PUnit} {each : α → Prop} :
    ∀ {l : List α}, (∀ a ∈ l, Safely (f a) fun _ => each a) →
      Safely (l.forM f) fun _ => ∀ a ∈ l, each a := by
  intro l
  induction l with
  | nil =>
    intro _
    exact pure fun a mem => (List.not_mem_nil mem).elim
  | cons a rest ih =>
    intro all
    apply bind (all a List.mem_cons_self)
    intro _ _ hhead
    apply mono (ih fun b mem => all b (List.mem_cons_of_mem a mem))
    intro _ hrest
    exact List.forall_mem_cons.mpr ⟨hhead, hrest⟩

theorem mapM {f : α → Outcome ε β} {each : α → β → Prop} :
    ∀ {l : List α}, (∀ a ∈ l, Safely (f a) (each a)) →
      Safely (l.mapM f) (fun l' => ∀ b ∈ l', ∃ a ∈ l, each a b) := by
  intro l
  induction l with
  | nil =>
    intro _
    exact pure fun b mem => (List.not_mem_nil mem).elim
  | cons a rest ih =>
    intro all
    rw [List.mapM_cons]
    apply bind (all a List.mem_cons_self)
    intro b _ hb
    apply bind (ih fun a' mem => all a' (List.mem_cons_of_mem a mem))
    intro rest' _ hrest
    apply pure
    intro b' mem
    rcases List.mem_cons.mp mem with rfl | mem
    · exact ⟨a, List.mem_cons_self, hb⟩
    · obtain ⟨a', hmem, heach⟩ := hrest b' mem
      exact ⟨a', List.mem_cons_of_mem a hmem, heach⟩

end Safely

end Membrane.Outcome
