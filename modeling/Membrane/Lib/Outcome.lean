import Mathlib.Algebra.Order.Ring.Nat
import Mathlib.Data.List.Basic

/-!
# Outcomes of a contract call

A call of a smart contract returns a value, returns an error value, or panics.
An error value can be matched on by the caller, which may go on after it. A panic
(an overflow of checked arithmetic, a division by zero, an index past the end,
an `unwrap` of nothing) aborts the whole transaction and no caller sees it.
`Outcome` keeps the two apart, and the lemmas below take a successful run of a
composed call apart into successful runs of its parts.
-/

namespace Membrane

universe u v w

/-- Why a call did not succeed. -/
inductive Fault (ε : Type u) where
  | err (error : ε)
  | panic
  deriving DecidableEq, Repr

/-- The result of a fallible call. -/
abbrev Outcome (ε : Type u) (α : Type v) := Except (Fault ε) α

instance exceptDecidableEq {ε : Type u} {α : Type v} [DecidableEq ε] [DecidableEq α] :
    DecidableEq (Except ε α)
  | .ok a, .ok b => decidable_of_iff (a = b) ⟨congrArg Except.ok, Except.ok.inj⟩
  | .error a, .error b => decidable_of_iff (a = b) ⟨congrArg Except.error, Except.error.inj⟩
  | .ok _, .error _ => isFalse nofun
  | .error _, .ok _ => isFalse nofun

namespace Outcome

variable {ε ε' : Type u} {α β : Type v}

def fail (e : ε) : Outcome ε α := .error (.err e)

/-- Abort the transaction. -/
def abort : Outcome ε α := .error .panic

/-- Stop with `e` when `bad` holds. -/
def guardErr (bad : Prop) [Decidable bad] (e : ε) : Outcome ε PUnit :=
  if bad then fail e else .ok ⟨⟩

/-- Abort when `bad` holds. -/
def guardPanic (bad : Prop) [Decidable bad] : Outcome ε PUnit :=
  if bad then abort else .ok ⟨⟩

/-- Turn the error value of a call into another; a panic stays a panic. -/
def mapErr (f : ε → ε') : Outcome ε α → Outcome ε' α
  | .ok a => .ok a
  | .error (.err e) => .error (.err (f e))
  | .error .panic => .error .panic

/-- Hand the error value of a call to the caller as data; a panic stays a panic. -/
def attempt : Outcome ε α → Outcome ε' (Except ε α)
  | .ok a => .ok (.ok a)
  | .error (.err e) => .ok (.error e)
  | .error .panic => .error .panic

/-- Go on with `default` after an error value; a panic stays a panic. -/
def recover (x : Outcome ε α) (default : α) : Outcome ε' α :=
  match x with
  | .ok a => .ok a
  | .error (.err _) => .ok default
  | .error .panic => .error .panic

/-- `unwrap` of a call's result: its error value aborts. -/
def orAbort (x : Outcome ε α) : Outcome ε' α :=
  match x with
  | .ok a => .ok a
  | .error _ => .error .panic

/-- A call that can only fail with an error value. -/
def ofExcept : Except ε α → Outcome ε α
  | .ok a => .ok a
  | .error e => .error (.err e)

/-- An absent value is the error `e`. -/
def ofOption (o : Option α) (e : ε) : Outcome ε α :=
  match o with
  | some a => .ok a
  | none => fail e

def unwrap (o : Option α) : Outcome ε α :=
  match o with
  | some a => .ok a
  | none => abort

/-- `list[i]`, a panic past the end. -/
def index (l : List α) (i : Nat) : Outcome ε α := unwrap l[i]?

/-- `list[i] = a`, a panic past the end. -/
def setIndex (l : List α) (i : Nat) (a : α) : Outcome ε (List α) :=
  if i < l.length then .ok (l.set i a) else abort

/-- `list.remove(i)`, a panic past the end. -/
def removeIndex (l : List α) (i : Nat) : Outcome ε (List α) :=
  if i < l.length then .ok (l.eraseIdx i) else abort

@[simp]
theorem bind_eq_ok {x : Outcome ε α} {f : α → Outcome ε β} {b : β} :
    (x >>= f) = .ok b ↔ ∃ a, x = .ok a ∧ f a = .ok b := by
  cases x with
  | error e => simp [bind, Except.bind]
  | ok a => simp [bind, Except.bind]

theorem bind_succeeds {x : Outcome ε α} {f : α → Outcome ε β} {a : α} (first : x = .ok a)
    (rest : ∃ b, f a = .ok b) : ∃ b, (x >>= f) = .ok b := by
  obtain ⟨b, hrest⟩ := rest
  exact ⟨b, bind_eq_ok.mpr ⟨a, first, hrest⟩⟩

@[simp]
theorem pure_eq_ok {a b : α} : (pure a : Outcome ε α) = .ok b ↔ a = b := by
  simp [pure, Except.pure]

@[simp]
theorem fail_eq_ok {e : ε} {a : α} : (fail e : Outcome ε α) = .ok a ↔ False := by
  simp [fail]

@[simp]
theorem abort_eq_ok {a : α} : (abort : Outcome ε α) = .ok a ↔ False := by
  simp [abort]

@[simp]
theorem guardErr_eq_ok {bad : Prop} [Decidable bad] {e : ε} {a : PUnit} :
    guardErr bad e = .ok a ↔ ¬ bad := by
  by_cases h : bad
  · simp [guardErr, h]
  · simp [guardErr, h]

@[simp]
theorem guardPanic_eq_ok {bad : Prop} [Decidable bad] {a : PUnit} :
    (guardPanic bad : Outcome ε PUnit) = .ok a ↔ ¬ bad := by
  by_cases h : bad
  · simp [guardPanic, h]
  · simp [guardPanic, h]

@[simp]
theorem mapErr_eq_ok {f : ε → ε'} {x : Outcome ε α} {a : α} :
    mapErr f x = .ok a ↔ x = .ok a := by
  rcases x with (_ | _) | _ <;> simp [mapErr]

@[simp]
theorem attempt_eq_ok_ok {x : Outcome ε α} {a : α} :
    (attempt x : Outcome ε' (Except ε α)) = .ok (.ok a) ↔ x = .ok a := by
  rcases x with (_ | _) | _ <;> simp [attempt]

@[simp]
theorem ofExcept_eq_ok {x : Except ε α} {a : α} : ofExcept x = .ok a ↔ x = .ok a := by
  cases x <;> simp [ofExcept]

@[simp]
theorem ofOption_eq_ok {o : Option α} {e : ε} {a : α} :
    ofOption o e = .ok a ↔ o = some a := by
  cases o <;> simp [ofOption]

@[simp]
theorem unwrap_eq_ok {o : Option α} {a : α} :
    (unwrap o : Outcome ε α) = .ok a ↔ o = some a := by
  cases o <;> simp [unwrap]

@[simp]
theorem index_eq_ok {l : List α} {i : Nat} {a : α} :
    (index l i : Outcome ε α) = .ok a ↔ l[i]? = some a := by
  simp [index]

@[simp]
theorem setIndex_eq_ok {l l' : List α} {i : Nat} {a : α} :
    (setIndex l i a : Outcome ε (List α)) = .ok l' ↔ i < l.length ∧ l.set i a = l' := by
  by_cases h : i < l.length <;> simp [setIndex, h]

@[simp]
theorem removeIndex_eq_ok {l l' : List α} {i : Nat} :
    (removeIndex l i : Outcome ε (List α)) = .ok l' ↔ i < l.length ∧ l.eraseIdx i = l' := by
  by_cases h : i < l.length <;> simp [removeIndex, h]

theorem foldlM_keeps_mem {γ : Type v} {step : γ → α → Outcome ε γ} (Inv : γ → Prop) :
    ∀ (l : List α) (acc acc' : γ),
      (∀ acc a acc', a ∈ l → Inv acc → step acc a = .ok acc' → Inv acc') →
      Inv acc → l.foldlM step acc = .ok acc' → Inv acc' := by
  intro l
  induction l with
  | nil =>
    intro acc acc' _ hinv hrun
    simp only [List.foldlM_nil, pure_eq_ok] at hrun
    exact hrun ▸ hinv
  | cons a rest ih =>
    intro acc acc' keeps hinv hrun
    simp only [List.foldlM_cons, bind_eq_ok] at hrun
    obtain ⟨mid, hstep, hrest⟩ := hrun
    exact ih mid acc' (fun acc b acc' hb => keeps acc b acc' (List.mem_cons_of_mem a hb))
      (keeps acc a mid List.mem_cons_self hinv hstep) hrest

theorem foldlM_keeps {γ : Type v} {step : γ → α → Outcome ε γ} (Inv : γ → Prop)
    (keeps : ∀ acc a acc', Inv acc → step acc a = .ok acc' → Inv acc')
    (l : List α) (acc acc' : γ) (hinv : Inv acc) (hrun : l.foldlM step acc = .ok acc') : Inv acc' :=
  foldlM_keeps_mem Inv l acc acc' (fun acc a acc' _ => keeps acc a acc') hinv hrun

theorem foldlM_appends {γ δ : Type v} {step : γ → α → Outcome ε γ} (entries : γ → List δ)
    (entry : α → δ)
    (appends : ∀ acc a acc', step acc a = .ok acc' → entries acc' = entries acc ++ [entry a]) :
    ∀ (l : List α) (acc acc' : γ), l.foldlM step acc = .ok acc' →
      entries acc' = entries acc ++ l.map entry := by
  intro l
  induction l with
  | nil =>
    intro acc acc' hrun
    simp only [List.foldlM_nil, pure_eq_ok] at hrun
    simp [hrun]
  | cons a rest ih =>
    intro acc acc' hrun
    simp only [List.foldlM_cons, bind_eq_ok] at hrun
    obtain ⟨mid, hstep, hrest⟩ := hrun
    rw [ih mid acc' hrest, appends acc a mid hstep, List.map_cons, List.append_assoc,
      List.singleton_append]

theorem mapM_forall₂ {f : α → Outcome ε β} :
    ∀ {l : List α} {l' : List β}, l.mapM f = .ok l' →
      List.Forall₂ (fun a b => f a = .ok b) l l' := by
  intro l
  induction l with
  | nil =>
    intro l' hrun
    simp only [List.mapM_nil, pure_eq_ok] at hrun
    exact hrun ▸ .nil
  | cons a rest ih =>
    intro l' hrun
    simp only [List.mapM_cons, bind_eq_ok, pure_eq_ok] at hrun
    obtain ⟨b, hhead, rest', hrest, rfl⟩ := hrun
    exact .cons hhead (ih hrest)

/-! ## Error values -/

theorem bind_eq_err {x : Outcome ε α} {f : α → Outcome ε β} {e : ε} :
    (x >>= f) = .error (.err e) ↔
      x = .error (.err e) ∨ ∃ a, x = .ok a ∧ f a = .error (.err e) := by
  cases x with
  | error e => simp [bind, Except.bind]
  | ok a => simp [bind, Except.bind]

theorem pure_eq_err {a : α} {e : ε} : (pure a : Outcome ε α) = .error (.err e) ↔ False := by
  simp [pure, Except.pure]

theorem guardErr_eq_err {bad : Prop} [Decidable bad] {e e' : ε} :
    guardErr bad e = .error (.err e') ↔ bad ∧ e = e' := by
  by_cases h : bad
  · simp [guardErr, fail, h]
  · simp [guardErr, h]

theorem ofOption_eq_err {o : Option α} {e e' : ε} :
    ofOption o e = .error (.err e') ↔ o = none ∧ e = e' := by
  cases o <;> simp [ofOption, fail]

/-- A call that returns no error value: it succeeds or panics. -/
def Errorless (x : Outcome ε α) : Prop := ∀ e, x ≠ .error (.err e)

namespace Errorless

theorem pure (a : α) : Errorless (pure a : Outcome ε α) := by
  intro e h
  cases h

theorem abort : Errorless (abort : Outcome ε α) := by
  intro e h
  cases h

theorem bind {x : Outcome ε α} {f : α → Outcome ε β} (first : Errorless x)
    (rest : ∀ a, Errorless (f a)) : Errorless (x >>= f) := by
  intro e h
  cases x with
  | error fault =>
    cases fault with
    | err e' => exact first e' rfl
    | panic => cases h
  | ok a => exact rest a e h

theorem ite {bad : Prop} [Decidable bad] {x y : Outcome ε α} (isTrue : Errorless x)
    (isFalse : Errorless y) : Errorless (if bad then x else y) := by
  split
  · exact isTrue
  · exact isFalse

theorem guardPanic {bad : Prop} [Decidable bad] :
    Errorless (guardPanic bad : Outcome ε PUnit) := ite abort (pure _)

theorem unwrap (o : Option α) : Errorless (unwrap o : Outcome ε α) := by
  cases o with
  | none => exact abort
  | some a => exact pure a

theorem attempt (x : Outcome ε' α) : Errorless (attempt x : Outcome ε (Except ε' α)) := by
  intro e h
  cases x with
  | ok a => cases h
  | error fault =>
    cases fault with
    | err e' => cases h
    | panic => cases h

theorem foldlM {γ : Type v} {step : γ → α → Outcome ε γ} (one : ∀ acc a, Errorless (step acc a)) :
    ∀ (l : List α) (acc : γ), Errorless (l.foldlM step acc) := by
  intro l
  induction l with
  | nil => intro acc; exact pure acc
  | cons a rest ih =>
    intro acc
    rw [List.foldlM_cons]
    exact bind (one acc a) fun mid => ih mid

theorem mapM {f : α → Outcome ε β} (one : ∀ a, Errorless (f a)) :
    ∀ l : List α, Errorless (l.mapM f) := by
  intro l
  induction l with
  | nil =>
    rw [List.mapM_nil]
    exact pure []
  | cons a rest ih =>
    rw [List.mapM_cons]
    exact bind (one a) fun b => bind ih fun rest' => pure _

end Errorless

end Outcome

end Membrane
