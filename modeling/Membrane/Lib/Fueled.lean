import Membrane.Lib.Outcome

/-!
# Calls that may not end

A recursive call whose arguments need not get smaller is run on fuel: each round of the
recursion takes one unit, and where there is none left the call is not finished. What a call
ends with on some fuel it ends with on more, so the outcome of a call that ends does not
depend on the fuel it was given. Messages that answer with messages are such a call.
-/

namespace Membrane

universe u v

/-- The outcome of a call on some fuel, nothing when the fuel ran out. -/
def Fueled (ε : Type u) (α : Type v) := Option (Outcome ε α)

namespace Fueled

variable {ε ε' : Type u} {α β γ : Type v}

instance fueledDecidableEq [DecidableEq ε] [DecidableEq α] : DecidableEq (Fueled ε α) :=
  inferInstanceAs (DecidableEq (Option (Outcome ε α)))

def outOfFuel : Fueled ε α := none

def lift (x : Outcome ε α) : Fueled ε α := some x

protected def bind (x : Fueled ε α) (f : α → Fueled ε β) : Fueled ε β :=
  match x with
  | none => none
  | some (.error fault) => some (.error fault)
  | some (.ok a) => f a

instance : Monad (Fueled ε) where
  pure a := some (.ok a)
  bind := Fueled.bind

/-- Turn the error value of a call into another; a panic stays a panic. -/
def mapErr (f : ε → ε') : Fueled ε α → Fueled ε' α
  | none => none
  | some outcome => some (Outcome.mapErr f outcome)

@[simp]
theorem lift_ok_bind {a : α} {f : α → Fueled ε β} : (lift (.ok a) >>= f) = f a := rfl

/-! ## Returning -/

/-- The call ends and returns `a`. -/
def Returns (x : Fueled ε α) (a : α) : Prop := x = some (.ok a)

theorem Returns.unique {x : Fueled ε α} {a a' : α} (returned : x.Returns a)
    (returned' : x.Returns a') : a = a' := by
  have hsame : some (Except.ok a) = some (Except.ok a') := returned.symm.trans returned'
  cases hsame
  rfl

@[simp]
theorem returns_pure {a b : α} : (pure a : Fueled ε α).Returns b ↔ a = b := by
  constructor
  · intro h
    cases h
    rfl
  · rintro rfl
    rfl

@[simp]
theorem returns_lift {x : Outcome ε α} {a : α} : (lift x).Returns a ↔ x = .ok a := by
  constructor
  · intro h
    exact Option.some.inj h
  · rintro rfl
    rfl

@[simp]
theorem returns_outOfFuel {a : α} : (outOfFuel : Fueled ε α).Returns a ↔ False := by
  constructor
  · intro h
    cases h
  · exact False.elim

@[simp]
theorem returns_bind {x : Fueled ε α} {f : α → Fueled ε β} {b : β} :
    (x >>= f).Returns b ↔ ∃ a, x.Returns a ∧ (f a).Returns b := by
  cases x with
  | none =>
    constructor
    · intro h
      cases h
    · rintro ⟨a, h, -⟩
      cases h
  | some outcome =>
    cases outcome with
    | error fault =>
      constructor
      · intro h
        cases h
      · rintro ⟨a, h, -⟩
        cases h
    | ok a =>
      constructor
      · intro h
        exact ⟨a, rfl, h⟩
      · rintro ⟨a', h, hrest⟩
        cases h
        exact hrest

@[simp]
theorem returns_mapErr {f : ε → ε'} {x : Fueled ε α} {a : α} :
    (mapErr f x).Returns a ↔ x.Returns a := by
  cases x with
  | none =>
    constructor
    · intro h
      cases h
    · intro h
      cases h
  | some outcome =>
    constructor
    · intro h
      exact congrArg some (Outcome.mapErr_eq_ok.mp (Option.some.inj h))
    · intro h
      exact congrArg some (Outcome.mapErr_eq_ok.mpr (Option.some.inj h))

def value (x : Fueled ε α) : Option α :=
  match x with
  | some (.ok a) => some a
  | _ => none

theorem value_eq_some {x : Fueled ε α} {a : α} : x.value = some a ↔ x.Returns a := by
  constructor
  · intro h
    unfold value at h
    split at h
    · cases h
      rfl
    · cases h
  · rintro rfl
    rfl

/-! ## Ending -/

/-- The call ends: it returns, fails or aborts. -/
def Finished (x : Fueled ε α) : Prop := x ≠ none

theorem finished_pure (a : α) : Finished (pure a : Fueled ε α) := by
  intro h
  cases h

theorem finished_lift (x : Outcome ε α) : Finished (lift x) := by
  intro h
  cases h

theorem finished_bind {x : Fueled ε α} {f : α → Fueled ε β} (first : Finished x)
    (rest : ∀ a, x.Returns a → Finished (f a)) : Finished (x >>= f) := by
  cases x with
  | none => exact absurd rfl first
  | some outcome =>
    cases outcome with
    | error fault =>
      intro h
      cases h
    | ok a => exact rest a rfl

theorem finished_mapErr {f : ε → ε'} {x : Fueled ε α} (ended : Finished x) :
    Finished (mapErr f x) := by
  cases x with
  | none => exact absurd rfl ended
  | some outcome =>
    intro h
    cases h

theorem finished_of_bind {x : Fueled ε α} {f : α → Fueled ε β} (ended : Finished (x >>= f)) :
    Finished x := by
  rintro rfl
  exact ended rfl

theorem finished_of_mapErr {f : ε → ε'} {x : Fueled ε α} (ended : Finished (mapErr f x)) :
    Finished x := by
  rintro rfl
  exact ended rfl

theorem finished_foldlM {step : γ → α → Fueled ε γ} :
    ∀ (l : List α) (acc : γ), (∀ a ∈ l, ∀ acc, Finished (step acc a)) →
      Finished (l.foldlM step acc) := by
  intro l
  induction l with
  | nil =>
    intro acc _
    exact finished_pure acc
  | cons a rest ih =>
    intro acc each
    rw [List.foldlM_cons]
    apply finished_bind
    · exact each a List.mem_cons_self acc
    · intro mid _
      exact ih mid fun b hb => each b (List.mem_cons_of_mem a hb)

/-! ## More fuel -/

/-- What `x` ends with, `y` ends with. -/
def Extends (x y : Fueled ε α) : Prop := ∀ outcome, x = some outcome → y = some outcome

namespace Extends

theorem refl (x : Fueled ε α) : Extends x x := fun _ h => h

theorem outOfFuel (y : Fueled ε α) : Extends outOfFuel y := by
  intro outcome h
  cases h

theorem returns {x y : Fueled ε α} {a : α} (more : Extends x y) (returned : x.Returns a) :
    y.Returns a := more _ returned

theorem bind {x y : Fueled ε α} {f g : α → Fueled ε β} (first : Extends x y)
    (rest : ∀ a, Extends (f a) (g a)) : Extends (x >>= f) (y >>= g) := by
  intro outcome h
  cases x with
  | none => cases h
  | some first' =>
    rw [first first' rfl]
    cases first' with
    | error fault => exact h
    | ok a => exact rest a outcome h

theorem mapErr {f : ε → ε'} {x y : Fueled ε α} (more : Extends x y) :
    Extends (mapErr f x) (Fueled.mapErr f y) := by
  intro outcome h
  cases x with
  | none => cases h
  | some ended =>
    rw [more ended rfl]
    exact h

theorem foldlM {step step' : γ → α → Fueled ε γ}
    (each : ∀ acc a, Extends (step acc a) (step' acc a)) :
    ∀ (l : List α) (acc : γ), Extends (l.foldlM step acc) (l.foldlM step' acc) := by
  intro l
  induction l with
  | nil =>
    intro acc
    exact refl _
  | cons a rest ih =>
    intro acc
    rw [List.foldlM_cons, List.foldlM_cons]
    apply bind
    · exact each acc a
    · exact ih

end Extends

/-- More fuel does not change what the call ends with. -/
def Stable (call : Nat → Fueled ε α) : Prop := ∀ n m, n ≤ m → Extends (call n) (call m)

/-- The call returns `a` on enough fuel. -/
def Converges (call : Nat → Fueled ε α) (a : α) : Prop := ∃ n, (call n).Returns a

/-- The call ends on enough fuel. -/
def Terminates (call : Nat → Fueled ε α) : Prop := ∃ n, ∀ m, n ≤ m → Finished (call m)

theorem enough_for_all {holds : α → Nat → Prop} :
    ∀ (l : List α), (∀ a ∈ l, ∃ n, ∀ m, n ≤ m → holds a m) →
      ∃ n, ∀ a ∈ l, ∀ m, n ≤ m → holds a m := by
  intro l
  induction l with
  | nil =>
    intro _
    refine ⟨0, fun a mem => ?_⟩
    cases mem
  | cons a rest ih =>
    intro each
    obtain ⟨n, hhead⟩ := each a List.mem_cons_self
    obtain ⟨n', hrest⟩ := ih fun b hb => each b (List.mem_cons_of_mem a hb)
    refine ⟨max n n', fun b mem m le => ?_⟩
    rcases List.mem_cons.mp mem with rfl | mem
    · exact hhead m (Nat.le_trans (Nat.le_max_left n n') le)
    · exact hrest b mem m (Nat.le_trans (Nat.le_max_right n n') le)

namespace Stable

variable {call : Nat → Fueled ε α}

theorem foldlM {step : Nat → γ → α → Fueled ε γ} (each : ∀ acc a, Stable fun n => step n acc a)
    (l : List α) (acc : γ) : Stable fun n => l.foldlM (step n) acc :=
  fun n m le => .foldlM (fun acc a => each acc a n m le) l acc

theorem unique {a a' : α} (stable : Stable call) (converges : Converges call a)
    (converges' : Converges call a') : a = a' := by
  obtain ⟨n, returned⟩ := converges
  obtain ⟨m, returned'⟩ := converges'
  have hleft := (stable n (max n m) (Nat.le_max_left n m)).returns returned
  have hright := (stable m (max n m) (Nat.le_max_right n m)).returns returned'
  exact hleft.unique hright

end Stable

namespace Converges

theorem bind {call : Nat → Fueled ε α} {rest : Nat → α → Fueled ε β} {a : α} {b : β}
    (first : Stable call) (each : Stable fun n => rest n a) (returned : Converges call a)
    (goesOn : Converges (fun n => rest n a) b) : Converges (fun n => call n >>= rest n) b := by
  obtain ⟨n, hfirst⟩ := returned
  obtain ⟨m, hrest⟩ := goesOn
  refine ⟨max n m, returns_bind.mpr ⟨a, ?_, ?_⟩⟩
  · exact (first n _ (Nat.le_max_left n m)).returns hfirst
  · exact (each m _ (Nat.le_max_right n m)).returns hrest

end Converges

/-! ## Messages that answer with messages -/

section Dispatch

variable {σ μ : Type v} {handle : μ → σ → Outcome ε (σ × List μ)} {rest : List μ} {s : σ}

/-- Handle messages one after the other, all that a message answers with before those that
    come after it. Each message takes one unit of fuel. -/
def dispatch (handle : μ → σ → Outcome ε (σ × List μ)) : Nat → List μ → σ → Fueled ε σ
  | _, [], s => pure s
  | 0, _ :: _, _ => outOfFuel
  | fuel + 1, msg :: rest, s => do
      let (s', answers) ← lift (handle msg s)
      dispatch handle fuel (answers ++ rest) s'

theorem dispatch_nil (fuel : Nat) : dispatch handle fuel [] s = pure s := by
  cases fuel <;> rfl

theorem returns_dispatch_cons {fuel : Nat} {msg : μ} {s' : σ}
    (returned : (dispatch handle fuel (msg :: rest) s).Returns s') :
    ∃ fuel' mid answers, fuel = fuel' + 1 ∧ handle msg s = .ok (mid, answers) ∧
      (dispatch handle fuel' (answers ++ rest) mid).Returns s' := by
  cases fuel with
  | zero => exact (returns_outOfFuel.mp returned).elim
  | succ fuel =>
    obtain ⟨⟨mid, answers⟩, hhandled, hrest⟩ := returns_bind.mp returned
    exact ⟨fuel, mid, answers, rfl, returns_lift.mp hhandled, hrest⟩

theorem dispatch_keeps {Inv : List μ → σ → Prop}
    (each : ∀ msg rest s s' answers, Inv (msg :: rest) s → handle msg s = .ok (s', answers) →
      Inv (answers ++ rest) s') :
    ∀ {fuel : Nat} {msgs : List μ} {s s' : σ}, Inv msgs s →
      (dispatch handle fuel msgs s).Returns s' → Inv [] s' := by
  intro fuel
  induction fuel with
  | zero =>
    intro msgs s s' start returned
    cases msgs with
    | nil =>
      obtain rfl := returns_pure.mp returned
      exact start
    | cons msg rest => exact (returns_outOfFuel.mp returned).elim
  | succ fuel ih =>
    intro msgs s s' start returned
    cases msgs with
    | nil =>
      obtain rfl := returns_pure.mp returned
      exact start
    | cons msg rest =>
      obtain ⟨⟨mid, answers⟩, hhandled, hrest⟩ := returns_bind.mp returned
      exact ih (each msg rest s mid answers start (returns_lift.mp hhandled)) hrest

theorem finished_dispatch {cost : List μ → σ → Nat}
    (positive : ∀ msg rest s, 0 < cost (msg :: rest) s)
    (lowers : ∀ msg rest s s' answers, handle msg s = .ok (s', answers) →
      cost (answers ++ rest) s' < cost (msg :: rest) s) :
    ∀ {fuel : Nat} {msgs : List μ} {s : σ}, cost msgs s ≤ fuel →
      (dispatch handle fuel msgs s).Finished := by
  intro fuel
  induction fuel with
  | zero =>
    intro msgs s within
    cases msgs with
    | nil => exact finished_pure s
    | cons msg rest => exact absurd within (Nat.not_le_of_lt (positive msg rest s))
  | succ fuel ih =>
    intro msgs s within
    cases msgs with
    | nil => exact finished_pure s
    | cons msg rest =>
      refine finished_bind (finished_lift _) fun result returned => ?_
      have hlower := lowers msg rest s result.1 result.2 (returns_lift.mp returned)
      exact ih (Nat.le_of_lt_succ (Nat.lt_of_lt_of_le hlower within))

end Dispatch

end Fueled

end Membrane
