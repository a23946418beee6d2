import Membrane.Lib.Outcome

/-!
# Fallible loops in another order

A fallible map that succeeds is a map, whatever the order of the list. A fallible
loop gives the same result on a permutation of its list when any two of its rounds
may be swapped. A loop that reads a second list at its own index is a loop over the
pairs. A fallible filter that succeeds is the filter by what its predicate returns.
-/

namespace Membrane.Outcome

universe u v

variable {ε : Type u} {α β γ δ : Type v}

/-- The result of a call, or `default` when it fails. -/
def getD (x : Outcome ε α) (default : α) : α :=
  match x with
  | .ok a => a
  | .error _ => default

theorem mapM_eq_ok_iff {f : α → Outcome ε β} (default : β) : ∀ {l : List α} {l' : List β},
    l.mapM f = .ok l' ↔
      (∀ a ∈ l, f a = .ok ((f a).getD default)) ∧ l' = l.map fun a => (f a).getD default := by
  intro l
  induction l with
  | nil =>
    intro l'
    rw [List.mapM_nil, pure_eq_ok]
    simp [eq_comm]
  | cons a rest ih =>
    intro l'
    simp only [List.mapM_cons, bind_eq_ok, pure_eq_ok, List.forall_mem_cons, List.map_cons]
    refine ⟨?_, ?_⟩
    · rintro ⟨b, hhead, rest', hrest, rfl⟩
      obtain ⟨hall, rfl⟩ := ih.mp hrest
      have hb : (f a).getD default = b := by rw [hhead]; rfl
      exact ⟨⟨by rw [hb]; exact hhead, hall⟩, by rw [hb]⟩
    · rintro ⟨⟨hhead, hall⟩, rfl⟩
      exact ⟨_, hhead, _, ih.mpr ⟨hall, rfl⟩, rfl⟩

theorem mapM_spec {f : α → Outcome ε β} {cond : α → Prop} {g : α → β} : ∀ {l : List α}
    {l' : List β}, (∀ a ∈ l, ∀ b, f a = .ok b ↔ cond a ∧ b = g a) →
    (l.mapM f = .ok l' ↔ (∀ a ∈ l, cond a) ∧ l' = l.map g) := by
  intro l
  induction l with
  | nil =>
    intro l' _
    rw [List.mapM_nil, pure_eq_ok]
    simp [eq_comm]
  | cons a rest ih =>
    intro l' spec
    have hrest : ∀ {l' : List β}, rest.mapM f = .ok l' ↔ (∀ a ∈ rest, cond a) ∧ l' = rest.map g :=
      ih fun a mem => spec a (List.mem_cons_of_mem _ mem)
    have hhead := spec a List.mem_cons_self
    simp only [List.mapM_cons, bind_eq_ok, pure_eq_ok, List.forall_mem_cons, List.map_cons]
    constructor
    · rintro ⟨b, hb, l', hl', rfl⟩
      obtain ⟨hcond, rfl⟩ := (hhead b).mp hb
      obtain ⟨hall, rfl⟩ := hrest.mp hl'
      exact ⟨⟨hcond, hall⟩, rfl⟩
    · rintro ⟨⟨hcond, hall⟩, rfl⟩
      exact ⟨_, (hhead _).mpr ⟨hcond, rfl⟩, _, hrest.mpr ⟨hall, rfl⟩, rfl⟩

theorem mapM_map {f : α → Outcome ε β} {known : β → δ} {g : α → δ}
    (each : ∀ a b, f a = .ok b → known b = g a) : ∀ {l : List α} {l' : List β},
    l.mapM f = .ok l' → l'.map known = l.map g := by
  intro l
  induction l with
  | nil =>
    intro l' done
    obtain rfl := pure_eq_ok.mp done
    rfl
  | cons a rest ih =>
    intro l' done
    simp only [List.mapM_cons, bind_eq_ok, pure_eq_ok] at done
    obtain ⟨b, hb, rest', hrest, rfl⟩ := done
    rw [List.map_cons, List.map_cons, each a b hb, ih hrest]

theorem forM_each {f : α → Outcome ε PUnit} : ∀ {l : List α}, l.forM f = .ok ⟨⟩ →
    ∀ a ∈ l, f a = .ok ⟨⟩ := by
  intro l
  induction l with
  | nil => exact fun _ a mem => (List.not_mem_nil mem).elim
  | cons head rest ih =>
    intro done a mem
    obtain ⟨_, hhead, hrest⟩ := bind_eq_ok.mp done
    cases mem with
    | head => exact hhead
    | tail _ hmem => exact ih hrest a hmem

theorem foldlM_fails {step : γ → α → Outcome ε γ} {a : α}
    (fails : ∀ acc acc', step acc a ≠ .ok acc') :
    ∀ {l : List α}, a ∈ l → ∀ acc acc' : γ, l.foldlM step acc ≠ .ok acc' := by
  intro l
  induction l with
  | nil => intro mem; cases mem
  | cons head rest ih =>
    intro mem acc acc' done
    rw [List.foldlM_cons, bind_eq_ok] at done
    obtain ⟨mid, hstep, hrest⟩ := done
    rcases List.mem_cons.mp mem with rfl | mem
    · exact fails acc mid hstep
    · exact ih mem mid acc' hrest

theorem foldlM_onward {step : γ → α → Outcome ε γ} {l : List α} {acc mid : γ} (l' : List α)
    (done : l.foldlM step acc = .ok mid) : (l ++ l').foldlM step acc = l'.foldlM step mid := by
  rw [List.foldlM_append, done]
  rfl

theorem foldlM_snoc {step : γ → α → Outcome ε γ} {l : List α} {acc mid : γ} {a : α}
    (done : l.foldlM step acc = .ok mid) : (l ++ [a]).foldlM step acc = step mid a := by
  rw [foldlM_onward [a] done]
  exact bind_pure _

/-- Every round of a loop meets a condition on the accumulator before it. -/
def EachRound (step : γ → α → Outcome ε γ) (cond : γ → α → Prop) : γ → List α → Prop
  | _, [] => True
  | acc, a :: rest => cond acc a ∧ ∀ acc', step acc a = .ok acc' → EachRound step cond acc' rest

theorem foldlM_safe_iff {step : γ → α → Outcome ε γ} {cond : γ → α → Prop} (Inv Good : γ → Prop)
    (keeps : ∀ acc a acc', Inv acc → step acc a = .ok acc' → Inv acc')
    (stays : ∀ acc a acc', step acc a = .ok acc' → Good acc' → Good acc)
    (round : ∀ acc a, Inv acc → Good acc →
      (cond acc a ↔ ∃ acc', step acc a = .ok acc' ∧ Good acc')) :
    ∀ (l : List α) (acc : γ), Inv acc → Good acc →
      ((∃ acc', l.foldlM step acc = .ok acc' ∧ Good acc') ↔ EachRound step cond acc l) := by
  intro l
  induction l with
  | nil =>
    intro acc _ good
    exact ⟨fun _ => trivial, fun _ => ⟨acc, rfl, good⟩⟩
  | cons a rest ih =>
    intro acc inv good
    rw [List.foldlM_cons]
    constructor
    · rintro ⟨acc', done, good'⟩
      obtain ⟨mid, hstep, hrest⟩ := bind_eq_ok.mp done
      have hmid : Good mid := by
        by_contra bad
        exact foldlM_keeps (fun acc => ¬ Good acc)
          (fun acc a acc' bad hstep good => bad (stays acc a acc' hstep good))
          rest mid acc' bad hrest good'
      refine ⟨(round acc a inv good).mpr ⟨mid, hstep, hmid⟩, fun next hnext => ?_⟩
      obtain rfl : mid = next := Except.ok.inj (hstep.symm.trans hnext)
      exact (ih mid (keeps acc a mid inv hstep) hmid).mp ⟨acc', hrest, good'⟩
    · rintro ⟨hcond, hrest⟩
      obtain ⟨mid, hstep, hmid⟩ := (round acc a inv good).mp hcond
      obtain ⟨acc', hdone, good'⟩ :=
        (ih mid (keeps acc a mid inv hstep) hmid).mpr (hrest mid hstep)
      exact ⟨acc', bind_eq_ok.mpr ⟨mid, hstep, hdone⟩, good'⟩

theorem EachRound.take {step : γ → α → Outcome ε γ} {cond : γ → α → Prop} :
    ∀ {l : List α} {acc : γ}, EachRound step cond acc l → ∀ n,
      EachRound step cond acc (l.take n) := by
  intro l
  induction l with
  | nil =>
    intro acc each n
    rw [List.take_nil]
    exact each
  | cons a rest ih =>
    intro acc each n
    cases n with
    | zero => exact trivial
    | succ n => exact ⟨each.1, fun acc' hstep => ih (each.2 acc' hstep) n⟩

theorem foldlM_perm {step : γ → α → Outcome ε γ}
    (swaps : ∀ acc a b result, (step acc a >>= fun mid => step mid b) = .ok result →
      (step acc b >>= fun mid => step mid a) = .ok result) {l l' : List α} (perm : l.Perm l') :
    ∀ {acc result : γ}, l.foldlM step acc = .ok result → l'.foldlM step acc = .ok result := by
  induction perm with
  | nil => exact fun done => done
  | cons a _ ih =>
    intro acc result done
    rw [List.foldlM_cons, bind_eq_ok] at done ⊢
    obtain ⟨mid, hstep, hrest⟩ := done
    exact ⟨mid, hstep, ih hrest⟩
  | swap a b rest =>
    intro acc result done
    simp only [List.foldlM_cons, bind_eq_ok] at done ⊢
    obtain ⟨mid, hfirst, next, hsecond, hrest⟩ := done
    obtain ⟨mid', hfirst', hsecond'⟩ :=
      bind_eq_ok.mp (swaps acc b a next (bind_eq_ok.mpr ⟨mid, hfirst, hsecond⟩))
    exact ⟨mid', hfirst', next, hsecond', hrest⟩
  | trans _ _ ih ih' => exact fun done => ih' (ih done)

theorem foldlM_zipIdx_map (g : α → β) (step : γ → α → β → Outcome ε γ) (l : List α) (acc : γ) :
    (l.zipIdx.foldlM (fun acc entry => do
      let b ← index (l.map g) entry.2
      step acc entry.1 b) acc) = l.foldlM (fun acc a => step acc a (g a)) acc := by
  suffices h : ∀ (front rest : List α) (acc : γ),
      ((rest.zipIdx front.length).foldlM (fun acc entry => do
        let b ← index ((front ++ rest).map g) entry.2
        step acc entry.1 b) acc) = rest.foldlM (fun acc a => step acc a (g a)) acc from h [] l acc
  intro front rest
  induction rest generalizing front with
  | nil => intro acc; rfl
  | cons a rest ih =>
    intro acc
    have hget : (index ((front ++ a :: rest).map g) front.length : Outcome ε β) = .ok (g a) := by
      rw [index_eq_ok, List.getElem?_map]
      simp
    have hfront := ih (front ++ [a])
    simp only [List.append_assoc, List.singleton_append, List.length_append, List.length_cons,
      List.length_nil, Nat.zero_add] at hfront
    rw [List.zipIdx_cons, List.foldlM_cons, List.foldlM_cons]
    simp only [hget]
    exact congrArg (step acc a (g a) >>= ·) (funext fun mid => hfront mid)

theorem mapM_zipIdx_map (g : α → β) (f : α → β → Outcome ε δ) (l : List α) :
    (l.zipIdx.mapM fun entry => do
      let b ← index (l.map g) entry.2
      f entry.1 b) = l.mapM fun a => f a (g a) := by
  suffices h : ∀ (front rest : List α),
      ((rest.zipIdx front.length).mapM fun entry => do
        let b ← index ((front ++ rest).map g) entry.2
        f entry.1 b) = rest.mapM fun a => f a (g a) from h [] l
  intro front rest
  induction rest generalizing front with
  | nil => rfl
  | cons a rest ih =>
    have hget : (index ((front ++ a :: rest).map g) front.length : Outcome ε β) = .ok (g a) := by
      rw [index_eq_ok, List.getElem?_map]
      simp
    have hfront := ih (front ++ [a])
    simp only [List.append_assoc, List.singleton_append, List.length_append, List.length_cons,
      List.length_nil, Nat.zero_add] at hfront
    rw [List.zipIdx_cons, List.mapM_cons, List.mapM_cons, hfront]
    simp only [hget]
    rfl

/-! ## Filters -/

section Filters

variable {α : Type}

def holds : Outcome ε Bool → Bool
  | .ok b => b
  | .error _ => false

theorem holds_eq_true {x : Outcome ε Bool} : holds x = true ↔ x = .ok true := by
  cases x with
  | ok b => simp [holds]
  | error e => simp [holds]

theorem filterAuxM_spec {p : α → Outcome ε Bool} :
    ∀ {l acc selected : List α}, (l.filterAuxM p acc : Outcome ε (List α)) = .ok selected →
      (∀ a ∈ l, p a = .ok (holds (p a))) ∧
        selected = (l.filter fun a => holds (p a)).reverse ++ acc := by
  intro l
  induction l with
  | nil =>
    intro acc selected done
    obtain rfl := pure_eq_ok.mp done
    exact ⟨by simp, rfl⟩
  | cons a rest ih =>
    intro acc selected done
    rw [List.filterAuxM, bind_eq_ok] at done
    obtain ⟨b, hhead, hrest⟩ := done
    obtain ⟨hall, rfl⟩ := ih hrest
    refine ⟨fun a' mem => ?_, ?_⟩
    · rcases List.mem_cons.mp mem with rfl | mem
      · rw [hhead]
        rfl
      · exact hall a' mem
    · rw [List.filter_cons, hhead]
      cases b <;> simp [holds]

theorem filterM_spec {p : α → Outcome ε Bool} {l selected : List α}
    (done : (l.filterM p : Outcome ε (List α)) = .ok selected) :
    (∀ a ∈ l, p a = .ok (holds (p a))) ∧ selected = l.filter fun a => holds (p a) := by
  rw [List.filterM, bind_eq_ok] at done
  obtain ⟨reversed, hloop, hdone⟩ := done
  obtain rfl := pure_eq_ok.mp hdone
  obtain ⟨hall, rfl⟩ := filterAuxM_spec hloop
  exact ⟨hall, by simp⟩

theorem mem_filterM {p : α → Outcome ε Bool} {l selected : List α} {a : α}
    (done : (l.filterM p : Outcome ε (List α)) = .ok selected) :
    a ∈ selected ↔ a ∈ l ∧ p a = .ok true := by
  rw [(filterM_spec done).2, List.mem_filter, holds_eq_true]

end Filters

end Membrane.Outcome
