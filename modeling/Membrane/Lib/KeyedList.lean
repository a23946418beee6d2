import Mathlib.Algebra.BigOperators.Group.List.Basic
import Mathlib.Algebra.Order.Ring.Nat

/-!
# Keyed lists rewritten by filter and push

A list of records is used as a table when a record is looked up by the first element of
its key and written by filtering its key out and pushing the record at the end. Such a
list may hold several records of one key; the lemmas ask only that those behind the first
are blank, which a measure of the records does not see.
-/

namespace Membrane.KeyedList

universe u v w

variable {α : Type u} {κ : Type v} [DecidableEq κ] {key : α → κ}

/-- Behind a record there are only blank ones of its key. -/
def Shadowed (key : α → κ) (blank : α → Prop) (l : List α) : Prop :=
  l.Pairwise fun a b => key a = key b → blank b

theorem find?_push_self {k : κ} {a : α} (l : List α) (same : key a = k) :
    ((l.filter fun b => key b ≠ k) ++ [a]).find? (fun b => key b = k) = some a := by
  have hnone : (l.filter fun b => key b ≠ k).find? (fun b => key b = k) = none := by
    rw [List.find?_eq_none]
    intro b hb
    simpa using (List.mem_filter.mp hb).2
  rw [List.find?_append, hnone, Option.none_or, List.find?_cons_of_pos (by simpa using same)]

theorem find?_push_ne {k k' : κ} {a : α} (same : key a = k) (other : k ≠ k') :
    ∀ l : List α, ((l.filter fun b => key b ≠ k) ++ [a]).find? (fun b => key b = k') =
      l.find? (fun b => key b = k') := by
  intro l
  induction l with
  | nil =>
    have hne : ¬ key a = k' := fun h => other (same ▸ h)
    simp [hne]
  | cons b rest ih =>
    by_cases hb : key b = k
    · have hne : ¬ key b = k' := fun h => other (hb ▸ h)
      rw [List.filter_cons_of_neg (by simpa using hb), ih,
        List.find?_cons_of_neg (by simpa using hne)]
    · rw [List.filter_cons_of_pos (by simpa using hb), List.cons_append]
      by_cases hb' : key b = k'
      · rw [List.find?_cons_of_pos (by simpa using hb'),
          List.find?_cons_of_pos (by simpa using hb')]
      · rw [List.find?_cons_of_neg (by simpa using hb'),
          List.find?_cons_of_neg (by simpa using hb'), ih]

theorem push_push {k : κ} {a : α} (same : key a = k) (l : List α) (b : α) :
    ((((l.filter fun c => key c ≠ k) ++ [a]).filter fun c => key c ≠ k) ++ [b]) =
      (l.filter fun c => key c ≠ k) ++ [b] := by
  rw [List.filter_append, List.filter_filter, List.filter_cons_of_neg (by simpa using same)]
  simp

theorem sum_found_le (f : α → Nat) {keys : List κ} {l : List α} (distinct : keys.Nodup) :
    (keys.map fun k => (l.find? fun a => key a = k).elim 0 f).sum ≤ (l.map f).sum := by
  induction l generalizing keys with
  | nil => simp
  | cons a rest ih =>
    by_cases hmem : key a ∈ keys
    · have hothers :
          (keys.erase (key a)).map (fun k => ((a :: rest).find? fun b => key b = k).elim 0 f) =
          (keys.erase (key a)).map fun k => (rest.find? fun b => key b = k).elim 0 f := by
        refine List.map_congr_left fun k hk => ?_
        have hne : key a ≠ k := fun heq => distinct.not_mem_erase (heq ▸ hk)
        rw [List.find?_cons_of_neg (by simpa using hne)]
      have hsplit :=
        (List.perm_cons_erase hmem).map fun k => ((a :: rest).find? fun b => key b = k).elim 0 f
      rw [hsplit.sum_eq, List.map_cons, List.sum_cons, hothers,
        List.find?_cons_of_pos (by simp), List.map_cons, List.sum_cons]
      exact Nat.add_le_add_left (ih (distinct.erase _)) _
    · have hothers : keys.map (fun k => ((a :: rest).find? fun b => key b = k).elim 0 f) =
          keys.map fun k => (rest.find? fun b => key b = k).elim 0 f := by
        refine List.map_congr_left fun k hk => ?_
        have hne : key a ≠ k := fun heq => hmem (heq ▸ hk)
        rw [List.find?_cons_of_neg (by simpa using hne)]
      rw [hothers, List.map_cons, List.sum_cons]
      exact Nat.le_trans (ih distinct) (Nat.le_add_left _ _)

namespace Shadowed

variable {blank : α → Prop} {l : List α}

theorem push (h : Shadowed key blank l) {k : κ} {a : α} (same : key a = k) :
    Shadowed key blank ((l.filter fun b => key b ≠ k) ++ [a]) := by
  refine List.pairwise_append.mpr ⟨List.Pairwise.filter _ h, List.pairwise_singleton _ _, ?_⟩
  intro b hb c hc heq
  obtain rfl := List.mem_singleton.mp hc
  have hne : key b ≠ k := by simpa using (List.mem_filter.mp hb).2
  exact absurd (heq.trans same) hne

theorem perm_flatMap {δ : Type w} {g : α → List δ} (nothing : ∀ b, blank b → g b = []) {k : κ}
    {a : α} (h : Shadowed key blank l) (found : l.find? (fun b => key b = k) = some a) :
    (l.flatMap g).Perm (g a ++ (l.filter fun b => key b ≠ k).flatMap g) := by
  induction l with
  | nil => simp at found
  | cons b rest ih =>
    obtain ⟨hhead, hrest⟩ := List.pairwise_cons.mp h
    by_cases hb : key b = k
    · obtain rfl : b = a := by
        simpa [List.find?_cons_of_pos, hb] using found
      have hfiltered : (rest.filter fun c => key c ≠ k).flatMap g = rest.flatMap g := by
        clear ih found h hrest
        induction rest with
        | nil => rfl
        | cons c rest ih =>
          have ihrest := ih fun d hd => hhead d (List.mem_cons_of_mem c hd)
          by_cases hc : key c = k
          · have hblank := hhead c List.mem_cons_self (hb.trans hc.symm)
            rw [List.filter_cons_of_neg (by simpa using hc), List.flatMap_cons,
              nothing c hblank, List.nil_append, ihrest]
          · rw [List.filter_cons_of_pos (by simpa using hc), List.flatMap_cons,
              List.flatMap_cons, ihrest]
      rw [List.filter_cons_of_neg (by simpa using hb), List.flatMap_cons, hfiltered]
    · rw [List.find?_cons_of_neg (by simpa using hb)] at found
      rw [List.filter_cons_of_pos (by simpa using hb), List.flatMap_cons, List.flatMap_cons]
      have hperm := (ih hrest found).append_left (g b)
      refine hperm.trans ?_
      rw [← List.append_assoc, ← List.append_assoc]
      exact List.perm_append_comm.append_right _

theorem sum_split {f : α → Nat} (nothing : ∀ b, blank b → f b = 0) {k : κ} {a : α}
    (h : Shadowed key blank l) (found : l.find? (fun b => key b = k) = some a) :
    (l.map f).sum = f a + ((l.filter fun b => key b ≠ k).map f).sum := by
  induction l with
  | nil => simp at found
  | cons b rest ih =>
    obtain ⟨hhead, hrest⟩ := List.pairwise_cons.mp h
    by_cases hb : key b = k
    · obtain rfl : b = a := by
        simpa [List.find?_cons_of_pos, hb] using found
      have hfiltered : ((rest.filter fun c => key c ≠ k).map f).sum = (rest.map f).sum := by
        clear ih found h hrest
        induction rest with
        | nil => rfl
        | cons c rest ih =>
          have ihrest := ih fun d hd => hhead d (List.mem_cons_of_mem c hd)
          by_cases hc : key c = k
          · have hblank := hhead c List.mem_cons_self (hb.trans hc.symm)
            rw [List.filter_cons_of_neg (by simpa using hc), List.map_cons, List.sum_cons,
              nothing c hblank, Nat.zero_add, ihrest]
          · rw [List.filter_cons_of_pos (by simpa using hc), List.map_cons, List.map_cons,
              List.sum_cons, List.sum_cons, ihrest]
      rw [List.filter_cons_of_neg (by simpa using hb), List.map_cons, List.sum_cons, hfiltered]
    · rw [List.find?_cons_of_neg (by simpa using hb)] at found
      have hsplit := ih hrest found
      rw [List.filter_cons_of_pos (by simpa using hb), List.map_cons, List.map_cons,
        List.sum_cons, List.sum_cons, hsplit]
      omega

theorem sum_push {f : α → Nat} (nothing : ∀ b, blank b → f b = 0) {k : κ} {a : α} (a' : α)
    (h : Shadowed key blank l) (found : l.find? (fun b => key b = k) = some a) :
    (((l.filter fun b => key b ≠ k) ++ [a']).map f).sum + f a = (l.map f).sum + f a' := by
  rw [sum_split nothing h found, List.map_append, List.sum_append]
  simp only [List.map_cons, List.map_nil, List.sum_cons, List.sum_nil]
  omega

end Shadowed

end Membrane.KeyedList
