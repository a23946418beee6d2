import Mathlib.Algebra.BigOperators.Group.List.Basic
import Mathlib.Algebra.Order.Ring.Nat
import Mathlib.Data.List.Nodup

/-!
# Editing one element of a list

A list of records with a measure and a key: how the sum of the measure moves when
one element is replaced or removed, and what becomes of the keys.
-/

namespace Membrane.ListEdit

universe u v

variable {α : Type u} {κ : Type v}

theorem sum_set (measure : α → Nat) :
    ∀ {l : List α} {i : Nat} {a : α} (b : α), l[i]? = some a →
      ((l.set i b).map measure).sum + measure a = (l.map measure).sum + measure b := by
  intro l
  induction l with
  | nil => intro i a b found; simp at found
  | cons head rest ih =>
    intro i a b found
    cases i with
    | zero =>
      obtain rfl : head = a := by simpa using found
      simp only [List.set_cons_zero, List.map_cons, List.sum_cons]
      omega
    | succ j =>
      have hrest := ih b (by simpa using found)
      simp only [List.set_cons_succ, List.map_cons, List.sum_cons]
      omega

theorem sum_eraseIdx (measure : α → Nat) :
    ∀ {l : List α} {i : Nat} {a : α}, l[i]? = some a →
      ((l.eraseIdx i).map measure).sum + measure a = (l.map measure).sum := by
  intro l
  induction l with
  | nil => intro i a found; simp at found
  | cons head rest ih =>
    intro i a found
    cases i with
    | zero =>
      obtain rfl : head = a := by simpa using found
      simp only [List.eraseIdx_cons_zero, List.map_cons, List.sum_cons]
      omega
    | succ j =>
      have hrest := ih (by simpa using found)
      simp only [List.eraseIdx_cons_succ, List.map_cons, List.sum_cons]
      omega

theorem map_set_same (key : α → κ) {l : List α} {i : Nat} {a b : α} (found : l[i]? = some a)
    (same : key b = key a) : (l.set i b).map key = l.map key := by
  rw [List.map_set, same]
  refine List.ext_getElem? fun j => ?_
  rw [List.getElem?_set]
  split
  case isTrue h =>
    subst h
    have hlt : i < (l.map key).length := by
      simpa using (List.getElem?_eq_some_iff.mp found).1
    rw [if_pos hlt, List.getElem?_map, found]
    rfl
  case isFalse => rfl

theorem map_replace_eq_set [DecidableEq κ] (key : α → κ) {l : List α} {i : Nat} {a b : α}
    (distinct : (l.map key).Nodup) (found : l[i]? = some a) (same : key a = key b) :
    (l.map fun c => if key c = key b then b else c) = l.set i b := by
  refine List.ext_getElem? fun j => ?_
  rw [List.getElem?_map, List.getElem?_set]
  by_cases hij : i = j
  · subst hij
    have hlt : i < l.length := (List.getElem?_eq_some_iff.mp found).1
    rw [found, if_pos rfl, if_pos hlt]
    simp [same]
  · rw [if_neg hij]
    cases hj : l[j]? with
    | none => rfl
    | some c =>
      have hne : key c ≠ key b := by
        intro heq
        have hi : i < (l.map key).length := by
          simpa using (List.getElem?_eq_some_iff.mp found).1
        have hkeys : (l.map key)[i]? = (l.map key)[j]? := by
          simp [List.getElem?_map, found, hj, same, heq]
        exact hij ((List.getElem?_inj hi distinct).mp hkeys)
      simp [hne]

theorem find?_key [DecidableEq κ] (key : α → κ) :
    ∀ {l : List α} {i : Nat} {a : α}, (l.map key).Nodup → l[i]? = some a →
      l.find? (fun c => key c == key a) = some a := by
  intro l
  induction l with
  | nil => intro i a _ found; simp at found
  | cons head rest ih =>
    intro i a distinct found
    rw [List.map_cons, List.nodup_cons] at distinct
    cases i with
    | zero =>
      obtain rfl : head = a := by simpa using found
      simp
    | succ j =>
      have hrest : rest[j]? = some a := by simpa using found
      have hne : key head ≠ key a := by
        intro heq
        exact distinct.1 (heq ▸ List.mem_map_of_mem (List.mem_of_getElem? hrest))
      rw [List.find?_cons_of_neg (by simpa using hne)]
      exact ih distinct.2 hrest

theorem find?_set_ne [DecidableEq κ] (key : α → κ) {k : κ} :
    ∀ {l : List α} {i : Nat} {a b : α}, l[i]? = some a → key b = key a → key a ≠ k →
      (l.set i b).find? (fun c => key c == k) = l.find? (fun c => key c == k) := by
  intro l
  induction l with
  | nil => intro i a b found; simp at found
  | cons head rest ih =>
    intro i a b found same other
    cases i with
    | zero =>
      obtain rfl : head = a := by simpa using found
      rw [List.set_cons_zero, List.find?_cons_of_neg (by simpa [same] using other),
        List.find?_cons_of_neg (by simpa using other)]
    | succ j =>
      have hrest := ih (by simpa using found) same other
      simp only [List.set_cons_succ, List.find?_cons, hrest]

theorem find?_eraseIdx_ne [DecidableEq κ] (key : α → κ) {k : κ} :
    ∀ {l : List α} {i : Nat} {a : α}, l[i]? = some a → key a ≠ k →
      (l.eraseIdx i).find? (fun c => key c == k) = l.find? (fun c => key c == k) := by
  intro l
  induction l with
  | nil => intro i a found; simp at found
  | cons head rest ih =>
    intro i a found other
    cases i with
    | zero =>
      obtain rfl : head = a := by simpa using found
      rw [List.eraseIdx_cons_zero, List.find?_cons_of_neg (by simpa using other)]
    | succ j =>
      have hrest := ih (by simpa using found) other
      simp only [List.eraseIdx_cons_succ, List.find?_cons, hrest]

theorem find?_eraseIdx_self [DecidableEq κ] (key : α → κ) :
    ∀ {l : List α} {i : Nat} {a : α}, (l.map key).Nodup → l[i]? = some a →
      (l.eraseIdx i).find? (fun c => key c == key a) = none := by
  intro l
  induction l with
  | nil => intro i a _ found; simp at found
  | cons head rest ih =>
    intro i a distinct found
    rw [List.map_cons, List.nodup_cons] at distinct
    cases i with
    | zero =>
      obtain rfl : head = a := by simpa using found
      rw [List.eraseIdx_cons_zero, List.find?_eq_none]
      intro c hmem heq
      have hkey : key c = key head := by simpa using heq
      exact distinct.1 (hkey ▸ List.mem_map_of_mem hmem)
    | succ j =>
      have hrest : rest[j]? = some a := by simpa using found
      have hne : key head ≠ key a := by
        intro heq
        exact distinct.1 (heq ▸ List.mem_map_of_mem (List.mem_of_getElem? hrest))
      rw [List.eraseIdx_cons_succ, List.find?_cons_of_neg (by simpa using hne)]
      exact ih distinct.2 hrest

theorem findIdx?_getElem? {p : α → Bool} {l : List α} {i : Nat} (found : l.findIdx? p = some i) :
    ∃ a, l[i]? = some a ∧ p a = true := by
  obtain ⟨hlt, hp, -⟩ := List.findIdx?_eq_some_iff_getElem.mp found
  exact ⟨l[i], by simp [hlt], hp⟩

theorem set_found {l : List α} {i : Nat} {a : α} (found : l[i]? = some a) : l.set i a = l := by
  obtain ⟨hlt, rfl⟩ := List.getElem?_eq_some_iff.mp found
  exact List.set_getElem_self hlt

theorem flatMap_eraseIdx {f : α → List κ} {a : α} (nothing : f a = []) :
    ∀ {l : List α} {i : Nat}, l[i]? = some a → (l.eraseIdx i).flatMap f = l.flatMap f := by
  intro l
  induction l with
  | nil =>
    intro i found
    cases found
  | cons head rest ih =>
    intro i found
    cases i with
    | zero =>
      obtain rfl : head = a := by simpa using found
      rw [List.eraseIdx_cons_zero, List.flatMap_cons, nothing, List.nil_append]
    | succ i =>
      rw [List.eraseIdx_cons_succ, List.flatMap_cons, List.flatMap_cons,
        ih (by simpa using found)]

theorem flatMap_set {f : α → List κ} {l : List α} {i : Nat} {a b : α} (found : l[i]? = some a)
    (same : f b = f a) : (l.set i b).flatMap f = l.flatMap f := by
  rw [List.flatMap_def, List.flatMap_def, map_set_same f found same]

theorem filter_eq_flatMap (p : α → Bool) (l : List α) :
    l.filter p = l.flatMap fun a => if p a then [a] else [] := by
  induction l with
  | nil => rfl
  | cons a rest ih =>
    rw [List.flatMap_cons, ← ih]
    cases h : p a with
    | true => rw [List.filter_cons_of_pos h, if_pos rfl, List.singleton_append]
    | false =>
      rw [List.filter_cons_of_neg (by rw [h]; exact Bool.false_ne_true),
        if_neg Bool.false_ne_true, List.nil_append]

theorem filter_eraseIdx {p : α → Bool} {l : List α} {i : Nat} {a : α} (found : l[i]? = some a)
    (out : p a = false) : (l.eraseIdx i).filter p = l.filter p := by
  rw [filter_eq_flatMap, filter_eq_flatMap]
  apply flatMap_eraseIdx _ found
  rw [out]
  rfl

theorem filter_set {p : α → Bool} {l : List α} {i : Nat} {a b : α} (found : l[i]? = some a)
    (out : p a = false) (out' : p b = false) : (l.set i b).filter p = l.filter p := by
  rw [filter_eq_flatMap, filter_eq_flatMap]
  apply flatMap_set found
  rw [if_neg (by rw [out']; exact Bool.false_ne_true),
    if_neg (by rw [out]; exact Bool.false_ne_true)]

theorem not_mem_eraseIdx {l : List α} {i : Nat} {a : α} (distinct : l.Nodup)
    (found : l[i]? = some a) : a ∉ l.eraseIdx i := by
  intro mem
  obtain ⟨j, hne, hj⟩ := List.mem_eraseIdx_iff_getElem?.mp mem
  obtain ⟨hjlt, hja⟩ := List.getElem?_eq_some_iff.mp hj
  obtain ⟨hilt, hia⟩ := List.getElem?_eq_some_iff.mp found
  exact hne ((distinct.getElem_inj_iff).mp (hja.trans hia.symm))

theorem perm_cons_filter [DecidableEq κ] (key : α → κ) :
    ∀ {l : List α} {a : α}, (l.map key).Nodup → a ∈ l →
      l.Perm (a :: l.filter fun b => key b != key a) := by
  intro l
  induction l with
  | nil => intro a _ mem; cases mem
  | cons head rest ih =>
    intro a distinct mem
    rw [List.map_cons, List.nodup_cons] at distinct
    rcases List.mem_cons.mp mem with rfl | mem
    · have hrest : (rest.filter fun b => key b != key a) = rest := by
        refine List.filter_eq_self.mpr fun b hb => ?_
        simpa using fun heq : key b = key a => distinct.1 (heq ▸ List.mem_map_of_mem hb)
      rw [List.filter_cons_of_neg (by simp), hrest]
    · have hne : key head ≠ key a := fun heq => distinct.1 (heq ▸ List.mem_map_of_mem mem)
      rw [List.filter_cons_of_pos (by simpa using hne)]
      exact ((ih distinct.2 mem).cons head).trans (List.Perm.swap a head _)

theorem perm_map_key [DecidableEq κ] (key : α → κ) (f : α → α) {l : List α} {a : α}
    (distinct : (l.map key).Nodup) (mem : a ∈ l) :
    (l.map fun b => if key b = key a then f b else b).Perm
      (f a :: l.filter fun b => key b != key a) := by
  have hall := (perm_cons_filter key distinct mem).map fun b => if key b = key a then f b else b
  rw [List.map_cons, if_pos rfl] at hall
  have hrest : ((l.filter fun b => key b != key a).map fun b => if key b = key a then f b else b) =
      l.filter fun b => key b != key a := by
    refine (List.map_congr_left fun b hb => ?_).trans (List.map_id _)
    have hne : key b ≠ key a := by simpa using (List.mem_filter.mp hb).2
    rw [if_neg hne, id]
  rwa [hrest] at hall

end Membrane.ListEdit
