import Mathlib.Data.List.AList
import Mathlib.Algebra.BigOperators.Group.List.Basic
import Mathlib.Algebra.Order.Ring.Nat

/-!
# Key maps and their totals

A contract's storage map is an association list without duplicate keys. The
total of a measure over its values is what a conservation law speaks about;
the lemmas say how a total moves when one key is written or removed, so that
no proof about a contract opens the list underneath.
-/

namespace Membrane

universe u v

/-- A storage map from keys to values. -/
abbrev KeyMap (κ : Type u) (ν : Type v) := AList (fun _ : κ => ν)

namespace KeyMap

variable {κ : Type u} {ν : Type v} [DecidableEq κ]

/-- The sum of `measure` over the stored values. -/
def total (measure : ν → Nat) (m : KeyMap κ ν) : Nat :=
  (m.entries.map fun entry => measure entry.2).sum

/-- The measure of the value under `key`, zero when there is none. -/
def measureAt (measure : ν → Nat) (m : KeyMap κ ν) (key : κ) : Nat :=
  (m.lookup key).elim 0 measure

omit [DecidableEq κ] in
@[simp]
theorem total_empty (measure : ν → Nat) : total measure (∅ : KeyMap κ ν) = 0 := rfl

theorem measureAt_of_lookup {measure : ν → Nat} {m : KeyMap κ ν} {key : κ} {value : ν}
    (found : m.lookup key = some value) : measureAt measure m key = measure value := by
  simp [measureAt, found]

theorem measureAt_of_absent {measure : ν → Nat} {m : KeyMap κ ν} {key : κ}
    (absent : m.lookup key = none) : measureAt measure m key = 0 := by
  simp [measureAt, absent]

theorem measureAt_insert (measure : ν → Nat) (m : KeyMap κ ν) (key : κ) (value : ν) (key' : κ) :
    measureAt measure (m.insert key value) key' =
      if key' = key then measure value else measureAt measure m key' := by
  by_cases same : key' = key
  · rw [if_pos same, same]
    exact measureAt_of_lookup (AList.lookup_insert m)
  · rw [if_neg same, measureAt, AList.lookup_insert_ne same, measureAt]

private theorem sum_kerase (measure : ν → Nat) (key : κ) :
    ∀ entries : List (Sigma fun _ : κ => ν),
      ((entries.kerase key).map fun entry => measure entry.2).sum +
          (entries.dlookup key).elim 0 measure =
        (entries.map fun entry => measure entry.2).sum := by
  intro entries
  induction entries with
  | nil => simp
  | cons head rest ih =>
    by_cases same : key = head.1
    · subst same
      rw [List.kerase_cons_eq rfl, List.dlookup_cons_eq]
      simp only [Option.elim_some, List.map_cons, List.sum_cons]
      omega
    · rw [List.kerase_cons_ne same, List.dlookup_cons_ne _ _ same]
      simp only [List.map_cons, List.sum_cons]
      omega

theorem total_erase (measure : ν → Nat) (m : KeyMap κ ν) (key : κ) :
    total measure (m.erase key) + measureAt measure m key = total measure m :=
  sum_kerase measure key m.entries

theorem total_insert (measure : ν → Nat) (m : KeyMap κ ν) (key : κ) (value : ν) :
    total measure (m.insert key value) + measureAt measure m key =
      total measure m + measure value := by
  have split :
      total measure (m.insert key value) = measure value + total measure (m.erase key) := by
    have hentries : (m.insert key value).entries = ⟨key, value⟩ :: (m.erase key).entries :=
      AList.entries_insert
    simp only [total, hentries, List.map_cons, List.sum_cons]
  have removed := total_erase measure m key
  omega

theorem erase_insert (m : KeyMap κ ν) (key : κ) (value : ν) :
    AList.erase key (m.insert key value) = m.erase key := by
  refine AList.ext ?_
  have hentries : (m.insert key value).entries = ⟨key, value⟩ :: (m.erase key).entries :=
    AList.entries_insert
  calc (AList.erase key (m.insert key value)).entries
      = (m.insert key value).entries.kerase key := rfl
    _ = (m.erase key).entries := by
        rw [hentries]
        exact List.kerase_cons_eq (β := fun _ : κ => ν) (s := ⟨key, value⟩) rfl

theorem measureAt_le_total (measure : ν → Nat) (m : KeyMap κ ν) (key : κ) :
    measureAt measure m key ≤ total measure m := by
  have removed := total_erase measure m key
  omega

/-- `p` holds of every stored value. -/
def All (p : κ → ν → Prop) (m : KeyMap κ ν) : Prop :=
  ∀ key value, m.lookup key = some value → p key value

theorem all_empty {p : κ → ν → Prop} : All p (∅ : KeyMap κ ν) := by
  intro key value found
  simp at found

theorem all_insert_ne {p : κ → ν → Prop} {m : KeyMap κ ν} {key : κ} {value : ν}
    (hold : ∀ key' value', key' ≠ key → m.lookup key' = some value' → p key' value')
    (hnew : p key value) : All p (m.insert key value) := by
  intro key' value' found
  by_cases same : key' = key
  · subst same
    rw [AList.lookup_insert] at found
    exact Option.some.inj found ▸ hnew
  · rw [AList.lookup_insert_ne same] at found
    exact hold key' value' same found

theorem all_insert {p : κ → ν → Prop} {m : KeyMap κ ν} {key : κ} {value : ν}
    (hall : All p m) (hnew : p key value) : All p (m.insert key value) :=
  all_insert_ne (fun key' value' _ found => hall key' value' found) hnew

theorem all_erase {p : κ → ν → Prop} {m : KeyMap κ ν} {key : κ}
    (hall : All p m) : All p (m.erase key) := by
  intro key' value' found
  by_cases same : key' = key
  · subst same
    rw [AList.lookup_erase] at found
    cases found
  · rw [AList.lookup_erase_ne same] at found
    exact hall key' value' found

end KeyMap

end Membrane
