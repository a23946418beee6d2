import Membrane.Cdp.Positions
import Membrane.Cdp.Proofs.Accrual
import Membrane.Lib.ListEdit
import Mathlib.Algebra.Order.BigOperators.Group.List
import Mathlib.Algebra.Order.Ring.Nat

/-!
# Writes to the stored positions

A call writes `POSITIONS` one position at a time: it replaces one, adds one or
removes one. For each kind of write: what it does to the total debt, to the ids
that keep a user's positions apart, to what is found under an id, and to a
property of every position.
-/

namespace Membrane.Cdp

open Outcome

/-- The contents of `POSITIONS`. -/
abbrev Store := KeyMap Addr (List Position)

/-- The stored position of `owner` with an id. -/
def positionAt (store : Store) (owner : Addr) (id : Nat) : Option Position :=
  (store.lookup owner).bind fun list => list.find? fun position => position.positionId == id

def EachPosition (P : Position → Prop) (store : Store) : Prop :=
  KeyMap.All (fun _ list => ∀ position ∈ list, P position) store

def listDebt (positions : List Position) : Nat := (positions.map Position.creditAmount).sum

/-- The debt of all stored positions. -/
def totalDebt (store : Store) : Nat := KeyMap.total listDebt store

structure Ids (nextId : Nat) (positions : List Position) : Prop where
  distinct : (positions.map Position.positionId).Nodup
  given : ∀ position ∈ positions, position.positionId < nextId

def SoundIds (nextId : Nat) (store : Store) : Prop :=
  KeyMap.All (fun _ list => Ids nextId list) store

/-! ## Finding a position -/

theorem findPosition_spec {positions : List Position} {id i : Nat} {position : Position}
    (found : findPosition positions id = some (i, position)) :
    positions[i]? = some position ∧ position.positionId = id := by
  simp only [findPosition, Option.bind_eq_some_iff, Option.map_eq_some_iff] at found
  obtain ⟨j, hidx, position', hget, heq⟩ := found
  obtain ⟨rfl, rfl⟩ := Prod.mk.inj heq
  obtain ⟨a, ha, hid⟩ := ListEdit.findIdx?_getElem? hidx
  obtain rfl : position' = a := Option.some.inj (hget.symm.trans ha)
  exact ⟨hget, by simpa using hid⟩

theorem getTargetPosition_eq_ok {s : State} {owner : Addr} {id i : Nat} {position : Position} :
    getTargetPosition s owner id = .ok (i, position) ↔
      ∃ positions, s.positions.lookup owner = some positions ∧
        findPosition positions id = some (i, position) := by
  simp [getTargetPosition]

theorem getTargetPosition_spec {s : State} {owner : Addr} {id i : Nat} {position : Position}
    (done : getTargetPosition s owner id = .ok (i, position)) :
    ∃ list, s.positions.lookup owner = some list ∧ list[i]? = some position ∧
      position.positionId = id := by
  obtain ⟨list, stored, found⟩ := getTargetPosition_eq_ok.mp done
  obtain ⟨hget, hid⟩ := findPosition_spec found
  exact ⟨list, stored, hget, hid⟩

theorem positionAt_of_getElem? {nextId : Nat} {store : Store} {owner : Addr} {list : List Position}
    {i : Nat} {position : Position} (sound : SoundIds nextId store)
    (stored : store.lookup owner = some list) (found : list[i]? = some position) :
    positionAt store owner position.positionId = some position := by
  rw [positionAt, stored, Option.bind_some]
  exact ListEdit.find?_key Position.positionId (sound owner list stored).distinct found

theorem stored_of_positionAt {store : Store} {owner : Addr} {id : Nat} {position : Position}
    (found : positionAt store owner id = some position) :
    ∃ list, store.lookup owner = some list ∧ ∃ i : Nat, list[i]? = some position := by
  obtain ⟨list, stored, hfind⟩ := Option.bind_eq_some_iff.mp found
  exact ⟨list, stored, List.getElem?_of_mem (List.mem_of_find?_eq_some hfind)⟩

theorem positionAt_id {store : Store} {owner : Addr} {id : Nat} {position : Position}
    (found : positionAt store owner id = some position) : position.positionId = id := by
  obtain ⟨list, -, hfind⟩ := Option.bind_eq_some_iff.mp found
  simpa using List.find?_some hfind

theorem positionAt_insert_ne {store : Store} {owner owner' : Addr} {list : List Position} {id : Nat}
    (other : owner' ≠ owner) :
    positionAt (store.insert owner list) owner' id = positionAt store owner' id := by
  rw [positionAt, AList.lookup_insert_ne other, positionAt]

theorem positionAt_of_target {nextId : Nat} {s : State} {owner : Addr} {id i : Nat}
    {position : Position} (sound : SoundIds nextId s.positions)
    (found : getTargetPosition s owner id = .ok (i, position)) :
    positionAt s.positions owner id = some position := by
  obtain ⟨list, stored, hget, rfl⟩ := getTargetPosition_spec found
  exact positionAt_of_getElem? sound stored hget

theorem EachPosition.at {P : Position → Prop} {store : Store} {owner : Addr} {list : List Position}
    {i : Nat} {position : Position} (each : EachPosition P store)
    (stored : store.lookup owner = some list) (found : list[i]? = some position) : P position :=
  each owner list stored position (List.mem_of_getElem? found)

/-! ## A user's list -/

section Ids

variable {nextId : Nat} {list : List Position} {i : Nat} {position position' : Position}

theorem Ids.set (ids : Ids nextId list) (found : list[i]? = some position)
    (same : position'.positionId = position.positionId) : Ids nextId (list.set i position') := by
  refine ⟨?_, ?_⟩
  · rw [ListEdit.map_set_same Position.positionId found same]
    exact ids.distinct
  · intro q hq
    rcases List.mem_or_eq_of_mem_set hq with hold | rfl
    · exact ids.given q hold
    · rw [same]
      exact ids.given position (List.mem_of_getElem? found)

theorem Ids.eraseIdx (ids : Ids nextId list) : Ids nextId (list.eraseIdx i) := by
  refine ⟨?_, ?_⟩
  · exact ids.distinct.sublist ((List.eraseIdx_sublist list i).map _)
  · intro q hq
    exact ids.given q (List.mem_of_mem_eraseIdx hq)

theorem Ids.mono {nextId' : Nat} (ids : Ids nextId list) (le : nextId ≤ nextId') :
    Ids nextId' list :=
  ⟨ids.distinct, fun q hq => Nat.lt_of_lt_of_le (ids.given q hq) le⟩

theorem Ids.append (ids : Ids nextId list) (new : position'.positionId = nextId) :
    Ids (nextId + 1) (list ++ [position']) := by
  refine ⟨?_, ?_⟩
  · rw [List.map_append, List.nodup_append]
    refine ⟨ids.distinct, by simp, ?_⟩
    intro a ha b hb heq
    obtain ⟨q, hq, rfl⟩ := List.mem_map.mp ha
    obtain rfl : b = position'.positionId := by simpa using hb
    have hlt := ids.given q hq
    omega
  · intro q hq
    rcases List.mem_append.mp hq with hold | hnew
    · have hlt := ids.given q hold
      omega
    · obtain rfl : q = position' := by simpa using hnew
      omega

theorem Ids.nil : Ids nextId [] := ⟨by simp, by simp⟩

theorem SoundIds.mono {nextId' : Nat} {store : Store} (sound : SoundIds nextId store)
    (le : nextId ≤ nextId') : SoundIds nextId' store :=
  fun owner list stored => (sound owner list stored).mono le

end Ids

theorem totalDebt_insert {store : Store} {owner : Addr} {list : List Position}
    (list' : List Position) (stored : store.lookup owner = some list) :
    totalDebt (store.insert owner list') + listDebt list = totalDebt store + listDebt list' := by
  have h := KeyMap.total_insert listDebt store owner list'
  rwa [KeyMap.measureAt_of_lookup stored] at h

theorem credit_le_totalDebt {store : Store} {owner : Addr} {list : List Position} {i : Nat}
    {position : Position} (stored : store.lookup owner = some list)
    (found : list[i]? = some position) : position.creditAmount ≤ totalDebt store := by
  have hlist : listDebt (list.eraseIdx i) + position.creditAmount = listDebt list :=
    ListEdit.sum_eraseIdx Position.creditAmount found
  have hmap := KeyMap.measureAt_le_total listDebt store owner
  rw [KeyMap.measureAt_of_lookup stored] at hmap
  unfold totalDebt
  omega

/-! ## One position is replaced -/

/-- `owner`'s position `old` is replaced by `new`, of the same id. -/
structure Replaced (store store' : Store) (owner : Addr) (old new : Position) : Prop where
  same : new.positionId = old.positionId
  written : ∃ list i, store.lookup owner = some list ∧ list[i]? = some old ∧
    store' = store.insert owner (list.set i new)

namespace Replaced

variable {store store' : Store} {owner : Addr} {old new : Position}

theorem debt (write : Replaced store store' owner old new) :
    totalDebt store' + old.creditAmount = totalDebt store + new.creditAmount := by
  obtain ⟨list, i, stored, found, rfl⟩ := write.written
  have hmap := totalDebt_insert (list.set i new) stored
  have hlist : listDebt (list.set i new) + old.creditAmount = listDebt list + new.creditAmount :=
    ListEdit.sum_set Position.creditAmount new found
  omega

theorem ids {nextId : Nat} (write : Replaced store store' owner old new)
    (sound : SoundIds nextId store) : SoundIds nextId store' := by
  obtain ⟨list, i, stored, found, rfl⟩ := write.written
  exact KeyMap.all_insert sound ((sound owner list stored).set found write.same)

theorem each {P : Position → Prop} (write : Replaced store store' owner old new)
    (hnew : P new) (each : EachPosition P store) : EachPosition P store' := by
  obtain ⟨list, i, stored, -, rfl⟩ := write.written
  refine KeyMap.all_insert each fun position hmem => ?_
  rcases List.mem_or_eq_of_mem_set hmem with hold | rfl
  · exact each owner list stored position hold
  · exact hnew

theorem old_at {nextId : Nat} (write : Replaced store store' owner old new)
    (sound : SoundIds nextId store) : positionAt store owner old.positionId = some old := by
  obtain ⟨list, i, stored, found, -⟩ := write.written
  exact positionAt_of_getElem? sound stored found

theorem new_at {nextId : Nat} (write : Replaced store store' owner old new)
    (sound : SoundIds nextId store) : positionAt store' owner old.positionId = some new := by
  have sound' := write.ids sound
  obtain ⟨list, i, stored, found, rfl⟩ := write.written
  have hlt : i < list.length := (List.getElem?_eq_some_iff.mp found).1
  have hnew : (list.set i new)[i]? = some new := List.getElem?_set_self hlt
  rw [← write.same]
  exact positionAt_of_getElem? sound' (AList.lookup_insert store) hnew

theorem other_at (write : Replaced store store' owner old new) {owner' : Addr} {id : Nat}
    (other : owner' ≠ owner ∨ id ≠ old.positionId) :
    positionAt store' owner' id = positionAt store owner' id := by
  obtain ⟨list, i, stored, found, rfl⟩ := write.written
  by_cases same : owner' = owner
  · subst same
    have hid : old.positionId ≠ id := by
      rcases other with h | h
      · exact absurd rfl h
      · exact Ne.symm h
    rw [positionAt, AList.lookup_insert, positionAt, stored]
    exact ListEdit.find?_set_ne Position.positionId found write.same hid
  · exact positionAt_insert_ne same

theorem trans {store'' : Store} {last : Position} (write : Replaced store store' owner old new)
    (next : Replaced store' store'' owner new last) (nextId : Nat)
    (sound : SoundIds nextId store) : Replaced store store'' owner old last := by
  refine ⟨next.same.trans write.same, ?_⟩
  have sound' := write.ids sound
  obtain ⟨list, i, stored, found, rfl⟩ := write.written
  obtain ⟨list', i', stored', found', rfl⟩ := next.written
  obtain rfl : list.set i new = list' := by
    rw [AList.lookup_insert] at stored'
    exact Option.some.inj stored'
  have hlt : i < list.length := (List.getElem?_eq_some_iff.mp found).1
  have hindex : i = i' := by
    have hids := (sound' owner _ (AList.lookup_insert store)).distinct
    have hnew : (list.set i new)[i]? = some new := List.getElem?_set_self hlt
    obtain ⟨h, hi⟩ := List.getElem?_eq_some_iff.mp hnew
    obtain ⟨h', hi'⟩ := List.getElem?_eq_some_iff.mp found'
    have hlt' : i < ((list.set i new).map Position.positionId).length := by simpa using h
    have hlt'' : i' < ((list.set i new).map Position.positionId).length := by simpa using h'
    refine (@List.Nodup.getElem_inj_iff _ _ hids i hlt' i' hlt'').mp ?_
    rw [List.getElem_map, List.getElem_map, hi, hi']
  subst hindex
  refine ⟨list, i, stored, found, ?_⟩
  rw [AList.insert_insert, List.set_set]

end Replaced

theorem updatePosition_replaced {s s' : State} {owner : Addr} {nextId : Nat} {list : List Position}
    {i : Nat} {old new : Position} (sound : SoundIds nextId s.positions)
    (stored : s.positions.lookup owner = some list) (found : list[i]? = some old)
    (same : new.positionId = old.positionId) (done : updatePosition s owner new = .ok s') :
    Replaced s.positions s'.positions owner old new ∧
      s' = { s with positions := s'.positions } := by
  simp only [updatePosition, stored] at done
  obtain rfl := Except.ok.inj done
  refine ⟨⟨same, list, i, stored, found, ?_⟩, rfl⟩
  have hswap := ListEdit.map_replace_eq_set Position.positionId
    (sound owner list stored).distinct found same.symm
  exact congrArg (s.positions.insert owner) hswap

/-! ## One position is added -/

def Added (store store' : Store) (owner : Addr) (new : Position) : Prop :=
  store' = store.insert owner ((store.lookup owner).getD [] ++ [new])

namespace Added

variable {store store' : Store} {owner : Addr} {new : Position}

theorem debt (write : Added store store' owner new) :
    totalDebt store' = totalDebt store + new.creditAmount := by
  subst write
  have hmap := KeyMap.total_insert listDebt store owner ((store.lookup owner).getD [] ++ [new])
  have hlist : listDebt ((store.lookup owner).getD [] ++ [new]) =
      KeyMap.measureAt listDebt store owner + new.creditAmount := by
    cases h : store.lookup owner <;> simp [listDebt, KeyMap.measureAt, h]
  unfold totalDebt
  omega

theorem ids {nextId : Nat} (write : Added store store' owner new) (fresh : new.positionId = nextId)
    (sound : SoundIds nextId store) : SoundIds (nextId + 1) store' := by
  subst write
  refine KeyMap.all_insert (sound.mono (Nat.le_succ _)) (Ids.append ?_ fresh)
  cases h : store.lookup owner with
  | none => exact Ids.nil
  | some list => exact sound owner list h

theorem each {P : Position → Prop} (write : Added store store' owner new)
    (hnew : P new) (each : EachPosition P store) : EachPosition P store' := by
  subst write
  refine KeyMap.all_insert each fun position hmem => ?_
  rcases List.mem_append.mp hmem with hold | hadded
  · cases h : store.lookup owner with
    | none => simp [h] at hold
    | some list => exact each owner list h position (by simpa [h] using hold)
  · obtain rfl : position = new := by simpa using hadded
    exact hnew

theorem old_at (write : Added store store' owner new) {owner' : Addr} {id : Nat}
    {position : Position} (found : positionAt store owner' id = some position) :
    positionAt store' owner' id = some position := by
  subst write
  by_cases same : owner' = owner
  · subst same
    obtain ⟨list, stored, hfind⟩ := Option.bind_eq_some_iff.mp found
    rw [positionAt, AList.lookup_insert, stored, Option.bind_some, Option.getD_some,
      List.find?_append, hfind, Option.some_or]
  · rw [positionAt_insert_ne same]
    exact found

end Added

/-! ## One position is removed -/

def Removed (store store' : Store) (owner : Addr) (old : Position) : Prop :=
  ∃ list i, store.lookup owner = some list ∧ list[i]? = some old ∧
    (store' = store.insert owner (list.eraseIdx i) ∨
      list.eraseIdx i = [] ∧ store' = store.erase owner)

namespace Removed

variable {store store' : Store} {owner : Addr} {old : Position}

theorem debt (write : Removed store store' owner old) :
    totalDebt store' + old.creditAmount = totalDebt store := by
  obtain ⟨list, i, stored, found, hwrite⟩ := write
  have hlist : listDebt (list.eraseIdx i) + old.creditAmount = listDebt list :=
    ListEdit.sum_eraseIdx Position.creditAmount found
  rcases hwrite with rfl | ⟨hempty, rfl⟩
  · have hmap := totalDebt_insert (list.eraseIdx i) stored
    omega
  · have hmap := KeyMap.total_erase listDebt store owner
    rw [KeyMap.measureAt_of_lookup stored] at hmap
    have hzero : listDebt (list.eraseIdx i) = 0 := by rw [hempty]; rfl
    unfold totalDebt
    omega

theorem ids {nextId : Nat} (write : Removed store store' owner old)
    (sound : SoundIds nextId store) : SoundIds nextId store' := by
  obtain ⟨list, i, stored, -, rfl | ⟨-, rfl⟩⟩ := write
  · exact KeyMap.all_insert sound (sound owner list stored).eraseIdx
  · exact KeyMap.all_erase sound

theorem each {P : Position → Prop} (write : Removed store store' owner old)
    (each : EachPosition P store) : EachPosition P store' := by
  obtain ⟨list, i, stored, -, rfl | ⟨-, rfl⟩⟩ := write
  · exact KeyMap.all_insert each fun position hmem =>
      each owner list stored position (List.mem_of_mem_eraseIdx hmem)
  · exact KeyMap.all_erase each

theorem other_at (write : Removed store store' owner old) {owner' : Addr} {id : Nat}
    (other : owner' ≠ owner ∨ id ≠ old.positionId) :
    positionAt store' owner' id = positionAt store owner' id := by
  obtain ⟨list, i, stored, found, hwrite⟩ := write
  by_cases same : owner' = owner
  · subst same
    have hid : old.positionId ≠ id := by
      rcases other with h | h
      · exact absurd rfl h
      · exact Ne.symm h
    have hfind := ListEdit.find?_eraseIdx_ne Position.positionId found hid
    rcases hwrite with rfl | ⟨hempty, rfl⟩
    · rw [positionAt, AList.lookup_insert, positionAt, stored]
      exact hfind
    · rw [positionAt, AList.lookup_erase, positionAt, stored, Option.bind_some, ← hfind, hempty]
      rfl
  · rcases hwrite with rfl | ⟨-, rfl⟩
    · exact positionAt_insert_ne same
    · rw [positionAt, AList.lookup_erase_ne same, positionAt]

theorem gone_at {nextId : Nat} (write : Removed store store' owner old)
    (sound : SoundIds nextId store) : positionAt store' owner old.positionId = none := by
  obtain ⟨list, i, stored, found, hwrite⟩ := write
  rcases hwrite with rfl | ⟨-, rfl⟩
  · rw [positionAt, AList.lookup_insert, Option.bind_some]
    exact ListEdit.find?_eraseIdx_self Position.positionId (sound owner list stored).distinct found
  · rw [positionAt, AList.lookup_erase]
    rfl

theorem old_at {nextId : Nat} (write : Removed store store' owner old)
    (sound : SoundIds nextId store) : positionAt store owner old.positionId = some old := by
  obtain ⟨list, i, stored, found, -⟩ := write
  exact positionAt_of_getElem? sound stored found

end Removed

/-! ## Positions are dropped -/

/-- Of `owner`'s positions `list`, those in `kept` are left. -/
structure Dropped (store store' : Store) (owner : Addr) (list kept : List Position) : Prop where
  stored : store.lookup owner = some list
  sublist : kept.Sublist list
  write : store' = store.insert owner kept ∨ kept = [] ∧ store' = store.erase owner

namespace Dropped

variable {store store' : Store} {owner : Addr} {list kept : List Position}

theorem debt_le (write : Dropped store store' owner list kept) :
    totalDebt store' ≤ totalDebt store := by
  have hlist : listDebt kept ≤ listDebt list :=
    (write.sublist.map Position.creditAmount).sum_le_sum fun _ _ => Nat.zero_le _
  rcases write.write with rfl | ⟨-, rfl⟩
  · have := totalDebt_insert kept write.stored
    omega
  · have := KeyMap.total_erase listDebt store owner
    unfold totalDebt
    omega

theorem ids {nextId : Nat} (write : Dropped store store' owner list kept)
    (sound : SoundIds nextId store) : SoundIds nextId store' := by
  rcases write.write with rfl | ⟨-, rfl⟩
  · have hlist := sound owner list write.stored
    exact KeyMap.all_insert sound ⟨hlist.distinct.sublist (write.sublist.map _),
      fun position hmem => hlist.given position (write.sublist.subset hmem)⟩
  · exact KeyMap.all_erase sound

theorem each {P : Position → Prop} (write : Dropped store store' owner list kept)
    (each : EachPosition P store) : EachPosition P store' := by
  rcases write.write with rfl | ⟨-, rfl⟩
  · exact KeyMap.all_insert each fun position hmem =>
      each owner list write.stored position (write.sublist.subset hmem)
  · exact KeyMap.all_erase each

theorem lost_at (write : Dropped store store' owner list kept) {id : Nat}
    (absent : ∀ position ∈ kept, position.positionId ≠ id) : positionAt store' owner id = none := by
  rcases write.write with rfl | ⟨-, rfl⟩
  · rw [positionAt, AList.lookup_insert, Option.bind_some, List.find?_eq_none]
    intro position hmem
    simpa using absent position hmem
  · rw [positionAt, AList.lookup_erase]
    rfl

end Dropped

end Membrane.Cdp
