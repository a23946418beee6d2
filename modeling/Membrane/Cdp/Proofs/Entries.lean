import Membrane.Cdp.Proofs.OptIn
import Membrane.Lib.ListEdit

/-!
# The positions that have opted in

`REDEMPTION_OPT_IN` lists under each premium the users that have opted in at it, each
with some positions. The lists are well kept when users, and a user's positions, are
distinct and no user is without a position; taking positions or users out of them keeps
them so.
-/

namespace Membrane.Cdp

def usersAt (s : State) (premium : Nat) : List RedemptionInfo :=
  (s.redemptionOptIn.lookup premium).getD []

def optedIds (user : RedemptionInfo) : List Nat := user.positionInfos.map (·.positionId)

def entriesOf (users : List RedemptionInfo) : List (Addr × Nat) :=
  users.flatMap fun user => (optedIds user).map fun id => (user.positionOwner, id)

structure Kept (users : List RedemptionInfo) : Prop where
  owners : (users.map (·.positionOwner)).Nodup
  filled : ∀ user ∈ users, optedIds user ≠ []
  ids : ∀ user ∈ users, (optedIds user).Nodup

/-- Nothing is new in the second list, and it is well kept if the first is. -/
structure Thinned (users users' : List RedemptionInfo) : Prop where
  kept : Kept users → Kept users'
  fewer : ∀ entry ∈ entriesOf users', entry ∈ entriesOf users

structure Narrowed (user user' : RedemptionInfo) : Prop where
  owner : user'.positionOwner = user.positionOwner
  ids : (optedIds user').Sublist (optedIds user)
  filled : optedIds user' ≠ []

theorem mem_entriesOf {users : List RedemptionInfo} {owner : Addr} {id : Nat} :
    (owner, id) ∈ entriesOf users ↔
      ∃ user ∈ users, user.positionOwner = owner ∧ id ∈ optedIds user := by
  simp only [entriesOf, List.mem_flatMap, List.mem_map, Prod.mk.injEq]
  constructor
  · rintro ⟨user, hmem, id', hid, howner, rfl⟩
    exact ⟨user, hmem, howner, hid⟩
  · rintro ⟨user, hmem, howner, hid⟩
    exact ⟨user, hmem, id, hid, howner, rfl⟩

theorem Kept.nil : Kept [] :=
  ⟨List.nodup_nil, fun _ mem => (List.not_mem_nil mem).elim,
    fun _ mem => (List.not_mem_nil mem).elim⟩

theorem Kept.same {users : List RedemptionInfo} {user user' : RedemptionInfo} (kept : Kept users)
    (mem : user ∈ users) (mem' : user' ∈ users)
    (owner : user.positionOwner = user'.positionOwner) : user = user' :=
  List.inj_on_of_nodup_map kept.owners mem mem' owner

theorem Kept.nodup {users : List RedemptionInfo} (kept : Kept users) : (entriesOf users).Nodup := by
  unfold entriesOf
  refine List.nodup_flatMap.mpr ⟨fun user mem => ?_, ?_⟩
  · exact (kept.ids user mem).map fun _ _ heq => (Prod.mk.inj heq).2
  · have howners := List.pairwise_map.mp kept.owners
    refine howners.imp fun {user user'} hne => ?_
    intro entry hentry hentry'
    obtain ⟨id, -, rfl⟩ := List.mem_map.mp hentry
    obtain ⟨id', -, heq⟩ := List.mem_map.mp hentry'
    exact hne (Prod.mk.inj heq).1.symm

namespace Thinned

variable {users users' users'' : List RedemptionInfo} {user user' : RedemptionInfo} {k : Nat}

theorem refl (users : List RedemptionInfo) : Thinned users users := ⟨id, fun _ mem => mem⟩

theorem trans (h : Thinned users users') (h' : Thinned users' users'') : Thinned users users'' :=
  ⟨fun kept => h'.kept (h.kept kept), fun entry mem => h.fewer entry (h'.fewer entry mem)⟩

theorem nil (users : List RedemptionInfo) : Thinned users [] :=
  ⟨fun _ => .nil, fun _ mem => (List.not_mem_nil mem).elim⟩

theorem set (found : users[k]? = some user) (narrowed : Narrowed user user') :
    Thinned users (users.set k user') := by
  have hmem : user ∈ users := List.mem_of_getElem? found
  refine ⟨fun kept => ⟨?_, ?_, ?_⟩, ?_⟩
  · rw [ListEdit.map_set_same (·.positionOwner) found narrowed.owner]
    exact kept.owners
  · intro other hother
    rcases List.mem_or_eq_of_mem_set hother with hold | rfl
    · exact kept.filled other hold
    · exact narrowed.filled
  · intro other hother
    rcases List.mem_or_eq_of_mem_set hother with hold | rfl
    · exact kept.ids other hold
    · exact (kept.ids user hmem).sublist narrowed.ids
  · rintro ⟨owner, id⟩ hentry
    obtain ⟨other, hother, howner, hid⟩ := mem_entriesOf.mp hentry
    rcases List.mem_or_eq_of_mem_set hother with hold | rfl
    · exact mem_entriesOf.mpr ⟨other, hold, howner, hid⟩
    · exact mem_entriesOf.mpr ⟨user, hmem, narrowed.owner.symm.trans howner,
        narrowed.ids.subset hid⟩

theorem eraseIdx : Thinned users (users.eraseIdx k) := by
  refine ⟨fun kept => ⟨?_, ?_, ?_⟩, ?_⟩
  · exact kept.owners.sublist ((List.eraseIdx_sublist users k).map _)
  · exact fun other hother => kept.filled other (List.mem_of_mem_eraseIdx hother)
  · exact fun other hother => kept.ids other (List.mem_of_mem_eraseIdx hother)
  · rintro ⟨owner, id⟩ hentry
    obtain ⟨other, hother, howner, hid⟩ := mem_entriesOf.mp hentry
    exact mem_entriesOf.mpr ⟨other, List.mem_of_mem_eraseIdx hother, howner, hid⟩

end Thinned

theorem not_mem_entriesOf_set {users : List RedemptionInfo} {user user' : RedemptionInfo}
    {k id : Nat} (kept : Kept users) (found : users[k]? = some user)
    (narrowed : Narrowed user user')
    (gone : id ∉ optedIds user') : (user.positionOwner, id) ∉ entriesOf (users.set k user') := by
  intro hentry
  obtain ⟨other, hother, howner, hid⟩ := mem_entriesOf.mp hentry
  have hlt : k < users.length := (List.getElem?_eq_some_iff.mp found).1
  have hmem : user' ∈ users.set k user' := List.mem_set hlt user'
  have hsame : other = user' :=
    ((Thinned.set found narrowed).kept kept).same hother hmem (howner.trans narrowed.owner.symm)
  exact gone (hsame ▸ hid)

theorem not_mem_entriesOf_eraseIdx {users : List RedemptionInfo} {user : RedemptionInfo} {k : Nat}
    (kept : Kept users) (found : users[k]? = some user) (id : Nat) :
    (user.positionOwner, id) ∉ entriesOf (users.eraseIdx k) := by
  intro hentry
  obtain ⟨other, hother, howner, -⟩ := mem_entriesOf.mp hentry
  have hplace : (users.map (·.positionOwner))[k]? = some user.positionOwner := by
    rw [List.getElem?_map, found]
    rfl
  refine ListEdit.not_mem_eraseIdx kept.owners hplace ?_
  rw [List.eraseIdx_map, ← howner]
  exact List.mem_map_of_mem hother

theorem usersAt_insert {s : State} {premium : Nat} {users : List RedemptionInfo} (other : Nat) :
    usersAt { s with redemptionOptIn := s.redemptionOptIn.insert premium users } other =
      if other = premium then users else usersAt s other := by
  unfold usersAt
  by_cases same : other = premium
  · subst same
    rw [if_pos rfl]
    simp only [AList.lookup_insert, Option.getD_some]
  · rw [if_neg same]
    simp only [AList.lookup_insert_ne same]

end Membrane.Cdp
