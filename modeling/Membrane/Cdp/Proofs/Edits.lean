import Membrane.Cdp.Proofs.Entries

/-!
# What editing an opt-in does to the lists

The edit loop takes positions, and users without positions, out of the list of a
premium. An edit that moves a position to another premium takes it out of every premium
that the loop finds it at.
-/

namespace Membrane.Cdp

open Outcome

structure WritesPremium (s s' : State) (premium : Nat) (users : List RedemptionInfo) : Prop where
  here : usersAt s' premium = users
  others : ∀ other, other ≠ premium → usersAt s' other = usersAt s other

theorem WritesPremium.insert (s : State) (premium : Nat) (users : List RedemptionInfo) :
    WritesPremium s { s with redemptionOptIn := s.redemptionOptIn.insert premium users } premium
      users := by
  refine ⟨?_, ?_⟩
  · rw [usersAt_insert, if_pos rfl]
  · intro other hne
    rw [usersAt_insert, if_neg hne]

theorem WritesPremium.trans {s₁ s₂ s₃ : State} {premium : Nat} {users users' : List RedemptionInfo}
    (h : WritesPremium s₁ s₂ premium users) (h' : WritesPremium s₂ s₃ premium users') :
    WritesPremium s₁ s₃ premium users' :=
  ⟨h'.here, fun other hne => (h'.others other hne).trans (h.others other hne)⟩

def RedemptionEdit.movesFrom (edit : RedemptionEdit) (premium : Nat) : Prop :=
  edit.redeemable ≠ some false ∧ ∃ updated, edit.updatedPremium = some updated ∧ updated ≠ premium

section Edits

variable {s s' : State} {sender : Addr} {edit : RedemptionEdit} {premium userIndex index id : Nat}
  {loop loop' : RedemptionEditLoop} {stop : Bool}

/-! ## One position -/

/-- What the edits of a position did before they are stored: the user's record alone is
    narrower. -/
structure Midway (loop loop' : RedemptionEditLoop) : Prop where
  state : loop'.s = loop.s
  users : loop'.users = loop.users
  positionIds : loop'.positionIds = loop.positionIds
  narrowed : Narrowed loop.user loop'.user

theorem Narrowed.refl {user : RedemptionInfo} (filled : optedIds user ≠ []) : Narrowed user user :=
  ⟨rfl, List.Sublist.refl _, filled⟩

theorem Narrowed.trans {user₁ user₂ user₃ : RedemptionInfo} (h : Narrowed user₁ user₂)
    (h' : Narrowed user₂ user₃) : Narrowed user₁ user₃ :=
  ⟨h'.owner.trans h.owner, h'.ids.trans h.ids, h'.filled⟩

theorem Midway.refl (filled : optedIds loop.user ≠ []) : Midway loop loop :=
  ⟨rfl, rfl, rfl, .refl filled⟩

theorem Midway.trans {loop₁ loop₂ loop₃ : RedemptionEditLoop} (h : Midway loop₁ loop₂)
    (h' : Midway loop₂ loop₃) : Midway loop₁ loop₃ :=
  ⟨h'.state.trans h.state, h'.users.trans h.users, h'.positionIds.trans h.positionIds,
    h.narrowed.trans h'.narrowed⟩

/-- What dropping a position did: the record is narrower, or the user leaves the premium
    and the loop stops. -/
inductive Dropping (premium userIndex index : Nat) (loop loop' : RedemptionEditLoop) : Bool → Prop
  | narrowed (midway : Midway loop loop')
      (ids : optedIds loop'.user = (optedIds loop.user).eraseIdx index) :
      Dropping premium userIndex index loop loop' false
  | left (users : loop'.users = loop.users.eraseIdx userIndex)
      (stored : WritesPremium loop.s loop'.s premium loop'.users)
      (positionIds : loop'.positionIds = loop.positionIds) :
      Dropping premium userIndex index loop loop' true

theorem dropEntry_spec (done : dropEntry premium userIndex index loop = .ok (loop', stop)) :
    Dropping premium userIndex index loop loop' stop := by
  simp only [dropEntry, bind_eq_ok, removeIndex_eq_ok] at done
  obtain ⟨infos, ⟨-, rfl⟩, hrest⟩ := done
  split at hrest
  case isTrue =>
    simp only [bind_eq_ok, pure_eq_ok, removeIndex_eq_ok, Prod.mk.injEq] at hrest
    obtain ⟨users, ⟨-, rfl⟩, rfl, rfl⟩ := hrest
    exact .left rfl (.insert _ _ _) rfl
  case isFalse hempty =>
    obtain ⟨rfl, rfl⟩ := Prod.mk.inj (pure_eq_ok.mp hrest)
    have hids : optedIds { loop.user with
        positionInfos := loop.user.positionInfos.eraseIdx index } =
          (optedIds loop.user).eraseIdx index := by
      simp only [optedIds, List.eraseIdx_map]
    refine .narrowed ⟨rfl, rfl, rfl, rfl, ?_, ?_⟩ hids
    · rw [hids]
      exact List.eraseIdx_sublist _ _
    · intro hnil
      exact hempty (by simpa [optedIds] using hnil)

theorem changeEntry_spec {change : PositionRedemption → PositionRedemption}
    (same : ∀ info, (change info).positionId = info.positionId)
    (filled : optedIds loop.user ≠ []) (done : changeEntry index change loop = .ok loop') :
    Midway loop loop' ∧ optedIds loop'.user = optedIds loop.user := by
  simp only [changeEntry, bind_eq_ok, pure_eq_ok, index_eq_ok, setIndex_eq_ok] at done
  obtain ⟨info, hinfo, infos, ⟨-, rfl⟩, rfl⟩ := done
  have hids : optedIds { loop.user with
      positionInfos := loop.user.positionInfos.set index (change info) } = optedIds loop.user :=
    ListEdit.map_set_same PositionRedemption.positionId hinfo (same info)
  refine ⟨⟨rfl, rfl, rfl, rfl, ?_, ?_⟩, hids⟩
  · rw [hids]
  · rw [hids]
    exact filled

/-- What the edits of one position did once they are stored. An edit that moves takes out
    just the position found. -/
inductive EntryEdited (edit : RedemptionEdit) (premium userIndex index id : Nat)
    (loop loop' : RedemptionEditLoop) : Bool → Prop
  | stored (narrowed : Narrowed loop.user loop'.user)
      (moved : edit.movesFrom premium →
        optedIds loop'.user = (optedIds loop.user).eraseIdx index)
      (users : loop'.users = loop.users.set userIndex loop'.user)
      (stored : WritesPremium loop.s loop'.s premium loop'.users)
      (positionIds : loop'.positionIds = loop.positionIds.filter fun storedId => storedId ≠ id) :
      EntryEdited edit premium userIndex index id loop loop' false
  | left (users : loop'.users = loop.users.eraseIdx userIndex)
      (stored : WritesPremium loop.s loop'.s premium loop'.users)
      (positionIds : loop'.positionIds = loop.positionIds) :
      EntryEdited edit premium userIndex index id loop loop' true

theorem editEntry_spec (filled : optedIds loop.user ≠ [])
    (done : editEntry sender edit premium userIndex index id loop = .ok (loop', stop)) :
    EntryEdited edit premium userIndex index id loop loop' stop := by
  simp only [editEntry, bind_eq_ok] at done
  obtain ⟨⟨loop₁, stop₁⟩, hremove, hrest⟩ := done
  -- the removal that the edit asks for
  have hremoved : Dropping premium userIndex index loop loop₁ stop₁ ∨
      edit.redeemable ≠ some false ∧ loop₁ = loop ∧ stop₁ = false := by
    split at hremove
    case isTrue => exact .inl (dropEntry_spec hremove)
    case isFalse hkeep =>
      obtain ⟨rfl, rfl⟩ := Prod.mk.inj (pure_eq_ok.mp hremove)
      exact .inr ⟨hkeep, rfl, rfl⟩
  split at hrest
  case isTrue hstop =>
    obtain ⟨rfl, rfl⟩ := Prod.mk.inj (pure_eq_ok.mp hrest)
    rcases hremoved with hdrop | ⟨-, -, hgo⟩
    · subst hstop
      cases hdrop with
      | left users stored positionIds => exact .left users stored positionIds
    · rw [hgo] at hstop
      cases hstop
  case isFalse hgo =>
    have hgo : stop₁ = false := by simpa using hgo
    subst hgo
    have h₁ : Midway loop loop₁ ∧ (edit.redeemable ≠ some false → loop₁ = loop) := by
      rcases hremoved with hdrop | ⟨hkeep, rfl, -⟩
      · cases hdrop with
        | narrowed midway _ =>
          refine ⟨midway, fun hkeep => ?_⟩
          rw [if_neg hkeep] at hremove
          exact (Prod.mk.inj (pure_eq_ok.mp hremove)).1.symm
      · exact ⟨.refl filled, fun _ => rfl⟩
    simp only [bind_eq_ok] at hrest
    obtain ⟨loop₂, hmax, ⟨loop₃, stop₃⟩, hmove, hrest⟩ := hrest
    have h₂ : Midway loop₁ loop₂ ∧ optedIds loop₂.user = optedIds loop₁.user := by
      split at hmax
      case h_1 =>
        obtain rfl := pure_eq_ok.mp hmax
        exact ⟨.refl h₁.1.narrowed.filled, rfl⟩
      case h_2 =>
        simp only [bind_eq_ok] at hmax
        obtain ⟨_, -, _, -, hchange⟩ := hmax
        refine changeEntry_spec ?_ h₁.1.narrowed.filled hchange
        exact fun _ => rfl
    have h₂' : Midway loop loop₂ := h₁.1.trans h₂.1
    have hmoved : Dropping premium userIndex index loop₂ loop₃ stop₃ ∨
        ¬ edit.movesFrom premium ∧ loop₃ = loop₂ ∧ stop₃ = false := by
      split at hmove
      case h_1 hnone =>
        obtain ⟨rfl, rfl⟩ := Prod.mk.inj (pure_eq_ok.mp hmove)
        refine .inr ⟨?_, rfl, rfl⟩
        rintro ⟨-, updated, hsome, -⟩
        rw [hnone] at hsome
        cases hsome
      case h_2 updated hupdated =>
        split at hmove
        case isTrue => exact .inl (dropEntry_spec hmove)
        case isFalse hsame =>
          obtain ⟨rfl, rfl⟩ := Prod.mk.inj (pure_eq_ok.mp hmove)
          refine .inr ⟨?_, rfl, rfl⟩
          rintro ⟨-, updated', hsome, hne⟩
          rw [hupdated] at hsome
          obtain rfl := Option.some.inj hsome
          exact hsame hne
    split at hrest
    case isTrue hstop =>
      obtain ⟨rfl, rfl⟩ := Prod.mk.inj (pure_eq_ok.mp hrest)
      rcases hmoved with hdrop | ⟨-, -, hgo⟩
      · subst hstop
        cases hdrop with
        | left users stored positionIds =>
          refine .left ?_ ?_ (positionIds.trans h₂'.positionIds)
          · rw [users, h₂'.users]
          · rw [← h₂'.state]
            exact stored
      · rw [hgo] at hstop
        cases hstop
    case isFalse hgo =>
      have hgo : stop₃ = false := by simpa using hgo
      subst hgo
      have h₃ : Midway loop loop₃ ∧ (edit.movesFrom premium →
          optedIds loop₃.user = (optedIds loop.user).eraseIdx index) := by
        rcases hmoved with hdrop | ⟨hnot, rfl, -⟩
        · cases hdrop with
          | narrowed midway ids =>
            refine ⟨h₂'.trans midway, fun hmoves => ?_⟩
            rw [ids, h₂.2, h₁.2 hmoves.1]
        · exact ⟨h₂', fun hmoves => absurd hmoves hnot⟩
      simp only [bind_eq_ok, pure_eq_ok, setIndex_eq_ok, Prod.mk.injEq] at hrest
      obtain ⟨loop₄, hrestrict, users, ⟨-, rfl⟩, rfl, rfl⟩ := hrest
      have h₄ : Midway loop₃ loop₄ ∧ optedIds loop₄.user = optedIds loop₃.user := by
        split at hrestrict
        case h_1 =>
          obtain rfl := pure_eq_ok.mp hrestrict
          exact ⟨.refl h₃.1.narrowed.filled, rfl⟩
        case h_2 =>
          simp only [bind_eq_ok] at hrestrict
          obtain ⟨_, -, hchange⟩ := hrestrict
          refine changeEntry_spec ?_ h₃.1.narrowed.filled hchange
          exact fun _ => rfl
      have hall : Midway loop loop₄ := h₃.1.trans h₄.1
      refine .stored hall.narrowed ?_ ?_ ?_ ?_
      · exact fun hmoves => h₄.2.trans (h₃.2 hmoves)
      · simp only [hall.users]
      · rw [← hall.state]
        exact .insert _ _ _
      · simp only [hall.positionIds]

/-! ## A user's positions in one premium -/

/-- What the loop over the ids did to the list of a premium, from its start. -/
structure EntriesEdited (edit : RedemptionEdit) (premium : Nat) (ids : List Nat)
    (loop loop' : RedemptionEditLoop) : Prop where
  thinned : Thinned loop.users loop'.users
  stored : WritesPremium loop.s loop'.s premium loop'.users
  /-- Only ids that are found are no longer looked for. -/
  found : ∀ id ∈ loop.positionIds, id ∉ loop'.positionIds →
    (loop.user.positionOwner, id) ∈ entriesOf loop.users
  kept : ∀ id ∈ loop'.positionIds, id ∈ loop.positionIds
  /-- What an edit moves is not left at the premium. -/
  moved : edit.movesFrom premium → Kept loop.users →
    ∀ id ∈ ids, (loop.user.positionOwner, id) ∉ entriesOf loop'.users

theorem editEntries_spec : ∀ {ids : List Nat} {loop loop' : RedemptionEditLoop},
    loop.users[userIndex]? = some loop.user → usersAt loop.s premium = loop.users →
    (∀ user ∈ loop.users, optedIds user ≠ []) →
    editEntries sender edit premium userIndex ids loop = .ok loop' →
    EntriesEdited edit premium ids loop loop' := by
  intro ids
  induction ids with
  | nil =>
    intro loop loop' _ stored _ done
    obtain rfl := pure_eq_ok.mp done
    exact ⟨.refl _, ⟨stored, fun _ _ => rfl⟩, fun _ hmem hnot => absurd hmem hnot,
      fun _ hmem => hmem, fun _ _ _ hmem => (List.not_mem_nil hmem).elim⟩
  | cons id rest ih =>
    intro loop loop' place stored filled done
    have hfilled : optedIds loop.user ≠ [] := filled _ (List.mem_of_getElem? place)
    unfold editEntries at done
    split at done
    case h_1 hnone =>
      -- the user has not opted this position in here
      have hrest := ih place stored filled done
      refine ⟨hrest.thinned, hrest.stored, hrest.found, hrest.kept, fun moves kept id' hid' => ?_⟩
      rcases List.mem_cons.mp hid' with rfl | hmem
      · intro hentry
        have hold := hrest.thinned.fewer _ hentry
        obtain ⟨user, huser, howner, hopted⟩ := mem_entriesOf.mp hold
        obtain rfl := kept.same huser (List.mem_of_getElem? place) howner
        obtain ⟨info, hinfo, rfl⟩ := List.mem_map.mp hopted
        have hfalse := List.findIdx?_eq_none_iff.mp hnone info hinfo
        simp at hfalse
      · exact hrest.moved moves kept id' hmem
    case h_2 index hfound =>
      simp only [bind_eq_ok] at done
      obtain ⟨⟨mid, stop⟩, hentry, hrest⟩ := done
      obtain ⟨info, hinfo, hid⟩ := ListEdit.findIdx?_getElem? hfound
      have hid : info.positionId = id := by simpa using hid
      have hget : (optedIds loop.user)[index]? = some id := by
        rw [optedIds, List.getElem?_map, hinfo, ← hid]
        rfl
      have hopted : (loop.user.positionOwner, id) ∈ entriesOf loop.users :=
        mem_entriesOf.mpr ⟨loop.user, List.mem_of_getElem? place, rfl, List.mem_of_getElem? hget⟩
      cases editEntry_spec hfilled hentry with
      | left users written positionIds =>
        obtain rfl := pure_eq_ok.mp hrest
        refine ⟨?_, written, ?_, ?_, ?_⟩
        · rw [users]
          exact .eraseIdx
        · intro id' hmem hnot
          rw [positionIds] at hnot
          exact absurd hmem hnot
        · intro id' hmem
          rwa [positionIds] at hmem
        · intro _ kept id' _
          rw [users]
          exact not_mem_entriesOf_eraseIdx kept place id'
      | stored narrowed moved users written positionIds =>
        have hthin : Thinned loop.users mid.users := by
          rw [users]
          exact .set place narrowed
        have hlt : userIndex < loop.users.length := (List.getElem?_eq_some_iff.mp place).1
        have hplace : mid.users[userIndex]? = some mid.user := by
          rw [users]
          exact List.getElem?_set_self hlt
        have hfilled' : ∀ user ∈ mid.users, optedIds user ≠ [] := by
          intro user huser
          rw [users] at huser
          rcases List.mem_or_eq_of_mem_set huser with hold | rfl
          · exact filled user hold
          · exact narrowed.filled
        have hlast := ih hplace written.here hfilled' hrest
        refine ⟨hthin.trans hlast.thinned, written.trans hlast.stored, ?_, ?_, ?_⟩
        · intro id' hmem hnot
          by_cases hsame : id' = id
          · exact hsame ▸ hopted
          · have hmid : id' ∈ mid.positionIds := by
              rw [positionIds]
              exact List.mem_filter.mpr ⟨hmem, by simpa using hsame⟩
            have hold := hlast.found id' hmid hnot
            rw [narrowed.owner] at hold
            exact hthin.fewer _ hold
        · intro id' hmem
          have hmid := hlast.kept id' hmem
          rw [positionIds] at hmid
          exact List.mem_of_mem_filter hmid
        · intro moves kept id' hid'
          rcases List.mem_cons.mp hid' with rfl | hmem
          · intro hentry
            have hold := hlast.thinned.fewer _ hentry
            rw [users] at hold
            refine not_mem_entriesOf_set kept place narrowed ?_ hold
            rw [moved moves]
            exact ListEdit.not_mem_eraseIdx (kept.ids _ (List.mem_of_getElem? place)) hget
          · have hgone := hlast.moved moves (hthin.kept kept) id' hmem
            rwa [narrowed.owner] at hgone

/-! ## All premiums -/

theorem findRedemptionUser_some {users : List RedemptionInfo} {user : RedemptionInfo} {i : Nat}
    (found : findRedemptionUser users sender = some (i, user)) :
    users[i]? = some user ∧ user.positionOwner = sender := by
  simp only [findRedemptionUser, Option.bind_eq_some_iff, Option.map_eq_some_iff] at found
  obtain ⟨j, hindex, user', hget, heq⟩ := found
  obtain ⟨rfl, rfl⟩ := Prod.mk.inj heq
  obtain ⟨a, ha, howner⟩ := ListEdit.findIdx?_getElem? hindex
  obtain rfl : user' = a := Option.some.inj (hget.symm.trans ha)
  exact ⟨hget, by simpa using howner⟩

theorem findRedemptionUser_none {users : List RedemptionInfo}
    (found : findRedemptionUser users sender = none) :
    ∀ user ∈ users, user.positionOwner ≠ sender := by
  intro user mem howner
  cases hindex : users.findIdx? fun user => user.positionOwner == sender with
  | none =>
    have hfalse := List.findIdx?_eq_none_iff.mp hindex user mem
    simp [howner] at hfalse
  | some i =>
    obtain ⟨a, ha, -⟩ := ListEdit.findIdx?_getElem? hindex
    simp [findRedemptionUser, hindex, ha] at found

structure PremiumEdited (sender : Addr) (edit : RedemptionEdit) (premium : Nat)
    (acc acc' : State × List Nat) : Prop where
  thinned : Thinned (usersAt acc.1 premium) (usersAt acc'.1 premium)
  others : ∀ other, other ≠ premium → usersAt acc'.1 other = usersAt acc.1 other
  found : ∀ id ∈ acc.2, id ∉ acc'.2 → (sender, id) ∈ entriesOf (usersAt acc.1 premium)
  left : ∀ id ∈ acc'.2, id ∈ acc.2
  moved : edit.movesFrom premium → ∀ id ∈ acc.2,
    (sender, id) ∉ entriesOf (usersAt acc'.1 premium)

theorem editPremium_spec {acc acc' : State × List Nat} (kept : Kept (usersAt acc.1 premium))
    (done : editPremium sender edit acc premium = .ok acc') :
    PremiumEdited sender edit premium acc acc' := by
  have hidle : (∀ id ∈ acc.2, (sender, id) ∉ entriesOf (usersAt acc.1 premium)) →
      PremiumEdited sender edit premium acc acc := fun hnone =>
    ⟨.refl _, fun _ _ => rfl, fun _ mem hnot => absurd mem hnot, fun _ mem => mem, fun _ => hnone⟩
  unfold editPremium at done
  dsimp only at done
  split at done
  case isTrue hempty =>
    obtain rfl := pure_eq_ok.mp done
    refine hidle fun id mem hentry => ?_
    rcases Bool.or_eq_true_iff.mp hempty with hids | husers
    · rw [List.isEmpty_iff.mp hids] at mem
      cases mem
    · have hnil : usersAt acc.1 premium = [] := List.isEmpty_iff.mp husers
      rw [hnil] at hentry
      cases hentry
  case isFalse =>
    split at done
    case h_1 hnone =>
      obtain rfl := pure_eq_ok.mp done
      refine hidle fun id mem hentry => ?_
      obtain ⟨user, huser, howner, -⟩ := mem_entriesOf.mp hentry
      exact findRedemptionUser_none hnone user huser howner
    case h_2 userIndex user hsome =>
      simp only [bind_eq_ok, pure_eq_ok] at done
      obtain ⟨loop, hentries, rfl⟩ := done
      obtain ⟨hplace, howner⟩ := findRedemptionUser_some hsome
      have hedited : EntriesEdited edit premium acc.2
          ⟨acc.1, usersAt acc.1 premium, user, acc.2⟩ loop :=
        editEntries_spec hplace rfl kept.filled hentries
      subst howner
      refine ⟨?_, hedited.stored.others, ?_, hedited.kept, ?_⟩
      · rw [hedited.stored.here]
        exact hedited.thinned
      · exact hedited.found
      · intro moves id mem
        rw [hedited.stored.here]
        exact hedited.moved moves kept id mem

/-- What the edits did in the premiums below `next`. A position that the edit moves is not
    left at a premium, unless it was at a lower one too. -/
structure PremiumsEdited (sender : Addr) (edit : RedemptionEdit) (ids : List Nat) (s : State)
    (next : Nat) (acc : State × List Nat) : Prop where
  thinned : ∀ premium, Thinned (usersAt s premium) (usersAt acc.1 premium)
  ahead : ∀ premium, next ≤ premium → usersAt acc.1 premium = usersAt s premium
  found : ∀ id ∈ ids, id ∉ acc.2 → ∃ premium < next, (sender, id) ∈ entriesOf (usersAt s premium)
  left : ∀ id ∈ acc.2, id ∈ ids
  moved : ∀ premium < next, edit.movesFrom premium → ∀ id ∈ ids,
    (∀ lower < premium, (sender, id) ∈ entriesOf (usersAt s lower) →
      (sender, id) ∉ entriesOf (usersAt s premium)) →
    (sender, id) ∉ entriesOf (usersAt acc.1 premium)

theorem editPremiums_spec {ids : List Nat} (kept : ∀ premium, Kept (usersAt s premium)) :
    ∀ {next : Nat} {acc : State × List Nat},
      (List.range next).foldlM (editPremium sender edit) (s, ids) = .ok acc →
      PremiumsEdited sender edit ids s next acc := by
  intro next
  induction next with
  | zero =>
    intro acc done
    obtain rfl := pure_eq_ok.mp done
    exact ⟨fun _ => .refl _, fun _ _ => rfl, fun _ mem hnot => absurd mem hnot, fun _ mem => mem,
      fun _ hlt => absurd hlt (Nat.not_lt_zero _)⟩
  | succ next ih =>
    intro acc done
    rw [List.range_succ, List.foldlM_append] at done
    simp only [bind_eq_ok, List.foldlM_cons, List.foldlM_nil, pure_eq_ok] at done
    obtain ⟨mid, hbefore, last, hstep, rfl⟩ := done
    have before := ih hbefore
    have hhere := before.ahead next (Nat.le_refl _)
    have step := editPremium_spec ((before.thinned next).kept (kept next)) hstep
    refine ⟨?_, ?_, ?_, fun id mem => before.left id (step.left id mem), ?_⟩
    · intro premium
      by_cases same : premium = next
      · subst same
        exact (before.thinned premium).trans step.thinned
      · rw [step.others premium same]
        exact before.thinned premium
    · intro premium hle
      rw [step.others premium (by omega)]
      exact before.ahead premium (by omega)
    · intro id mem hnot
      by_cases hmid : id ∈ mid.2
      · refine ⟨next, Nat.lt_succ_self _, ?_⟩
        rw [← hhere]
        exact step.found id hmid hnot
      · obtain ⟨premium, hlt, hentry⟩ := before.found id mem hmid
        exact ⟨premium, by omega, hentry⟩
    · intro premium hlt moves id mem below
      by_cases same : premium = next
      · subst same
        by_cases hmid : id ∈ mid.2
        · exact step.moved moves id hmid
        · obtain ⟨lower, hlower, hentry⟩ := before.found id mem hmid
          intro hleft
          have hold := step.thinned.fewer _ hleft
          rw [hhere] at hold
          exact below lower hlower hentry hold
      · rw [step.others premium same]
        exact before.moved premium (by omega) moves id mem below

/-! ## Additions -/

def addPosition (s : State) (sender : Addr) (edit : RedemptionEdit) (user : RedemptionInfo)
    (id : Nat) : Result RedemptionInfo :=
  if user.positionInfos.any fun info => info.positionId == id then pure user
  else do
    let info ← newPositionRedemption s sender edit id
    pure { user with positionInfos := user.positionInfos ++ [info] }

theorem newPositionRedemption_id {info : PositionRedemption}
    (done : newPositionRedemption s sender edit id = .ok info) : info.positionId = id := by
  simp only [newPositionRedemption, bind_eq_ok, pure_eq_ok] at done
  obtain ⟨_, -, _, -, rfl⟩ := done
  rfl

structure PositionsAdded (ids : List Nat) (user user' : RedemptionInfo) : Prop where
  owner : user'.positionOwner = user.positionOwner
  distinct : (optedIds user).Nodup → (optedIds user').Nodup
  more : ∀ id ∈ optedIds user, id ∈ optedIds user'
  new : ∀ id ∈ optedIds user', id ∈ optedIds user ∨ id ∈ ids

theorem addPositions_spec : ∀ {ids : List Nat} {user user' : RedemptionInfo},
    ids.foldlM (addPosition s sender edit) user = .ok user' → PositionsAdded ids user user' := by
  intro ids
  induction ids with
  | nil =>
    intro user user' done
    obtain rfl := pure_eq_ok.mp done
    exact ⟨rfl, id, fun _ mem => mem, fun _ mem => .inl mem⟩
  | cons id rest ih =>
    intro user user' done
    simp only [List.foldlM_cons, bind_eq_ok] at done
    obtain ⟨mid, hstep, hrest⟩ := done
    have last := ih hrest
    unfold addPosition at hstep
    split at hstep
    case isTrue =>
      obtain rfl := pure_eq_ok.mp hstep
      refine ⟨last.owner, last.distinct, last.more, fun id' mem => ?_⟩
      exact (last.new id' mem).imp_right (List.mem_cons_of_mem id)
    case isFalse habsent =>
      simp only [bind_eq_ok, pure_eq_ok] at hstep
      obtain ⟨info, hinfo, rfl⟩ := hstep
      have hids : optedIds { user with positionInfos := user.positionInfos ++ [info] } =
          optedIds user ++ [id] := by
        simp only [optedIds, List.map_append, List.map_cons, List.map_nil,
          newPositionRedemption_id hinfo]
      have hnot : id ∉ optedIds user := by
        intro mem
        obtain ⟨stored, hstored, hid⟩ := List.mem_map.mp mem
        refine habsent (List.any_eq_true.mpr ⟨stored, hstored, ?_⟩)
        simpa using hid
      refine ⟨last.owner, fun distinct => last.distinct ?_, fun id' mem => last.more id' ?_,
        fun id' mem => ?_⟩
      · rw [hids, List.nodup_append]
        refine ⟨distinct, by simp, fun a ha b hb heq => ?_⟩
        obtain rfl : b = id := by simpa using hb
        exact hnot (heq ▸ ha)
      · rw [hids]
        exact List.mem_append_left _ mem
      · rcases last.new id' mem with hold | hnew
        · rw [hids] at hold
          rcases List.mem_append.mp hold with hold | hid
          · exact .inl hold
          · exact .inr (List.mem_cons.mpr (.inl (by simpa using hid)))
        · exact .inr (List.mem_cons_of_mem id hnew)

/-- What the additions did: the user's record has grown, and nothing is left to edit; or
    the user has got a record. -/
inductive Additions (s s' : State) (sender : Addr) (premium : Nat) (ids ids' : List Nat) : Prop
  | grown (i : Nat) (user user' : RedemptionInfo)
      (found : findRedemptionUser (usersAt s premium) sender = some (i, user))
      (added : PositionsAdded ids user user')
      (written : WritesPremium s s' premium ((usersAt s premium).set i user')) (left : ids' = [])
  | new (user : RedemptionInfo)
      (absent : ∀ stored ∈ usersAt s premium, stored.positionOwner ≠ sender)
      (owner : user.positionOwner = sender) (opted : optedIds user = ids)
      (written : WritesPremium s s' premium (usersAt s premium ++ [user])) (left : ids' = ids)

theorem createRedemptionInfo_spec {ids : List Nat} {user : RedemptionInfo}
    (done : createRedemptionInfo s sender edit ids = .ok user) :
    user.positionOwner = sender ∧ optedIds user = ids := by
  simp only [createRedemptionInfo, bind_eq_ok, mapErr_eq_ok, pure_eq_ok] at done
  obtain ⟨infos, hinfos, rfl⟩ := done
  refine ⟨rfl, ?_⟩
  have hids : List.Forall₂ (fun info id => PositionRedemption.positionId info = id) infos ids :=
    ((mapM_forall₂ hinfos).imp fun _ _ h => newPositionRedemption_id h).flip
  have hall := List.forall₂_map_left_iff.mpr hids
  rwa [List.forall₂_eq_eq_eq] at hall

theorem addRedemptions_spec {ids ids' : List Nat}
    (done : addRedemptions s sender edit premium ids = .ok (s', ids')) :
    Additions s s' sender premium ids ids' := by
  unfold addRedemptions at done
  dsimp only at done
  split at done
  case h_1 i user hfound =>
    simp only [bind_eq_ok, pure_eq_ok, setIndex_eq_ok, Prod.mk.injEq] at done
    obtain ⟨user', hadd, users, ⟨-, rfl⟩, rfl, rfl⟩ := done
    exact .grown i user user' hfound (addPositions_spec hadd) (.insert _ _ _) rfl
  case h_2 hnone =>
    simp only [bind_eq_ok, pure_eq_ok, Prod.mk.injEq] at done
    obtain ⟨user, hcreate, rfl, rfl⟩ := done
    obtain ⟨howner, hopted⟩ := createRedemptionInfo_spec hcreate
    exact .new user (findRedemptionUser_none hnone) howner hopted (.insert _ _ _) rfl

end Edits

end Membrane.Cdp
