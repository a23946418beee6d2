import Membrane.Cdp.Proofs.Forcing
import Membrane.Lib.Safely

/-!
# Editing opt-ins touches only what it names

An edit finds each named position in the lists of the premiums, in ascending order, and
drops or changes its entry. Dropping an entry leaves the next one at its index, where the
edits that follow would write. Where none follow, or the user leaves the premium with the
entry, the edit touches the named positions alone and does not run off the list.
-/

namespace Membrane.Cdp

open Outcome

/-! ## What an edit asks for -/

def RedemptionEdit.Drops (edit : RedemptionEdit) (premium : Nat) : Prop :=
  edit.redeemable = some false ∨
    ∃ updated, edit.updatedPremium = some updated ∧ updated ≠ premium

/-- Whether the edit asks for restricted assets that are no collateral types, which it is
    refused at the first entry that it would change. -/
def RedemptionEdit.Unlisted (edit : RedemptionEdit) (s : State) : Prop :=
  ∃ restricted, edit.restrictedCollateralAssets = some restricted ∧
    (restricted.all fun asset =>
      (s.basket.collateralTypes.map (·.asset.info.toText)).contains asset) = false

/-- Whether the edit goes on writing to the index of an entry that it took out: after a
    removal to another limit or by the move to another premium, and after both to other
    restricted assets. -/
def RedemptionEdit.WritesOn (edit : RedemptionEdit) (s : State) (premium : Nat) : Prop :=
  edit.redeemable = some false ∧ (edit.maxLoanRepayment ≠ none ∨
      ∃ updated, edit.updatedPremium = some updated ∧ updated ≠ premium) ∨
    edit.Drops premium ∧ edit.restrictedCollateralAssets ≠ none ∧ ¬ edit.Unlisted s

structure Granted (s : State) (sender : Addr) (edit : RedemptionEdit) (info : PositionRedemption) :
    Prop where
  limit : ∀ max, edit.maxLoanRepayment = some max →
    ∃ position, ownedPosition s sender info.positionId = .ok position ∧
      info.remainingLoanRepayment = position.creditAmount * max.atomics / Decimal.fractional
  restricted : ∀ assets, edit.restrictedCollateralAssets = some assets →
    info.restrictedCollateralAssets = assets

/-- The limit of the edit is a part of the debt, and the debt of the position fits 128 bits. -/
structure LimitFits (s : State) (sender : Addr) (edit : RedemptionEdit) (id : Nat) : Prop where
  part : ∀ max, edit.maxLoanRepayment = some max → max ≤ Decimal.one
  debt : ∀ position, ownedPosition s sender id = .ok position →
    position.creditAmount < Uint128.limit

section

variable {s : State} {sender : Addr} {edit : RedemptionEdit} {premium userIndex index id : Nat}
  {loop loop' : RedemptionEditLoop} {info : PositionRedemption}

theorem OnlyOptIn.ownedPosition {s s' : State} (only : OnlyOptIn s s') (owner : Addr) (id : Nat) :
    Cdp.ownedPosition s' owner id = Cdp.ownedPosition s owner id := by
  obtain ⟨optIn, rfl⟩ := only
  rfl

theorem OnlyOptIn.unlisted {s s' : State} (only : OnlyOptIn s s') :
    edit.Unlisted s' ↔ edit.Unlisted s := by
  obtain ⟨optIn, rfl⟩ := only
  exact Iff.rfl

theorem OnlyOptIn.writesOn {s s' : State} (only : OnlyOptIn s s') :
    edit.WritesOn s' premium ↔ edit.WritesOn s premium := by
  unfold RedemptionEdit.WritesOn
  rw [only.unlisted]

theorem getTargetPosition_safely : Safely (getTargetPosition s sender id) (fun target =>
    getTargetPosition s sender id = .ok target) := by
  constructor
  · have hsafe : Safely (getTargetPosition s sender id) (fun _ => True) := by
      unfold getTargetPosition
      refine .bind .ofOption fun _ _ _ => ?_
      exact Safely.ofOption.mono fun _ _ => trivial
    exact hsafe.noPanic
  · exact fun target done => done

theorem ownedPosition_safely : Safely (ownedPosition s sender id)
    (fun position => ownedPosition s sender id = .ok position) := by
  constructor
  · intro panics
    unfold ownedPosition at panics
    split at panics
    · cases panics
    · cases panics
  · exact fun position done => done

theorem LimitFits.mulUint {max : Decimal} {position : Position} (fits : LimitFits s sender edit id)
    (part : max ≤ Decimal.one) (owned : ownedPosition s sender id = .ok position) :
    Safely (Decimal.mulUint position.creditAmount max : Result Nat)
      (fun remaining => remaining =
        position.creditAmount * max.atomics / Decimal.fractional) := by
  have hpart : position.creditAmount * max.atomics / Decimal.fractional < Uint128.limit := by
    refine Nat.lt_of_le_of_lt ?_ (fits.debt position owned)
    apply Nat.div_le_of_le_mul
    rw [Nat.mul_comm Decimal.fractional]
    exact Nat.mul_le_mul_left _ part
  have hdone : (Decimal.mulUint position.creditAmount max : Result Nat) =
      .ok (position.creditAmount * max.atomics / Decimal.fractional) :=
    Decimal.mulUint_ok_iff.mpr ⟨hpart, rfl⟩
  rw [hdone]
  exact .pure rfl

/-! ## One entry -/

def RedemptionEditLoop.withInfos (loop : RedemptionEditLoop) (infos : List PositionRedemption) :
    RedemptionEditLoop :=
  { loop with user := { loop.user with positionInfos := infos } }

theorem dropEntry_safely (bound : index < loop.user.positionInfos.length)
    (userBound : userIndex < loop.users.length) :
    Safely (dropEntry premium userIndex index loop) (fun out =>
      (loop.user.positionInfos.eraseIdx index = [] ∧ out.2 = true ∧
        out.1.users = loop.users.eraseIdx userIndex ∧
        out.1.s = { loop.s with
          redemptionOptIn := loop.s.redemptionOptIn.insert premium out.1.users } ∧
        out.1.positionIds = loop.positionIds) ∨
      (loop.user.positionInfos.eraseIdx index ≠ [] ∧
        out = (loop.withInfos (loop.user.positionInfos.eraseIdx index), false))) := by
  unfold dropEntry
  refine .bind (.removeIndex bound) ?_
  rintro infos - rfl
  refine .ite (fun hempty => ?_) (fun hsome => ?_)
  · refine .bind (.removeIndex userBound) ?_
    rintro users - rfl
    exact .pure (.inl ⟨List.isEmpty_iff.mp hempty, rfl, rfl, rfl, rfl⟩)
  · exact .pure (.inr ⟨fun hnil => hsome (List.isEmpty_iff.mpr hnil), rfl⟩)

theorem changeEntry_safely {change : PositionRedemption → PositionRedemption}
    (found : loop.user.positionInfos[index]? = some info) :
    Safely (changeEntry index change loop) (fun loop' =>
      loop' = loop.withInfos (loop.user.positionInfos.set index (change info))) := by
  have hbound : index < loop.user.positionInfos.length := (List.getElem?_eq_some_iff.mp found).1
  unfold changeEntry
  refine .bind (.index hbound) ?_
  intro info' _ hinfo
  obtain rfl : info = info' := Option.some.inj (found.symm.trans hinfo)
  refine .bind (.setIndex hbound) ?_
  rintro infos - rfl
  exact .pure rfl

/-- What the edits of one entry did, where none of them wrote to the place of an entry that
    was taken out: the user has left with its last entry, the entry alone is gone, or it says
    what the edit asks for. -/
inductive EntryTouched (s : State) (sender : Addr) (edit : RedemptionEdit)
    (premium userIndex index id : Nat) (loop loop' : RedemptionEditLoop) : Bool → Prop
  | left (drops : edit.Drops premium) (last : loop.user.positionInfos.eraseIdx index = [])
      (users : loop'.users = loop.users.eraseIdx userIndex)
      (stored : loop'.s = { loop.s with
        redemptionOptIn := loop.s.redemptionOptIn.insert premium loop'.users })
      (positionIds : loop'.positionIds = loop.positionIds) :
      EntryTouched s sender edit premium userIndex index id loop loop' true
  | dropped (listed : ¬ edit.Unlisted s) (drops : edit.Drops premium)
      (filled : loop.user.positionInfos.eraseIdx index ≠ [])
      (user : loop'.user = { loop.user with
        positionInfos := loop.user.positionInfos.eraseIdx index })
      (users : loop'.users = loop.users.set userIndex loop'.user)
      (stored : loop'.s = { loop.s with
        redemptionOptIn := loop.s.redemptionOptIn.insert premium loop'.users })
      (positionIds : loop'.positionIds = loop.positionIds.filter fun storedId => storedId ≠ id) :
      EntryTouched s sender edit premium userIndex index id loop loop' false
  | changed (listed : ¬ edit.Unlisted s) (stays : ¬ edit.Drops premium) (info : PositionRedemption)
      (named : info.positionId = id) (granted : Granted s sender edit info)
      (user : loop'.user = { loop.user with
        positionInfos := loop.user.positionInfos.set index info })
      (users : loop'.users = loop.users.set userIndex loop'.user)
      (stored : loop'.s = { loop.s with
        redemptionOptIn := loop.s.redemptionOptIn.insert premium loop'.users })
      (positionIds : loop'.positionIds = loop.positionIds.filter fun storedId => storedId ≠ id) :
      EntryTouched s sender edit premium userIndex index id loop loop' false

def setLimit (sender : Addr) (edit : RedemptionEdit) (index id : Nat) (loop : RedemptionEditLoop) :
    Result RedemptionEditLoop :=
  match edit.maxLoanRepayment with
  | none => pure loop
  | some maxLoanRepayment => do
      let position ← ownedPosition loop.s sender id
      let remaining ← Decimal.mulUint position.creditAmount maxLoanRepayment
      changeEntry index (fun info => { info with remainingLoanRepayment := remaining }) loop

def moveEntry (edit : RedemptionEdit) (premium userIndex index : Nat) (loop : RedemptionEditLoop) :
    Result (RedemptionEditLoop × Bool) :=
  match edit.updatedPremium with
  | none => pure (loop, false)
  | some updatedPremium =>
    if updatedPremium ≠ premium then dropEntry premium userIndex index loop else pure (loop, false)

def setRestricted (edit : RedemptionEdit) (index : Nat) (loop : RedemptionEditLoop) :
    Result RedemptionEditLoop :=
  match edit.restrictedCollateralAssets with
  | none => pure loop
  | some restricted => do
      let collateral := loop.s.basket.collateralTypes.map (·.asset.info.toText)
      Outcome.guardErr ((restricted.all fun asset => collateral.contains asset) = false)
        (.customError
          "Invalid restricted asset, only the position's collateral assets are viable to restrict")
      changeEntry index (fun info => { info with restrictedCollateralAssets := restricted }) loop

def storeEntry (premium userIndex id : Nat) (loop : RedemptionEditLoop) :
    Result (RedemptionEditLoop × Bool) := do
  let users ← Outcome.setIndex loop.users userIndex loop.user
  pure ({ loop with
    users := users
    s := { loop.s with redemptionOptIn := loop.s.redemptionOptIn.insert premium users }
    positionIds := loop.positionIds.filter fun storedId => storedId ≠ id }, false)

theorem editEntry_eq : editEntry sender edit premium userIndex index id loop = (do
    let (loop, stop) ←
      (if edit.redeemable = some false then dropEntry premium userIndex index loop
      else pure (loop, false))
    if stop then pure (loop, true)
    else do
      let loop ← setLimit sender edit index id loop
      let (loop, stop) ← moveEntry edit premium userIndex index loop
      if stop then pure (loop, true)
      else do
        let loop ← setRestricted edit index loop
        storeEntry premium userIndex id loop) := rfl

theorem setLimit_none (asked : edit.maxLoanRepayment = none) :
    setLimit sender edit index id loop = .ok loop := by
  unfold setLimit
  rw [asked]
  rfl

theorem moveEntry_stays (stays : ∀ updated, edit.updatedPremium = some updated →
    updated = premium) :
    moveEntry edit premium userIndex index loop = .ok (loop, false) := by
  unfold moveEntry
  cases h : edit.updatedPremium with
  | none => rfl
  | some updated =>
    dsimp only
    rw [if_neg fun hne => hne (stays updated h)]
    rfl

theorem setRestricted_none (asked : edit.restrictedCollateralAssets = none) :
    setRestricted edit index loop = .ok loop := by
  unfold setRestricted
  rw [asked]
  rfl

theorem setRestricted_unlisted (post : RedemptionEditLoop → Prop)
    (unlisted : edit.Unlisted loop.s) : Safely (setRestricted edit index loop) post := by
  obtain ⟨restricted, hasked, hunlisted⟩ := unlisted
  unfold setRestricted
  rw [hasked]
  exact .bind .guardErr fun _ _ hlisted => absurd hunlisted hlisted

/-- Restricted assets that are not asked for, or are refused, change nothing. -/
theorem setRestricted_idle {next : RedemptionEditLoop → Result (RedemptionEditLoop × Bool)}
    {post : RedemptionEditLoop × Bool → Prop} (only : OnlyOptIn s loop.s)
    (idle : ¬ edit.Unlisted s → edit.restrictedCollateralAssets = none)
    (rest : ¬ edit.Unlisted s → Safely (next loop) post) :
    Safely (setRestricted edit index loop >>= next) post := by
  by_cases hunlisted : edit.Unlisted s
  · exact .bind (setRestricted_unlisted (fun _ => False) (only.unlisted.mpr hunlisted))
      fun _ _ => False.elim
  · exact .bind_done (setRestricted_none (idle hunlisted)) (rest hunlisted)

variable (loop) in
theorem storeEntry_safely (userBound : userIndex < loop.users.length) :
    Safely (storeEntry premium userIndex id loop) (fun out => out.2 = false ∧
      out.1.user = loop.user ∧ out.1.users = loop.users.set userIndex loop.user ∧
      out.1.s = { loop.s with
        redemptionOptIn := loop.s.redemptionOptIn.insert premium out.1.users } ∧
      out.1.positionIds = loop.positionIds.filter fun storedId => storedId ≠ id) := by
  unfold storeEntry
  refine .bind (.setIndex userBound) ?_
  rintro users - rfl
  exact .pure ⟨rfl, rfl, rfl, rfl, rfl⟩

theorem setLimit_safely (only : OnlyOptIn s loop.s) (fits : LimitFits s sender edit id)
    (found : loop.user.positionInfos[index]? = some info) (named : info.positionId = id) :
    Safely (setLimit sender edit index id loop) (fun loop' => ∃ info',
      loop' = loop.withInfos (loop.user.positionInfos.set index info') ∧ info'.positionId = id ∧
        ∀ max, edit.maxLoanRepayment = some max → ∃ position,
          ownedPosition s sender id = .ok position ∧ info'.remainingLoanRepayment =
            position.creditAmount * max.atomics / Decimal.fractional) := by
  have hbound : index < loop.user.positionInfos.length := (List.getElem?_eq_some_iff.mp found).1
  cases h : edit.maxLoanRepayment with
  | none =>
    rw [setLimit_none h]
    refine .pure ⟨info, ?_, named, fun max hmax => ?_⟩
    · have hself : loop.user.positionInfos.set index info = loop.user.positionInfos :=
        ListEdit.set_found found
      rw [hself]
      rfl
    · cases hmax
  | some max =>
    unfold setLimit
    rw [h]
    refine .bind ownedPosition_safely ?_
    intro position _ howned
    rw [only.ownedPosition] at howned
    refine .bind (fits.mulUint (fits.part max h) howned) ?_
    rintro remaining - rfl
    refine (changeEntry_safely found).mono ?_
    rintro loop' rfl
    refine ⟨_, rfl, named, fun max' hmax => ?_⟩
    obtain rfl := Option.some.inj hmax
    exact ⟨position, howned, rfl⟩

variable (loop) in
theorem setRestricted_safely (found : loop.user.positionInfos[index]? = some info) :
    Safely (setRestricted edit index loop) (fun loop' => ∃ info',
      loop' = loop.withInfos (loop.user.positionInfos.set index info') ∧
        info'.positionId = info.positionId ∧
        info'.remainingLoanRepayment = info.remainingLoanRepayment ∧ ¬ edit.Unlisted loop.s ∧
        ∀ assets, edit.restrictedCollateralAssets = some assets →
          info'.restrictedCollateralAssets = assets) := by
  cases h : edit.restrictedCollateralAssets with
  | none =>
    rw [setRestricted_none h]
    refine .pure ⟨info, ?_, rfl, rfl, fun ⟨_, hasked, _⟩ => ?_, fun assets hassets => ?_⟩
    · have hself : loop.user.positionInfos.set index info = loop.user.positionInfos :=
        ListEdit.set_found found
      rw [hself]
      rfl
    · rw [h] at hasked
      cases hasked
    · cases hassets
  | some assets =>
    unfold setRestricted
    rw [h]
    refine .bind .guardErr ?_
    intro _ _ hlisted
    refine (changeEntry_safely found).mono ?_
    rintro loop' rfl
    refine ⟨_, rfl, rfl, rfl, fun ⟨assets', hasked, hunlisted⟩ => ?_, fun assets' hassets => ?_⟩
    · obtain rfl := Option.some.inj (h.symm.trans hasked)
      exact hlisted hunlisted
    · exact Option.some.inj hassets

theorem editEntry_safely (only : OnlyOptIn s loop.s) (fits : LimitFits s sender edit id)
    (found : loop.user.positionInfos[index]? = some info) (named : info.positionId = id)
    (userBound : userIndex < loop.users.length)
    (steady : edit.WritesOn s premium → loop.user.positionInfos.eraseIdx index = []) :
    Safely (editEntry sender edit premium userIndex index id loop) (fun out =>
      EntryTouched s sender edit premium userIndex index id loop out.1 out.2) := by
  have hbound : index < loop.user.positionInfos.length := (List.getElem?_eq_some_iff.mp found).1
  rw [editEntry_eq]
  by_cases hremove : edit.redeemable = some false
  · -- a removal, after which the other edits have nothing to do, or are refused
    have hdrops : edit.Drops premium := .inl hremove
    rw [if_pos hremove]
    refine .bind (dropEntry_safely hbound userBound) ?_
    rintro ⟨mid, stop⟩ - (⟨hlast, rfl, husers, hstored, hids⟩ | ⟨hfilled, hmid⟩)
    · exact .pure (.left hdrops hlast husers hstored hids)
    · obtain ⟨rfl, rfl⟩ := Prod.mk.inj hmid
      have hnot : ¬ edit.WritesOn s premium := fun writes => hfilled (steady writes)
      have hlimit : edit.maxLoanRepayment = none := by
        by_contra h
        exact hnot (.inl ⟨hremove, .inl h⟩)
      have hmove : ∀ updated, edit.updatedPremium = some updated → updated = premium := by
        intro updated hupdated
        by_contra h
        exact hnot (.inl ⟨hremove, .inr ⟨updated, hupdated, h⟩⟩)
      refine .ite (fun h => absurd h Bool.false_ne_true) (fun _ => ?_)
      refine .bind_done (setLimit_none hlimit) ?_
      refine .bind_done (moveEntry_stays hmove) ?_
      refine .ite (fun h => absurd h Bool.false_ne_true) (fun _ => ?_)
      refine setRestricted_idle only (fun hunlisted => ?_) (fun hunlisted => ?_)
      · by_contra h
        exact hnot (.inr ⟨hdrops, h, hunlisted⟩)
      refine Safely.mono (storeEntry_safely _ userBound) ?_
      rintro ⟨loop', stop⟩ ⟨rfl, huser, husers, hstored, hids⟩
      refine .dropped hunlisted hdrops hfilled huser ?_ hstored hids
      rw [huser]
      exact husers
  · rw [if_neg hremove]
    refine .bind_done rfl ?_
    refine .ite (fun h => absurd h Bool.false_ne_true) (fun _ => ?_)
    refine .bind (setLimit_safely only fits found named) ?_
    rintro mid - ⟨info', rfl, hnamed, hlimit⟩
    have hfound : (loop.user.positionInfos.set index info')[index]? = some info' :=
      List.getElem?_set_self hbound
    by_cases hmove : ∃ updated, edit.updatedPremium = some updated ∧ updated ≠ premium
    · -- a move, after which no restricted assets are set, or they are refused
      have hdrops : edit.Drops premium := .inr hmove
      have herase : (loop.user.positionInfos.set index info').eraseIdx index =
          loop.user.positionInfos.eraseIdx index := List.eraseIdx_set_eq
      have hmoves : moveEntry edit premium userIndex index
          (loop.withInfos (loop.user.positionInfos.set index info')) =
            dropEntry premium userIndex index
              (loop.withInfos (loop.user.positionInfos.set index info')) := by
        obtain ⟨updated, hupdated, hne⟩ := hmove
        unfold moveEntry
        rw [hupdated]
        exact if_pos hne
      rw [hmoves]
      refine .bind (dropEntry_safely (by simpa [RedemptionEditLoop.withInfos] using hbound)
        userBound) ?_
      rintro ⟨mid, stop⟩ - (⟨hlast, rfl, husers, hstored, hids⟩ | ⟨hfilled, hmid⟩)
      · exact .pure (.left hdrops (herase ▸ hlast) husers hstored hids)
      · obtain ⟨rfl, rfl⟩ := Prod.mk.inj hmid
        have hfilled : loop.user.positionInfos.eraseIdx index ≠ [] := herase ▸ hfilled
        refine .ite (fun h => absurd h Bool.false_ne_true) (fun _ => ?_)
        refine setRestricted_idle only (fun hunlisted => ?_) (fun hunlisted => ?_)
        · by_contra h
          exact hfilled (steady (.inr ⟨hdrops, h, hunlisted⟩))
        refine Safely.mono (storeEntry_safely _ userBound) ?_
        rintro ⟨loop', stop⟩ ⟨rfl, huser, husers, hstored, hids⟩
        refine .dropped hunlisted hdrops hfilled ?_ ?_ hstored hids
        · rw [huser, ← herase]
          rfl
        · rw [huser]
          exact husers
    · have hstays : ¬ edit.Drops premium := by
        rintro (h | h)
        · exact hremove h
        · exact hmove h
      have hupdated : ∀ updated, edit.updatedPremium = some updated → updated = premium := by
        intro updated h
        by_contra hne
        exact hmove ⟨updated, h, hne⟩
      refine .bind_done (moveEntry_stays hupdated) ?_
      refine .ite (fun h => absurd h Bool.false_ne_true) (fun _ => ?_)
      refine .bind (setRestricted_safely (loop.withInfos _) hfound) ?_
      rintro mid - ⟨info, rfl, hsame, hremaining, hlisted, hrestricted⟩
      have hset : (loop.user.positionInfos.set index info').set index info =
          loop.user.positionInfos.set index info := List.set_set _
      refine Safely.mono (storeEntry_safely _ userBound) ?_
      rintro ⟨loop', stop⟩ ⟨rfl, huser, husers, hstored, hids⟩
      have hid : info.positionId = id := hsame.trans hnamed
      have hgranted : Granted s sender edit info := by
        refine ⟨fun max hmax => ?_, hrestricted⟩
        rw [hid, hremaining]
        exact hlimit max hmax
      refine .changed (fun h => hlisted (only.unlisted.mpr h)) hstays info hid hgranted ?_ ?_
        hstored hids
      · rw [huser, ← hset]
        rfl
      · rw [huser]
        exact husers

end

/-! ## The entries of one premium -/

/-- The entries of a list that are not those of the sender's named positions, with their
    owners. -/
def othersOf (sender : Addr) (ids : List Nat) (users : List RedemptionInfo) :
    List (Addr × PositionRedemption) :=
  users.flatMap fun user =>
    (user.positionInfos.filter fun info =>
      !(user.positionOwner == sender && ids.contains info.positionId)).map fun info =>
        (user.positionOwner, info)

/-- What the list of a premium says of one of the sender's positions is what the edit asks
    for: nothing where it drops, and what is granted where it does not. -/
def SettledIn (s : State) (sender : Addr) (edit : RedemptionEdit) (premium : Nat)
    (users : List RedemptionInfo) (id : Nat) : Prop :=
  ∀ user ∈ users, user.positionOwner = sender → ∀ info ∈ user.positionInfos,
    info.positionId = id → ¬ edit.Drops premium ∧ Granted s sender edit info

section

variable {s : State} {sender : Addr} {edit : RedemptionEdit} {premium userIndex index id : Nat}
  {loop loop' : RedemptionEditLoop} {info : PositionRedemption} {named : List Nat}
  {users : List RedemptionInfo} {user user' : RedemptionInfo} {k : Nat}

theorem named_out (owner : user.positionOwner = sender) (mem : info.positionId ∈ named) :
    (!(user.positionOwner == sender && named.contains info.positionId)) = false := by
  simp [owner, mem]

theorem othersOf_set (place : users[k]? = some user) (owner : user.positionOwner = sender)
    (owner' : user'.positionOwner = sender)
    (same : (user'.positionInfos.filter fun info => !named.contains info.positionId) =
      user.positionInfos.filter fun info => !named.contains info.positionId) :
    othersOf sender named (users.set k user') = othersOf sender named users := by
  apply ListEdit.flatMap_set place
  simp only [owner, owner', beq_self_eq_true, Bool.true_and, same]

theorem othersOf_eraseIdx (place : users[k]? = some user) (owner : user.positionOwner = sender)
    (none : (user.positionInfos.filter fun info => !named.contains info.positionId) = []) :
    othersOf sender named (users.eraseIdx k) = othersOf sender named users := by
  refine ListEdit.flatMap_eraseIdx ?_ place
  simp only [owner, beq_self_eq_true, Bool.true_and, none, List.map_nil]

theorem SettledIn.of_record (kept : Kept users) (mem : user ∈ users)
    (owner : user.positionOwner = sender)
    (record : ∀ info ∈ user.positionInfos, info.positionId = id →
      ¬ edit.Drops premium ∧ Granted s sender edit info) :
    SettledIn s sender edit premium users id := by
  intro other hother howner
  obtain rfl : other = user := kept.same hother mem (howner.trans owner.symm)
  exact record

theorem SettledIn.of_absent (absent : (sender, id) ∉ entriesOf users) :
    SettledIn s sender edit premium users id := by
  intro user hmem howner info hinfo hid
  refine absurd (mem_entriesOf.mpr ⟨user, hmem, howner, ?_⟩) absent
  exact hid ▸ List.mem_map_of_mem hinfo

def LastOf (opted ids : List Nat) (id : Nat) : Prop :=
  ∀ other ∈ opted, other = id ∨ List.Sublist [other, id] ids

theorem LastOf.cons {opted ids : List Nat} {first : Nat} (absent : first ∉ opted) :
    LastOf opted (first :: ids) id ↔ LastOf opted ids id := by
  refine forall₂_congr fun other hother => or_congr_right ⟨fun hbefore => ?_, fun hbefore =>
    hbefore.cons first⟩
  rcases List.sublist_cons_iff.mp hbefore with hrest | ⟨_, heq, -⟩
  · exact hrest
  · exact absurd ((List.cons.inj heq).1 ▸ hother) absent

theorem LastOf.dropped {opted opted' ids : List Nat} {first : Nat}
    (gone : ∀ other, other ∈ opted' ↔ other ∈ opted ∧ other ≠ first) (mem : id ∈ ids) :
    LastOf opted (first :: ids) id ↔ LastOf opted' ids id := by
  have hout : first ∉ opted' := fun hfirst => ((gone first).mp hfirst).2 rfl
  rw [← LastOf.cons hout]
  refine ⟨fun hlast other hother => hlast other ((gone other).mp hother).1,
    fun hlast other hother => ?_⟩
  by_cases hfirst : other = first
  · subst hfirst
    exact .inr ((List.singleton_sublist.mpr mem).cons_cons other)
  · exact hlast other ((gone other).mpr ⟨hother, hfirst⟩)

structure EntriesTouched (s : State) (sender : Addr) (edit : RedemptionEdit) (premium : Nat)
    (named ids : List Nat) (loop loop' : RedemptionEditLoop) : Prop where
  others : othersOf sender named loop'.users = othersOf sender named loop.users
  settled : ∀ id, id ∈ ids ∨ SettledIn s sender edit premium loop.users id →
    SettledIn s sender edit premium loop'.users id
  keeps : ¬ edit.Drops premium → entriesOf loop'.users = entriesOf loop.users
  /-- An id that is found is looked for again where the sender left with its entry alone. -/
  left : ∀ id ∈ ids, id ∈ optedIds loop.user → (id ∈ loop'.positionIds ↔
    id ∈ loop.positionIds ∧ edit.Drops premium ∧ LastOf (optedIds loop.user) ids id)
  unlisted : edit.Unlisted s → loop'.positionIds = loop.positionIds
  thinned : ∃ keep : Nat → Bool, loop'.positionIds = loop.positionIds.filter keep

theorem EntryTouched.narrowed
    (touched : EntryTouched s sender edit premium userIndex index id loop loop' false)
    (found : loop.user.positionInfos[index]? = some info) (namedId : info.positionId = id) :
    Narrowed loop.user loop'.user := by
  have hbound : index < loop.user.positionInfos.length := (List.getElem?_eq_some_iff.mp found).1
  cases touched with
  | dropped _ _ filled user =>
    rw [user]
    refine ⟨rfl, (List.eraseIdx_sublist _ _).map _, fun hnil => filled ?_⟩
    exact List.map_eq_nil_iff.mp hnil
  | changed _ _ info' hid _ user =>
    have hids : optedIds loop'.user = optedIds loop.user := by
      rw [user]
      exact ListEdit.map_set_same PositionRedemption.positionId found (hid.trans namedId.symm)
    refine ⟨by rw [user], hids ▸ List.Sublist.refl _, ?_⟩
    rw [hids]
    intro hnil
    have hempty : loop.user.positionInfos = [] := List.map_eq_nil_iff.mp hnil
    rw [hempty] at hbound
    exact Nat.not_lt_zero _ hbound

theorem EntryTouched.users_eq
    (touched : EntryTouched s sender edit premium userIndex index id loop loop' false) :
    loop'.users = loop.users.set userIndex loop'.user := by
  cases touched with
  | dropped _ _ _ _ users => exact users
  | changed _ _ _ _ _ _ users => exact users

theorem EntryTouched.rewritten
    (touched : EntryTouched s sender edit premium userIndex index id loop loop' false)
    (place : loop.users[userIndex]? = some loop.user) (owner : loop.user.positionOwner = sender)
    (kept : Kept loop.users) (found : loop.user.positionInfos[index]? = some info)
    (namedId : info.positionId = id) :
    Kept loop'.users ∧ loop'.users[userIndex]? = some loop'.user ∧
      loop'.user.positionOwner = sender := by
  have hnarrowed := touched.narrowed found namedId
  have hlt : userIndex < loop.users.length := (List.getElem?_eq_some_iff.mp place).1
  rw [touched.users_eq]
  exact ⟨(Thinned.set place hnarrowed).kept kept, List.getElem?_set_self hlt,
    hnarrowed.owner.trans owner⟩

theorem EntryTouched.stored_eq {stop : Bool}
    (touched : EntryTouched s sender edit premium userIndex index id loop loop' stop) :
    loop'.s = { loop.s with
      redemptionOptIn := loop.s.redemptionOptIn.insert premium loop'.users } := by
  cases touched with
  | left _ _ _ stored => exact stored
  | dropped _ _ _ _ _ stored => exact stored
  | changed _ _ _ _ _ _ _ stored => exact stored

theorem RedemptionEdit.WritesOn.drops (writes : edit.WritesOn s premium) : edit.Drops premium := by
  rcases writes with ⟨hremove, -⟩ | ⟨hdrops, -⟩
  · exact .inl hremove
  · exact hdrops

theorem EntryTouched.filled
    (touched : EntryTouched s sender edit premium userIndex index id loop loop' false)
    (drops : edit.Drops premium) : loop.user.positionInfos.eraseIdx index ≠ [] := by
  cases touched with
  | dropped _ _ filled => exact filled
  | changed _ stays => exact absurd drops stays

theorem EntryTouched.listed
    (touched : EntryTouched s sender edit premium userIndex index id loop loop' false) :
    ¬ edit.Unlisted s := by
  cases touched with
  | dropped listed => exact listed
  | changed listed => exact listed

theorem EntryTouched.positionIds_eq
    (touched : EntryTouched s sender edit premium userIndex index id loop loop' false) :
    loop'.positionIds = loop.positionIds.filter fun storedId => storedId ≠ id := by
  cases touched with
  | dropped _ _ _ _ _ _ positionIds => exact positionIds
  | changed _ _ _ _ _ _ _ _ positionIds => exact positionIds

theorem mem_optedIds_eraseIdx (found : loop.user.positionInfos[index]? = some info)
    (namedId : info.positionId = id) (distinct : (optedIds loop.user).Nodup) (other : Nat) :
    other ∈ (loop.user.positionInfos.eraseIdx index).map (·.positionId) ↔
      other ∈ optedIds loop.user ∧ other ≠ id := by
  have hget : (optedIds loop.user)[index]? = some id := by
    rw [optedIds, List.getElem?_map, found]
    exact congrArg some namedId
  obtain ⟨hbound, hat⟩ := List.getElem?_eq_some_iff.mp hget
  rw [← List.eraseIdx_map]
  change other ∈ (optedIds loop.user).eraseIdx index ↔ _
  rw [← distinct.erase_getElem index hbound, hat, distinct.mem_erase_iff]
  exact And.comm

theorem EntryTouched.opted
    (touched : EntryTouched s sender edit premium userIndex index id loop loop' false)
    (drops : edit.Drops premium) (found : loop.user.positionInfos[index]? = some info)
    (namedId : info.positionId = id) (distinct : (optedIds loop.user).Nodup) (other : Nat) :
    other ∈ optedIds loop'.user ↔ other ∈ optedIds loop.user ∧ other ≠ id := by
  cases touched with
  | changed _ stays => exact absurd drops stays
  | dropped _ _ _ user =>
    rw [← mem_optedIds_eraseIdx found namedId distinct other, optedIds, user]

theorem EntryTouched.keepsIds
    (touched : EntryTouched s sender edit premium userIndex index id loop loop' false)
    (stays : ¬ edit.Drops premium) (found : loop.user.positionInfos[index]? = some info)
    (namedId : info.positionId = id) : optedIds loop'.user = optedIds loop.user := by
  cases touched with
  | dropped _ drops => exact absurd drops stays
  | changed _ _ info' hid _ user =>
    rw [user]
    exact ListEdit.map_set_same PositionRedemption.positionId found (hid.trans namedId.symm)

theorem EntryTouched.keeps {stop : Bool}
    (touched : EntryTouched s sender edit premium userIndex index id loop loop' stop)
    (stays : ¬ edit.Drops premium) (place : loop.users[userIndex]? = some loop.user)
    (found : loop.user.positionInfos[index]? = some info) (namedId : info.positionId = id) :
    entriesOf loop'.users = entriesOf loop.users := by
  cases touched with
  | left drops => exact absurd drops stays
  | dropped _ drops => exact absurd drops stays
  | changed listed _ info' hid granted user users stored positionIds =>
    have hchanged : EntryTouched s sender edit premium userIndex index id loop loop' false :=
      .changed listed stays info' hid granted user users stored positionIds
    rw [users]
    apply ListEdit.flatMap_set place
    rw [hchanged.keepsIds stays found namedId, user]

theorem EntryTouched.entries {stop : Bool}
    (touched : EntryTouched s sender edit premium userIndex index id loop loop' stop)
    (place : loop.users[userIndex]? = some loop.user) (owner : loop.user.positionOwner = sender)
    (kept : Kept loop.users) (found : loop.user.positionInfos[index]? = some info)
    (namedId : info.positionId = id) (mem : id ∈ named) :
    othersOf sender named loop'.users = othersOf sender named loop.users ∧
      ∀ other, other = id ∨ SettledIn s sender edit premium loop.users other →
        SettledIn s sender edit premium loop'.users other := by
  have hmem : loop.user ∈ loop.users := List.mem_of_getElem? place
  have hout : (!named.contains info.positionId) = false := by simp [namedId, mem]
  cases touched with
  | left drops last users =>
    constructor
    · rw [users]
      apply othersOf_eraseIdx place owner
      rw [← ListEdit.filter_eraseIdx found hout, last]
      rfl
    · intro other _
      rw [users]
      exact .of_absent (owner ▸ not_mem_entriesOf_eraseIdx kept place other)
  | dropped listed drops filled user users stored positionIds =>
    have hdropped : EntryTouched s sender edit premium userIndex index id loop loop' false :=
      .dropped listed drops filled user users stored positionIds
    obtain ⟨hkept, hplace, howner'⟩ := hdropped.rewritten place owner kept found namedId
    have hmem' : loop'.user ∈ loop'.users := List.mem_of_getElem? hplace
    constructor
    · rw [users]
      apply othersOf_set place owner howner'
      rw [user]
      exact ListEdit.filter_eraseIdx found hout
    · intro other hother
      apply SettledIn.of_record hkept hmem' howner'
      intro entry hentry hid
      rw [user] at hentry
      rcases hother with rfl | hsettled
      · -- the ids of a record are distinct, so no other entry has this one
        have hids : (optedIds loop.user)[index]? = some other := by
          rw [optedIds, List.getElem?_map, found]
          exact congrArg some namedId
        have hgone := ListEdit.not_mem_eraseIdx (kept.ids _ hmem) hids
        rw [optedIds, List.eraseIdx_map] at hgone
        exact absurd (hid ▸ List.mem_map_of_mem hentry) hgone
      · exact hsettled _ hmem owner entry (List.mem_of_mem_eraseIdx hentry) hid
  | changed listed stays info' hid' granted user users stored positionIds =>
    have hchanged : EntryTouched s sender edit premium userIndex index id loop loop' false :=
      .changed listed stays info' hid' granted user users stored positionIds
    obtain ⟨hkept, hplace, howner'⟩ := hchanged.rewritten place owner kept found namedId
    have hmem' : loop'.user ∈ loop'.users := List.mem_of_getElem? hplace
    have hout' : (!named.contains info'.positionId) = false := by simp [hid', mem]
    constructor
    · rw [users]
      apply othersOf_set place owner howner'
      rw [user]
      exact ListEdit.filter_set found hout hout'
    · intro other hother
      apply SettledIn.of_record hkept hmem' howner'
      intro entry hentry hid
      have hbound : index < loop.user.positionInfos.length :=
        (List.getElem?_eq_some_iff.mp found).1
      have hinfo' : info' ∈ loop'.user.positionInfos := by
        rw [user]
        exact List.mem_set hbound _
      rcases hother with rfl | hsettled
      · obtain rfl : entry = info' :=
          List.inj_on_of_nodup_map (hkept.ids _ hmem') hentry hinfo' (hid.trans hid'.symm)
        exact ⟨stays, granted⟩
      · rw [user] at hentry
        rcases List.mem_or_eq_of_mem_set hentry with hold | rfl
        · exact hsettled _ hmem owner entry hold hid
        · exact ⟨stays, granted⟩

theorem editEntries_safely : ∀ {ids : List Nat} {loop : RedemptionEditLoop},
    OnlyOptIn s loop.s → loop.users[userIndex]? = some loop.user →
    loop.user.positionOwner = sender → Kept loop.users →
    (∀ id ∈ ids, id ∈ named ∧ LimitFits s sender edit id) → ids.Nodup →
    (edit.WritesOn s premium → (∃ id ∈ ids, id ∈ optedIds loop.user) →
      loop.user.positionInfos.length = 1) →
    Safely (editEntries sender edit premium userIndex ids loop)
      (EntriesTouched s sender edit premium named ids loop) := by
  intro ids
  induction ids with
  | nil =>
    intro loop _ _ _ _ _ _ _
    refine .pure ⟨rfl, fun id hid => ?_, fun _ => rfl, fun _ hid => (List.not_mem_nil hid).elim,
      fun _ => rfl, ⟨fun _ => true, (List.filter_true _).symm⟩⟩
    rcases hid with hid | hsettled
    · cases hid
    · exact hsettled
  | cons id rest ih =>
    intro loop only place owner kept all distinct steady
    obtain ⟨hnamed, hfits⟩ := all id List.mem_cons_self
    obtain ⟨hnew, hdistinct⟩ := List.nodup_cons.mp distinct
    have hrestAll : ∀ id ∈ rest, id ∈ named ∧ LimitFits s sender edit id :=
      fun other hother => all other (List.mem_cons_of_mem id hother)
    have hlt : userIndex < loop.users.length := (List.getElem?_eq_some_iff.mp place).1
    unfold editEntries
    cases hfound : loop.user.positionInfos.findIdx? fun info => info.positionId == id with
    | none =>
      -- the sender has not opted this position in here
      have hnot : id ∉ optedIds loop.user := by
        intro hopted
        obtain ⟨info, hinfo, hid⟩ := List.mem_map.mp hopted
        have hfalse := List.findIdx?_eq_none_iff.mp hfound info hinfo
        simp [hid] at hfalse
      have habsent : SettledIn s sender edit premium loop.users id :=
        .of_record kept (List.mem_of_getElem? place) owner fun info hinfo hid =>
          absurd (List.mem_map.mpr ⟨info, hinfo, hid⟩) hnot
      have hrestSteady : edit.WritesOn s premium → (∃ id ∈ rest, id ∈ optedIds loop.user) →
          loop.user.positionInfos.length = 1 := by
        rintro writes ⟨other, hother, hopted⟩
        exact steady writes ⟨other, List.mem_cons_of_mem id hother, hopted⟩
      refine (ih only place owner kept hrestAll hdistinct hrestSteady).mono ?_
      intro loop' touched
      refine ⟨touched.others, fun other hother => touched.settled other ?_, touched.keeps,
        fun other hother hopted => ?_, touched.unlisted, touched.thinned⟩
      · rcases hother with hother | hsettled
        · rcases List.mem_cons.mp hother with rfl | hmem
          · exact .inr habsent
          · exact .inl hmem
        · exact .inr hsettled
      · have hne : other ≠ id := fun heq => hnot (heq ▸ hopted)
        rw [LastOf.cons hnot]
        exact touched.left other ((List.mem_cons.mp hother).resolve_left hne) hopted
    | some index =>
      obtain ⟨info, hinfo, hid⟩ := ListEdit.findIdx?_getElem? hfound
      have hid : info.positionId = id := by simpa using hid
      have hbound : index < loop.user.positionInfos.length :=
        (List.getElem?_eq_some_iff.mp hinfo).1
      have hopted : id ∈ optedIds loop.user :=
        hid ▸ List.mem_map_of_mem (List.mem_of_getElem? hinfo)
      have hlast : loop.user.positionInfos.length = 1 →
          loop.user.positionInfos.eraseIdx index = [] := by
        intro hone
        apply List.eq_nil_of_length_eq_zero
        rw [List.length_eraseIdx_of_lt hbound, hone]
      have hsteady : edit.WritesOn s premium → loop.user.positionInfos.eraseIdx index = [] :=
        fun writes => hlast (steady writes ⟨id, List.mem_cons_self, hopted⟩)
      refine .bind (editEntry_safely only hfits hinfo hid hlt hsteady) ?_
      rintro ⟨mid, stop⟩ _ (htouched : EntryTouched _ _ _ _ _ _ _ _ _ _)
      obtain ⟨hothers, hsettled⟩ := htouched.entries place owner kept hinfo hid hnamed
      have hids : (optedIds loop.user).Nodup := kept.ids _ (List.mem_of_getElem? place)
      cases stop with
      | true =>
        have hpositionIds : mid.positionIds = loop.positionIds := by
          cases htouched with
          | left _ _ _ _ positionIds => exact positionIds
        refine .ite (fun _ => .pure ⟨hothers, fun other _ => ?_,
          fun stays => htouched.keeps stays place hinfo hid,
          fun other _ hother => ?_, fun _ => hpositionIds,
          ⟨fun _ => true, hpositionIds.trans (List.filter_true _).symm⟩⟩) (fun h => absurd rfl h)
        · cases htouched with
          | left _ _ users =>
            dsimp only at users
            rw [users]
            exact .of_absent (owner ▸ not_mem_entriesOf_eraseIdx kept place other)
        · cases htouched with
          | left drops last =>
            have hone : ∀ third ∈ optedIds loop.user, third = id := by
              intro third hthird
              by_contra hne
              have hmem := (mem_optedIds_eraseIdx hinfo hid hids third).mpr ⟨hthird, hne⟩
              rw [last] at hmem
              exact List.not_mem_nil hmem
            rw [hpositionIds]
            exact ⟨fun hleft => ⟨hleft, drops, fun third hthird =>
              .inl ((hone third hthird).trans (hone other hother).symm)⟩, fun hleft => hleft.1⟩
      | false =>
        refine .ite (fun h => absurd h Bool.false_ne_true) (fun _ => ?_)
        have hnarrowed := htouched.narrowed hinfo hid
        obtain ⟨hkept, hplace, howner⟩ := htouched.rewritten place owner kept hinfo hid
        have honly : OnlyOptIn s mid.s := htouched.stored_eq ▸ only.insert _ _
        have hrestSteady : edit.WritesOn s premium → (∃ id ∈ rest, id ∈ optedIds mid.user) →
            mid.user.positionInfos.length = 1 :=
          fun writes _ => absurd (hsteady writes) (htouched.filled writes.drops)
        refine (ih honly hplace howner hkept hrestAll hdistinct hrestSteady).mono ?_
        intro loop' touched
        refine ⟨touched.others.trans hothers, fun other hother => ?_, fun stays =>
          (touched.keeps stays).trans (htouched.keeps stays place hinfo hid),
          fun other hother hopted' => ?_, fun unlisted => absurd unlisted htouched.listed, ?_⟩
        · apply touched.settled
          rcases hother with hother | hbefore
          · rcases List.mem_cons.mp hother with rfl | hmem
            · exact .inr (hsettled other (.inl rfl))
            · exact .inl hmem
          · exact .inr (hsettled other (.inr hbefore))
        · have hgone := fun drops => htouched.opted drops hinfo hid hids
          have hleft : other ∈ mid.positionIds ↔ other ∈ loop.positionIds ∧ other ≠ id := by
            rw [htouched.positionIds_eq, List.mem_filter, decide_eq_true_iff]
          by_cases heq : other = id
          · -- a record of this entry alone would have left the premium
            subst heq
            have hout : other ∉ loop'.positionIds := by
              obtain ⟨keep, hkeep⟩ := touched.thinned
              rw [hkeep]
              exact fun hmem => (hleft.mp (List.mem_of_mem_filter hmem)).2 rfl
            refine ⟨fun hmem => absurd hmem hout, ?_⟩
            rintro ⟨-, drops, hlast'⟩
            refine absurd (List.eq_nil_iff_forall_not_mem.mpr fun third hthird => ?_)
              hnarrowed.filled
            obtain ⟨hthird, hne⟩ := (hgone drops third).mp hthird
            rcases List.sublist_cons_iff.mp ((hlast' third hthird).resolve_left hne) with
              hrest | ⟨_, hcons, -⟩
            · exact hnew (hrest.subset (List.mem_cons_of_mem _ List.mem_cons_self))
            · exact hne (List.cons.inj hcons).1
          · have hother := (List.mem_cons.mp hother).resolve_left heq
            have hkeeps : other ∈ optedIds mid.user := by
              by_cases drops : edit.Drops premium
              · exact (hgone drops other).mpr ⟨hopted', heq⟩
              · exact (htouched.keepsIds drops hinfo hid).symm ▸ hopted'
            rw [touched.left other hother hkeeps, hleft]
            constructor
            · rintro ⟨⟨hmem, -⟩, drops, hlast'⟩
              exact ⟨hmem, drops, (LastOf.dropped (hgone drops) hother).mpr hlast'⟩
            · rintro ⟨hmem, drops, hlast'⟩
              exact ⟨⟨hmem, heq⟩, drops, (LastOf.dropped (hgone drops) hother).mp hlast'⟩
        · obtain ⟨keep, hkeep⟩ := touched.thinned
          exact ⟨_, by rw [hkeep, htouched.positionIds_eq, List.filter_filter]⟩

/-! ## The premiums in turn -/

theorem SettledIn.absent (settled : SettledIn s sender edit premium users id)
    (drops : edit.Drops premium) : (sender, id) ∉ entriesOf users := by
  intro hentry
  obtain ⟨user, huser, howner, hid⟩ := mem_entriesOf.mp hentry
  obtain ⟨info, hinfo, hid⟩ := List.mem_map.mp hid
  exact (settled user huser howner info hinfo hid).1 drops

/-- The sender's entries at a premium are of the position itself and of positions that stand
    before it in the list. -/
def LastAt (s : State) (sender : Addr) (ids : List Nat) (premium id : Nat) : Prop :=
  ∀ other, (sender, other) ∈ entriesOf (usersAt s premium) →
    other = id ∨ List.Sublist [other, id] ids

theorem SettledIn.of_others {users' : List RedemptionInfo}
    (others : othersOf sender named users' = othersOf sender named users) (unnamed : id ∉ named)
    (settled : SettledIn s sender edit premium users' id) :
    SettledIn s sender edit premium users id := by
  intro user huser howner info hinfo hid
  have hmem : (user.positionOwner, info) ∈ othersOf sender named users := by
    refine List.mem_flatMap.mpr ⟨user, huser, List.mem_map.mpr ⟨info, ?_, rfl⟩⟩
    exact List.mem_filter.mpr ⟨hinfo, by simp [hid, unnamed]⟩
  rw [← others] at hmem
  obtain ⟨user', huser', hmem⟩ := List.mem_flatMap.mp hmem
  obtain ⟨info', hinfo', heq⟩ := List.mem_map.mp hmem
  obtain ⟨howner', rfl⟩ := Prod.mk.inj heq
  exact settled user' huser' (howner'.trans howner) info' (List.mem_of_mem_filter hinfo') hid

structure PremiumTouched (s : State) (sender : Addr) (edit : RedemptionEdit) (premium : Nat)
    (named : List Nat) (acc acc' : State × List Nat) : Prop where
  others : othersOf sender named (usersAt acc'.1 premium) =
    othersOf sender named (usersAt acc.1 premium)
  settled : ∀ id, id ∈ acc.2 ∨ SettledIn s sender edit premium (usersAt acc.1 premium) id →
    SettledIn s sender edit premium (usersAt acc'.1 premium) id
  keeps : ¬ edit.Drops premium →
    entriesOf (usersAt acc'.1 premium) = entriesOf (usersAt acc.1 premium)
  left : ∀ id ∈ acc.2, (sender, id) ∈ entriesOf (usersAt acc.1 premium) →
    (id ∈ acc'.2 ↔ edit.Drops premium ∧ LastAt acc.1 sender acc.2 premium id)
  unlisted : edit.Unlisted s → acc'.2 = acc.2
  thinned : ∃ keep : Nat → Bool, acc'.2 = acc.2.filter keep

def Alone (s : State) (sender : Addr) (premium : Nat) : Prop :=
  ∀ user ∈ usersAt s premium, user.positionOwner = sender → user.positionInfos.length = 1

/-- Where the edit would write on after taking an entry out at a premium, the sender has no
    other entry there. -/
def SteadyAt (s : State) (sender : Addr) (edit : RedemptionEdit) (ids : List Nat) (premium : Nat) :
    Prop :=
  edit.WritesOn s premium → (∃ id ∈ ids, (sender, id) ∈ entriesOf (usersAt s premium)) →
    Alone s sender premium

theorem editPremium_safely {acc : State × List Nat} (only : OnlyOptIn s acc.1)
    (kept : Kept (usersAt acc.1 premium)) (distinct : acc.2.Nodup)
    (all : ∀ id ∈ acc.2, id ∈ named ∧ LimitFits s sender edit id)
    (steady : SteadyAt acc.1 sender edit acc.2 premium) :
    Safely (editPremium sender edit acc premium)
      (PremiumTouched s sender edit premium named acc) := by
  have hidle : (∀ id ∈ acc.2, (sender, id) ∉ entriesOf (usersAt acc.1 premium)) →
      PremiumTouched s sender edit premium named acc acc := by
    intro habsent
    refine ⟨rfl, fun id hid => ?_, fun _ => rfl, fun id hid hentry =>
      absurd hentry (habsent id hid), fun _ => rfl,
      ⟨fun _ => true, (List.filter_true _).symm⟩⟩
    rcases hid with hid | hsettled
    · exact .of_absent (habsent id hid)
    · exact hsettled
  unfold editPremium
  refine .ite (fun hempty => .pure (hidle fun id mem hentry => ?_)) (fun _ => ?_)
  · rcases Bool.or_eq_true_iff.mp hempty with hids | husers
    · rw [List.isEmpty_iff.mp hids] at mem
      cases mem
    · have hnil : usersAt acc.1 premium = [] := List.isEmpty_iff.mp husers
      rw [hnil] at hentry
      cases hentry
  · cases hfound : findRedemptionUser ((acc.1.redemptionOptIn.lookup premium).getD []) sender with
    | none =>
      refine .pure (hidle fun id mem hentry => ?_)
      obtain ⟨user, huser, howner, -⟩ := mem_entriesOf.mp hentry
      exact findRedemptionUser_none hfound user huser howner
    | some found =>
      obtain ⟨userIndex, user⟩ := found
      obtain ⟨hplace, howner⟩ := findRedemptionUser_some hfound
      have hmem : user ∈ usersAt acc.1 premium := List.mem_of_getElem? hplace
      have hloop : Safely (editEntries sender edit premium userIndex acc.2
          ⟨acc.1, usersAt acc.1 premium, user, acc.2⟩)
          (EntriesTouched s sender edit premium named acc.2
            ⟨acc.1, usersAt acc.1 premium, user, acc.2⟩) := by
        refine editEntries_safely only hplace howner kept all distinct ?_
        rintro writes ⟨id, hid, hopted⟩
        exact steady (only.writesOn.mpr writes) ⟨id, hid,
          mem_entriesOf.mpr ⟨user, hmem, howner, hopted⟩⟩ user hmem
          howner
      refine .bind hloop ?_
      intro loop done touched
      have hstored : usersAt loop.s premium = loop.users :=
        (editEntries_spec hplace rfl kept.filled done).stored.here
      have hhere : ∀ id, (sender, id) ∈ entriesOf (usersAt acc.1 premium) ↔ id ∈ optedIds user := by
        intro id
        refine ⟨fun hentry => ?_, fun hopted => mem_entriesOf.mpr ⟨user, hmem, howner, hopted⟩⟩
        obtain ⟨other, hother, howner', hopted⟩ := mem_entriesOf.mp hentry
        exact kept.same hother hmem (howner'.trans howner.symm) ▸ hopted
      refine .pure ⟨?_, ?_, ?_, fun id hid hentry => ?_, touched.unlisted, touched.thinned⟩
      · rw [hstored]
        exact touched.others
      · rw [hstored]
        exact touched.settled
      · rw [hstored]
        exact touched.keeps
      · have hlast : LastAt acc.1 sender acc.2 premium id ↔ LastOf (optedIds user) acc.2 id :=
          forall_congr' fun other => imp_congr_left (hhere other)
        rw [touched.left id hid ((hhere id).mp hentry), hlast]
        exact and_iff_right hid

/-- What the edit loop starts from, where it writes nowhere else. -/
structure Editable (s mid : State) (sender : Addr) (edit : RedemptionEdit) (named ids : List Nat) :
    Prop where
  only : OnlyOptIn s mid
  kept : ∀ premium, Kept (usersAt mid premium)
  fits : ∀ id ∈ ids, id ∈ named ∧ LimitFits s sender edit id
  distinct : ids.Nodup
  steady : ∀ premium, SteadyAt mid sender edit ids premium

/-- What the edit loop starts from where it settles every named position. Each is looked for,
    or nothing is left to settle; and one that is opted in at two premiums is settled at the
    later, or the sender leaves the first with it, where no entry is refused. -/
structure Settling (s mid : State) (sender : Addr) (edit : RedemptionEdit) (named ids : List Nat) :
    Prop extends Editable s mid sender edit named ids where
  pending : ∀ id ∈ named, id ∈ ids ∨
    ∀ premium, SettledIn s sender edit premium (usersAt mid premium) id
  later : ¬ edit.Unlisted s → ∀ id ∈ ids, ∀ premium later, premium < later →
    (sender, id) ∈ entriesOf (usersAt mid premium) →
      SettledIn s sender edit later (usersAt mid later) id ∨
        edit.Drops premium ∧ LastAt mid sender ids premium id

theorem Editable.steadyAt {mid : State} {ids : List Nat} {next : Nat} {acc : State × List Nat}
    (editable : Editable s mid sender edit named ids) (only : OnlyOptIn s acc.1)
    (edited : PremiumsEdited sender edit ids mid next acc) :
    SteadyAt acc.1 sender edit acc.2 next := by
  rintro writes ⟨id, hid, hentry⟩
  unfold Alone
  rw [edited.ahead next (Nat.le_refl _)] at hentry ⊢
  have hwrites : edit.WritesOn mid next := editable.only.writesOn.mpr (only.writesOn.mp writes)
  exact editable.steady next hwrites ⟨id, edited.left id hid, hentry⟩

structure PremiumsTouched (s mid : State) (sender : Addr) (edit : RedemptionEdit)
    (named ids : List Nat) (next : Nat) (acc : State × List Nat) : Prop where
  only : OnlyOptIn s acc.1
  others : ∀ premium, othersOf sender named (usersAt acc.1 premium) =
    othersOf sender named (usersAt mid premium)
  behind : ∀ premium < next, ∀ id ∈ named,
    SettledIn s sender edit premium (usersAt acc.1 premium) id
  pending : ∀ id ∈ named, id ∈ acc.2 ∨
    ∀ premium, next ≤ premium → SettledIn s sender edit premium (usersAt mid premium) id
  thinned : ∃ keep : Nat → Bool, acc.2 = ids.filter keep
  keeps : ∀ premium, ¬ edit.Drops premium →
    entriesOf (usersAt acc.1 premium) = entriesOf (usersAt mid premium)

theorem PremiumsTouched.next {mid : State} {ids : List Nat} {next : Nat}
    {acc acc' : State × List Nat}
    (editable : Settling s mid sender edit named ids)
    (before : PremiumsTouched s mid sender edit named ids next acc)
    (edited : PremiumsEdited sender edit ids mid next acc) (only : OnlyOptIn s acc'.1)
    (step : PremiumEdited sender edit next acc acc')
    (touched : PremiumTouched s sender edit next named acc acc') :
    PremiumsTouched s mid sender edit named ids (next + 1) acc' := by
  have hhere := edited.ahead next (Nat.le_refl _)
  obtain ⟨keep, hkeep⟩ := before.thinned
  refine ⟨only, fun premium => ?_, fun premium hlt id hid => ?_, fun id hid => ?_, ?_,
    fun premium stays => ?_⟩
  · by_cases same : premium = next
    · subst same
      exact touched.others.trans (before.others premium)
    · rw [step.others premium same]
      exact before.others premium
  · by_cases same : premium = next
    · subst same
      apply touched.settled
      rcases before.pending id hid with hleft | hsettled
      · exact .inl hleft
      · right
        rw [hhere]
        exact hsettled premium (Nat.le_refl _)
    · rw [step.others premium same]
      exact before.behind premium (by omega) id hid
  · by_cases hleft' : id ∈ acc'.2
    · exact .inl hleft'
    · right
      intro premium hle
      rcases before.pending id hid with hleft | hsettled
      · -- the id was found at this premium and is no longer looked for
        have hfound := step.found id hleft hleft'
        rw [hhere] at hfound
        have hids := edited.left id hleft
        have hlisted : ¬ edit.Unlisted s := fun unlisted =>
          hleft' (touched.unlisted unlisted ▸ hleft)
        rcases editable.later hlisted id hids next premium (by omega) hfound with
          hsettled | ⟨hdrops, hlast⟩
        · exact hsettled
        · -- what stands before it here is still looked for, so the sender leaves with it
          refine absurd ((touched.left id hleft (hhere ▸ hfound)).mpr
            ⟨hdrops, fun other hother => ?_⟩) hleft'
          rw [hhere] at hother
          refine (hlast other hother).imp_right fun hbefore => ?_
          have hother' : other ∈ ids := hbefore.subset List.mem_cons_self
          have hleftOther : other ∈ acc.2 :=
            (before.pending other (editable.fits other hother').1).resolve_right fun hsettled =>
              (hsettled next (Nat.le_refl _)).absent hdrops hother
          rw [hkeep] at hleft hleftOther ⊢
          have hsub := hbefore.filter keep
          rw [List.filter_cons_of_pos (List.mem_filter.mp hleftOther).2,
            List.filter_cons_of_pos (List.mem_filter.mp hleft).2, List.filter_nil] at hsub
          exact hsub
      · exact hsettled premium (by omega)
  · obtain ⟨keep', hkeep'⟩ := touched.thinned
    exact ⟨_, by rw [hkeep', hkeep, List.filter_filter]⟩
  · by_cases same : premium = next
    · subst same
      exact (touched.keeps stays).trans (before.keeps premium stays)
    · rw [step.others premium same]
      exact before.keeps premium stays

theorem editPremiums_safely {mid : State} {ids : List Nat}
    (editable : Settling s mid sender edit named ids) : ∀ next : Nat,
    Safely ((List.range next).foldlM (editPremium sender edit) (mid, ids))
      (PremiumsTouched s mid sender edit named ids next) := by
  intro next
  induction next with
  | zero =>
    refine .pure ⟨editable.only, fun _ => rfl, fun _ hlt => absurd hlt (Nat.not_lt_zero _),
      fun id hid => ?_, ⟨fun _ => true, (List.filter_true _).symm⟩, fun _ _ => rfl⟩
    exact (editable.pending id hid).imp_right fun settled premium _ => settled premium
  | succ next ih =>
    rw [List.range_succ, List.foldlM_append]
    refine .bind ih ?_
    intro acc done before
    have edited := editPremiums_spec editable.kept done
    have hhere := edited.ahead next (Nat.le_refl _)
    have hkept : Kept (usersAt acc.1 next) := (edited.thinned next).kept (editable.kept next)
    have hfits : ∀ id ∈ acc.2, id ∈ named ∧ LimitFits s sender edit id :=
      fun id hid => editable.fits id (edited.left id hid)
    have hsteady := editable.steadyAt before.only edited
    obtain ⟨keep, hkeep⟩ := before.thinned
    have hdistinct : acc.2.Nodup := hkeep ▸ editable.distinct.filter keep
    refine .bind (editPremium_safely before.only hkept hdistinct hfits hsteady) ?_
    intro acc' hstep touched
    have honly := before.only.trans (editPremium_onlyOptIn hstep)
    exact .pure (before.next editable edited honly (editPremium_spec hkept hstep) touched)

/-- What the edit loop leaves of a position that it found below a premium and no longer looks
    for. -/
structure PremiumsLeft (s mid : State) (sender : Addr) (edit : RedemptionEdit) (ids : List Nat)
    (next : Nat) (acc : State × List Nat) : Prop where
  only : OnlyOptIn s acc.1
  thinned : ∃ keep : Nat → Bool, acc.2 = ids.filter keep
  gone : ∀ id ∈ ids, ∀ premium < next, (sender, id) ∈ entriesOf (usersAt mid premium) →
    ¬ (edit.Drops premium ∧ LastAt mid sender ids premium id) → id ∉ acc.2
  stays : ∀ id ∈ ids, ∀ premium later, premium < later → later < next →
    (sender, id) ∈ entriesOf (usersAt mid premium) →
    ¬ (edit.Drops premium ∧ LastAt mid sender ids premium id) →
    SettledIn s sender edit later (usersAt acc.1 later) id →
      SettledIn s sender edit later (usersAt mid later) id

theorem PremiumsLeft.next {mid : State} {ids : List Nat} {next : Nat} {acc acc' : State × List Nat}
    (before : PremiumsLeft s mid sender edit ids next acc)
    (edited : PremiumsEdited sender edit ids mid next acc) (only : OnlyOptIn s acc'.1)
    (step : PremiumEdited sender edit next acc acc')
    (touched : PremiumTouched s sender edit next acc.2 acc acc') :
    PremiumsLeft s mid sender edit ids (next + 1) acc' := by
  obtain ⟨keep, hkeep⟩ := before.thinned
  have hhere := edited.ahead next (Nat.le_refl _)
  refine ⟨only, ?_, fun id hid premium hlt hentry hnot hleft' => ?_,
    fun id hid premium later hbelow hlt hentry hnot settled => ?_⟩
  · obtain ⟨keep', hkeep'⟩ := touched.thinned
    exact ⟨_, by rw [hkeep', hkeep, List.filter_filter]⟩
  · have hleft := step.left id hleft'
    by_cases same : premium = next
    · subst same
      obtain ⟨hdrops, hlast⟩ := (touched.left id hleft (hhere ▸ hentry)).mp hleft'
      refine hnot ⟨hdrops, fun other hother => ?_⟩
      rw [← hhere] at hother
      refine (hlast other hother).imp_right fun hbefore => ?_
      rw [hkeep] at hbefore
      exact hbefore.trans List.filter_sublist
    · exact before.gone id hid premium (by omega) hentry hnot hleft
  · by_cases same : later = next
    · -- the position is not among those that are edited here
      subst same
      rw [← hhere]
      exact .of_others touched.others (before.gone id hid premium hbelow hentry hnot) settled
    · rw [step.others later same] at settled
      exact before.stays id hid premium later hbelow (by omega) hentry hnot settled

theorem editPremiums_left {mid : State} {ids : List Nat}
    (editable : Editable s mid sender edit named ids) : ∀ {next : Nat} {acc : State × List Nat},
    (List.range next).foldlM (editPremium sender edit) (mid, ids) = .ok acc →
      PremiumsLeft s mid sender edit ids next acc := by
  intro next
  induction next with
  | zero =>
    intro acc done
    obtain rfl := pure_eq_ok.mp done
    exact ⟨editable.only, ⟨fun _ => true, (List.filter_true _).symm⟩,
      fun _ _ _ hlt => absurd hlt (Nat.not_lt_zero _),
      fun _ _ _ _ _ hlt => absurd hlt (Nat.not_lt_zero _)⟩
  | succ next ih =>
    intro acc' done
    rw [List.range_succ, List.foldlM_append] at done
    simp only [bind_eq_ok, List.foldlM_cons, List.foldlM_nil, pure_eq_ok] at done
    obtain ⟨acc, done, _, hstep, rfl⟩ := done
    have before := ih done
    have edited := editPremiums_spec editable.kept done
    have hhere := edited.ahead next (Nat.le_refl _)
    have hkept : Kept (usersAt acc.1 next) := (edited.thinned next).kept (editable.kept next)
    obtain ⟨keep, hkeep⟩ := before.thinned
    have hfits : ∀ id ∈ acc.2, id ∈ acc.2 ∧ LimitFits s sender edit id :=
      fun id hid => ⟨hid, (editable.fits id (edited.left id hid)).2⟩
    have hsteady := editable.steadyAt before.only edited
    have htouched := editPremium_safely before.only hkept (hkeep ▸ editable.distinct.filter keep)
      hfits hsteady
    exact before.next edited (before.only.trans (editPremium_onlyOptIn hstep))
      (editPremium_spec hkept hstep) (htouched.returns _ hstep)

/-! ## The additions -/

theorem newPositionRedemption_safely (fits : LimitFits s sender edit id) :
    Safely (newPositionRedemption s sender edit id)
      (fun info => info.positionId = id ∧ Granted s sender edit info) := by
  unfold newPositionRedemption
  refine .bind ownedPosition_safely ?_
  intro position _ howned
  have hpart : edit.maxLoanRepayment.getD Decimal.one ≤ Decimal.one := by
    cases h : edit.maxLoanRepayment with
    | none => exact Nat.le_refl _
    | some max => exact fits.part max h
  refine .bind (fits.mulUint hpart howned) ?_
  rintro remaining - rfl
  refine .pure ⟨rfl, fun max hmax => ⟨position, howned, ?_⟩, fun assets hassets => ?_⟩
  · rw [hmax]
    rfl
  · rw [hassets]
    rfl

structure RecordGrown (s : State) (sender : Addr) (edit : RedemptionEdit) (named ids : List Nat)
    (user user' : RedemptionInfo) : Prop where
  owner : user'.positionOwner = user.positionOwner
  others : (user'.positionInfos.filter fun info => !named.contains info.positionId) =
    user.positionInfos.filter fun info => !named.contains info.positionId
  entries : ∀ info ∈ user'.positionInfos, info ∈ user.positionInfos ∨ Granted s sender edit info
  kept : ∀ info ∈ user.positionInfos, info ∈ user'.positionInfos
  opted : ∀ id, id ∈ ids ∨ id ∈ optedIds user → id ∈ optedIds user'

theorem addPositions_safely : ∀ {ids : List Nat} {user : RedemptionInfo},
    (∀ id ∈ ids, id ∈ named ∧ LimitFits s sender edit id) →
    Safely (ids.foldlM (addPosition s sender edit) user)
      (RecordGrown s sender edit named ids user) := by
  intro ids
  induction ids with
  | nil =>
    intro user _
    refine .pure ⟨rfl, rfl, fun _ mem => .inl mem, fun _ mem => mem, fun id hid => ?_⟩
    rcases hid with hid | hid
    · cases hid
    · exact hid
  | cons id rest ih =>
    intro user all
    obtain ⟨hnamed, hfits⟩ := all id List.mem_cons_self
    have hrest : ∀ id ∈ rest, id ∈ named ∧ LimitFits s sender edit id :=
      fun other hother => all other (List.mem_cons_of_mem id hother)
    have hstep : Safely (addPosition s sender edit user id)
        (RecordGrown s sender edit named [id] user) := by
      unfold addPosition
      refine .ite (fun hthere => ?_) (fun _ => ?_)
      · refine .pure ⟨rfl, rfl, fun _ mem => .inl mem, fun _ mem => mem, fun other hother => ?_⟩
        rcases hother with hother | hother
        · obtain rfl := List.mem_singleton.mp hother
          obtain ⟨info, hinfo, hid⟩ := List.any_eq_true.mp hthere
          have hid : info.positionId = other := by simpa using hid
          exact hid ▸ List.mem_map_of_mem hinfo
        · exact hother
      · refine .bind (newPositionRedemption_safely hfits) ?_
        rintro info - ⟨hid, hgranted⟩
        refine .pure ⟨rfl, ?_, fun entry hentry => ?_, fun _ mem => List.mem_append_left _ mem,
          fun other hother => ?_⟩
        · have hout : (!named.contains info.positionId) = false := by simp [hid, hnamed]
          rw [List.filter_append, List.filter_cons_of_neg (by rw [hout]; exact Bool.false_ne_true),
            List.filter_nil, List.append_nil]
        · rcases List.mem_append.mp hentry with hold | hnew
          · exact .inl hold
          · exact .inr (List.mem_singleton.mp hnew ▸ hgranted)
        · have hids : optedIds { user with positionInfos := user.positionInfos ++ [info] } =
              optedIds user ++ [id] := by
            simp only [optedIds, List.map_append, List.map_cons, List.map_nil, hid]
          rw [hids]
          rcases hother with hother | hother
          · exact List.mem_append_right _ hother
          · exact List.mem_append_left _ hother
    rw [List.foldlM_cons]
    refine .bind hstep ?_
    intro mid _ grown
    refine (ih hrest).mono ?_
    intro user' last
    refine ⟨last.owner.trans grown.owner, last.others.trans grown.others, fun info hinfo => ?_,
      fun info hinfo => last.kept info (grown.kept info hinfo),
      fun other hother => last.opted other ?_⟩
    · rcases last.entries info hinfo with hmid | hgranted
      · exact grown.entries info hmid
      · exact .inr hgranted
    · rcases hother with hother | hother
      · rcases List.mem_cons.mp hother with rfl | hmem
        · exact .inr (grown.opted other (.inl (List.mem_singleton_self _)))
        · exact .inl hmem
      · exact .inr (grown.opted other (.inr hother))

theorem createRedemptionInfo_safely {ids : List Nat}
    (all : ∀ id ∈ ids, LimitFits s sender edit id) :
    Safely (createRedemptionInfo s sender edit ids) (fun user => user.positionOwner = sender ∧
      ∀ info ∈ user.positionInfos, info.positionId ∈ ids ∧ Granted s sender edit info) := by
  unfold createRedemptionInfo
  have hinfos := Safely.mapM fun id hid => newPositionRedemption_safely (all id hid)
  refine .bind hinfos.mapErr ?_
  intro infos _ heach
  refine .pure ⟨rfl, fun info hinfo => ?_⟩
  obtain ⟨id, hid, hsame, hgranted⟩ := heach info hinfo
  exact ⟨hsame ▸ hid, hgranted⟩

/-- What adding the named positions at a premium does to its list. -/
structure ListGrown (s : State) (sender : Addr) (edit : RedemptionEdit) (named ids : List Nat)
    (users users' : List RedemptionInfo) : Prop where
  others : othersOf sender named users' = othersOf sender named users
  opted : ∀ id ∈ ids, (sender, id) ∈ entriesOf users'
  entries : ∀ user' ∈ users', user'.positionOwner = sender → ∀ info ∈ user'.positionInfos,
    Granted s sender edit info ∨
      ∃ user ∈ users, user.positionOwner = sender ∧ info ∈ user.positionInfos
  kept : ∀ user ∈ users, user.positionOwner = sender → ∀ info ∈ user.positionInfos,
    ∃ user' ∈ users', user'.positionOwner = sender ∧ info ∈ user'.positionInfos

theorem RecordGrown.listGrown {ids : List Nat}
    (grown : RecordGrown s sender edit named ids user user') (place : users[k]? = some user)
    (owner : user.positionOwner = sender) :
    ListGrown s sender edit named ids users (users.set k user') := by
  have hlt : k < users.length := (List.getElem?_eq_some_iff.mp place).1
  have hmem : user ∈ users := List.mem_of_getElem? place
  have howner : user'.positionOwner = sender := grown.owner.trans owner
  refine ⟨othersOf_set place owner howner grown.others, fun id hid => ?_,
    fun other hother hsender =>
    ?_, fun other hother hsender info hinfo => ?_⟩
  · exact mem_entriesOf.mpr ⟨user', List.mem_set hlt _, howner, grown.opted id (.inl hid)⟩
  · intro info hinfo
    rcases List.mem_or_eq_of_mem_set hother with hold | rfl
    · exact .inr ⟨other, hold, hsender, hinfo⟩
    · rcases grown.entries info hinfo with hbefore | hgranted
      · exact .inr ⟨user, hmem, owner, hbefore⟩
      · exact .inl hgranted
  · obtain ⟨j, hj⟩ := List.mem_iff_getElem?.mp hother
    by_cases here : j = k
    · subst here
      obtain rfl := Option.some.inj (hj.symm.trans place)
      exact ⟨user', List.mem_set hlt _, howner, grown.kept info hinfo⟩
    · refine ⟨other, List.mem_iff_getElem?.mpr ⟨j, ?_⟩, hsender, hinfo⟩
      rw [List.getElem?_set_ne (Ne.symm here), hj]

theorem listGrown_new {ids : List Nat} (owner : user.positionOwner = sender)
    (all : ∀ id ∈ ids, id ∈ named) (opted : optedIds user = ids)
    (granted : ∀ info ∈ user.positionInfos, Granted s sender edit info) :
    ListGrown s sender edit named ids users (users ++ [user]) := by
  refine ⟨?_, fun id hid => ?_, fun other hother hsender info hinfo => ?_,
    fun other hother hsender _ hinfo => ⟨other, List.mem_append_left _ hother, hsender, hinfo⟩⟩
  · have hnone : (user.positionInfos.filter fun info =>
        !(user.positionOwner == sender && named.contains info.positionId)) = [] := by
      apply List.filter_eq_nil_iff.mpr
      intro info hinfo
      have hid : info.positionId ∈ ids := opted ▸ List.mem_map_of_mem hinfo
      rw [named_out owner (all _ hid)]
      exact Bool.false_ne_true
    unfold othersOf
    rw [List.flatMap_append, List.flatMap_cons, List.flatMap_nil, hnone, List.map_nil,
      List.append_nil, List.append_nil]
  · refine mem_entriesOf.mpr ⟨user, ?_, owner, opted ▸ hid⟩
    exact List.mem_append_right _ (List.mem_singleton_self user)
  · rcases List.mem_append.mp hother with hold | hnew
    · exact .inr ⟨other, hold, hsender, hinfo⟩
    · obtain rfl := List.mem_singleton.mp hnew
      exact .inl (granted info hinfo)

theorem ListGrown.settled {users' : List RedemptionInfo} {ids : List Nat}
    (grown : ListGrown s sender edit named ids users users')
    (settled : SettledIn s sender edit premium users' id) :
    SettledIn s sender edit premium users id := by
  intro user huser howner info hinfo hid
  obtain ⟨user', huser', howner', hinfo'⟩ := grown.kept user huser howner info hinfo
  exact settled user' huser' howner' info hinfo' hid

theorem addRedemptions_safely {ids : List Nat}
    (all : ∀ id ∈ ids, id ∈ named ∧ LimitFits s sender edit id) :
    Safely (addRedemptions s sender edit premium ids) (fun out =>
      ListGrown s sender edit named ids (usersAt s premium) (usersAt out.1 premium)) := by
  unfold addRedemptions
  dsimp only
  cases hfound : findRedemptionUser (usersAt s premium) sender with
  | some found =>
    obtain ⟨userIndex, user⟩ := found
    obtain ⟨hplace, howner⟩ := findRedemptionUser_some hfound
    have hlt : userIndex < (usersAt s premium).length := (List.getElem?_eq_some_iff.mp hplace).1
    have hmatch : findRedemptionUser ((s.redemptionOptIn.lookup premium).getD []) sender =
      some (userIndex, user) := hfound
    rw [hmatch]
    refine .bind (addPositions_safely all) ?_
    intro user' _ grown
    refine .bind (.setIndex hlt) ?_
    rintro users - rfl
    apply Safely.pure
    rw [(WritesPremium.insert s premium _).here]
    exact grown.listGrown hplace howner
  | none =>
    have hmatch : findRedemptionUser ((s.redemptionOptIn.lookup premium).getD []) sender = none :=
      hfound
    rw [hmatch]
    refine .bind (createRedemptionInfo_safely fun id hid => (all id hid).2) ?_
    rintro user hcreate ⟨howner, hinfos⟩
    apply Safely.pure
    rw [(WritesPremium.insert s premium _).here]
    exact listGrown_new howner (fun id hid => (all id hid).1) (createRedemptionInfo_spec hcreate).2
      fun info hinfo => (hinfos info hinfo).2

/-! ## The whole edit -/

/-- The debts of the named positions are 128 bit amounts. -/
def DebtsFit (s : State) (sender : Addr) (ids : List Nat) : Prop :=
  ∀ id ∈ ids, ∀ position, ownedPosition s sender id = .ok position →
    position.creditAmount < Uint128.limit

variable (s sender edit) in
/-- What an edit is meant to do: the entries that it does not name stay as they are, and each
    named position is opted in at the premium that the edit gives, and at no other, with the
    limit and the restricted assets it gives; after a removal it is opted in nowhere. -/
structure TouchesNamed (ids : List Nat) (s' : State) : Prop where
  only : OnlyOptIn s s'
  others : ∀ premium, othersOf sender ids (usersAt s' premium) =
    othersOf sender ids (usersAt s premium)
  settled : ∀ id ∈ ids, ∀ premium, SettledIn s sender edit premium (usersAt s' premium) id
  stays : ∀ premium, ¬ edit.Drops premium → ∀ id, OptedIn s premium sender id →
    OptedIn s' premium sender id
  opted : edit.redeemable ≠ some false → ∀ premium, edit.updatedPremium = some premium →
    ∀ id ∈ ids, OptedIn s' premium sender id

variable (s sender edit) in
/-- Whether the edit is refused before it adds or changes an entry. -/
def Refused (ids : List Nat) (byContract : Bool) : Prop :=
  checkRedemptionEdit s sender ids edit byContract ≠ .ok ⟨⟩ ∨
    edit.redeemable = some true ∧ edit.updatedPremium = none

variable (s sender edit) in
/-- The edit meets nothing that it gets wrong. The debts are 128 bit amounts. A position that
    is at two premiums leaves the lower one together with the user, or has at the later one
    what is asked for. Where the edit goes on writing after it took an entry out, the user has
    no other entry. A user with entries at the new premium asks for nothing that they do not
    have, and of positions that are not elsewhere; and a user without any there moves up. -/
structure EditsCleanly (ids : List Nat) : Prop where
  debts : DebtsFit s sender ids
  once : ¬ edit.Unlisted s → ∀ id ∈ ids, ∀ premium later, premium < later →
    OptedIn s premium sender id → OptedIn s later sender id →
      SettledIn s sender edit later (usersAt s later) id ∨
        edit.Drops premium ∧ LastAt s sender ids premium id
  steady : ∀ premium, SteadyAt s sender edit ids premium
  present : edit.redeemable ≠ some false → ∀ premium, edit.updatedPremium = some premium →
    (∃ user ∈ usersAt s premium, user.positionOwner = sender) → ∀ id ∈ ids,
      SettledIn s sender edit premium (usersAt s premium) id ∧
        ∀ other, OptedIn s other sender id → other = premium
  absent : ¬ edit.Unlisted s → edit.redeemable ≠ some false → ∀ premium,
    edit.updatedPremium = some premium →
    (∀ user ∈ usersAt s premium, user.positionOwner ≠ sender) → ∀ id ∈ ids,
      ∀ old, OptedIn s old sender id → old < premium

theorem checkRedemptionEdit_safely {ids : List Nat} {byContract : Bool} :
    Safely (checkRedemptionEdit s sender ids edit byContract) (fun _ =>
      ∀ max, edit.maxLoanRepayment = some max → max ≤ Decimal.one) := by
  unfold checkRedemptionEdit
  refine .bind .guardErr fun _ _ _ => ?_
  refine .bind .guardErr fun _ _ hpart => ?_
  refine .bind .guardErr fun _ _ _ => ?_
  refine .bind .guardErr fun _ _ _ => ?_
  have hchecks : Safely (ids.forM fun id => do
      let target ← getTargetPosition s sender id
      target.2.collateralAssets.forM fun cAsset =>
        Outcome.guardErr (byContract = false ∧ cAsset.hikeRates = some true) (.customError
          ("Can't edit redemption for a position with a rate hike asset: " ++
            cAsset.asset.info.toDebugText))) (fun _ => ∀ id ∈ ids, True) := by
    apply Safely.forM
    intro id _
    refine .bind getTargetPosition_safely ?_
    intro target _ _
    exact (Safely.forM fun _ _ => .guardErr).mono fun _ _ => trivial
  refine hchecks.mono fun _ _ max hmax => ?_
  rw [hmax] at hpart
  have hle : ¬ Decimal.one < max := by
    intro hlt
    apply hpart
    simp [hlt]
  exact Nat.le_of_not_lt hle

theorem editable_same {ids : List Nat} (listed : WellListed s)
    (part : ∀ max, edit.maxLoanRepayment = some max → max ≤ Decimal.one) (distinct : ids.Nodup)
    (debts : DebtsFit s sender ids) (steady : ∀ premium, SteadyAt s sender edit ids premium) :
    Editable s s sender edit ids ids :=
  ⟨.refl s, listed.kept, fun id hid => ⟨hid, part, debts id hid⟩, distinct, steady⟩

theorem EditsCleanly.settling_same {ids : List Nat} (clean : EditsCleanly s sender edit ids)
    (listed : WellListed s) (part : ∀ max, edit.maxLoanRepayment = some max → max ≤ Decimal.one)
    (distinct : ids.Nodup) : Settling s s sender edit ids ids := by
  refine ⟨editable_same listed part distinct clean.debts clean.steady, fun id hid => .inl hid,
    fun allowed id hid premium later hlt hopted => ?_⟩
  by_cases hlater : OptedIn s later sender id
  · exact clean.once allowed id hid premium later hlt hopted hlater
  · exact .inl (.of_absent hlater)

theorem not_drops (keeps : edit.redeemable ≠ some false)
    (moves : edit.updatedPremium = some premium) : ¬ edit.Drops premium := by
  rintro (hremoves | ⟨updated, hupdated, hne⟩)
  · exact keeps hremoves
  · exact hne (Option.some.inj (hupdated.symm.trans moves))

theorem Additions.editable {mid : State} {ids left : List Nat}
    (added : Additions s mid sender premium ids left) (listed : WellListed s)
    (part : ∀ max, edit.maxLoanRepayment = some max → max ≤ Decimal.one) (nonempty : ids ≠ [])
    (distinct : ids.Nodup) (stays : ¬ edit.Drops premium) (only : OnlyOptIn s mid)
    (debts : DebtsFit s sender ids) (steady : ∀ premium, SteadyAt s sender edit ids premium) :
    Editable s mid sender edit ids left := by
  have hothers := added.others
  have hkept : ∀ other, Kept (usersAt mid other) := by
    intro other
    by_cases same : other = premium
    · subst same
      exact added.kept nonempty distinct (listed.kept other)
    · rw [hothers other same]
      exact listed.kept other
  cases added with
  | grown _ _ _ _ _ _ hleft =>
    subst hleft
    refine ⟨only, hkept, fun _ mem => (List.not_mem_nil mem).elim, List.nodup_nil, ?_⟩
    rintro other _ ⟨_, mem, _⟩
    exact (List.not_mem_nil mem).elim
  | new _ _ _ _ _ hleft =>
    subst hleft
    refine ⟨only, hkept, fun id hid => ⟨hid, part, debts id hid⟩, distinct, fun other => ?_⟩
    intro writes hentry
    have hne : other ≠ premium := by
      rintro rfl
      exact stays writes.drops
    unfold Alone
    rw [hothers other hne] at hentry ⊢
    exact steady other (only.writesOn.mp writes) hentry

theorem EditsCleanly.settling_added {mid : State} {ids left : List Nat}
    (clean : EditsCleanly s sender edit ids) (listed : WellListed s)
    (part : ∀ max, edit.maxLoanRepayment = some max → max ≤ Decimal.one) (nonempty : ids ≠ [])
    (distinct : ids.Nodup) (keeps : edit.redeemable ≠ some false)
    (moves : edit.updatedPremium = some premium) (only : OnlyOptIn s mid)
    (added : Additions s mid sender premium ids left)
    (grown : ListGrown s sender edit ids ids (usersAt s premium) (usersAt mid premium)) :
    Settling s mid sender edit ids left := by
  have hothers := added.others
  have hstays := not_drops keeps moves
  have heditable :=
    added.editable listed part nonempty distinct hstays only clean.debts clean.steady
  have hsettled : ∀ id, SettledIn s sender edit premium (usersAt s premium) id →
      SettledIn s sender edit premium (usersAt mid premium) id := by
    intro id before user' hmem howner info hinfo hid
    rcases grown.entries user' hmem howner info hinfo with hgranted | ⟨user, huser, howner, hinfo⟩
    · exact ⟨hstays, hgranted⟩
    · exact before user huser howner info hinfo hid
  cases added with
  | grown i user _ found _ _ hleft =>
    subst hleft
    obtain ⟨hplace, howner⟩ := findRedemptionUser_some found
    have hthere := clean.present keeps premium moves ⟨user, List.mem_of_getElem? hplace, howner⟩
    refine ⟨heditable, fun id hid => .inr fun other => ?_,
      fun _ _ mem => (List.not_mem_nil mem).elim⟩
    obtain ⟨hbefore, honce⟩ := hthere id hid
    by_cases same : other = premium
    · subst same
      exact hsettled id hbefore
    · apply SettledIn.of_absent
      rw [hothers other same]
      exact fun opted => same (honce other opted)
  | new user habsent _ _ _ hleft =>
    subst hleft
    have hhere : ∀ id, SettledIn s sender edit premium (usersAt mid premium) id := by
      intro id
      apply hsettled
      intro stored hmem howner
      exact absurd howner (habsent stored hmem)
    refine ⟨heditable, fun id hid => .inl hid,
      fun allowed id hid other later hlt hopted => ?_⟩
    by_cases same : later = premium
    · subst same
      exact .inl (hhere id)
    · by_cases hlater : OptedIn s later sender id
      · -- both are premiums of before
        have hbelow := clean.absent allowed keeps premium moves habsent id hid later hlater
        have hne : other ≠ premium := by omega
        unfold LastAt
        rw [hothers later same, hothers other hne]
        rw [hothers other hne] at hopted
        exact clean.once allowed id hid other later hlt hopted hlater
      · left
        apply SettledIn.of_absent
        rw [hothers later same]
        exact hlater

theorem Additions.more {mid : State} {ids left : List Nat}
    (added : Additions s mid sender premium ids left) {owner : Addr} {other id : Nat}
    (opted : OptedIn s other owner id) : OptedIn mid other owner id := by
  by_cases same : other = premium
  case neg =>
    unfold OptedIn
    rw [added.others other same]
    exact opted
  case pos =>
    subst same
    obtain ⟨user, hmem, howner, hid⟩ := mem_entriesOf.mp opted
    cases added with
    | grown i record record' found added written _ =>
      obtain ⟨hplace, -⟩ := findRedemptionUser_some found
      have hlt : i < (usersAt s other).length := (List.getElem?_eq_some_iff.mp hplace).1
      apply mem_entriesOf.mpr
      rw [written.here]
      obtain ⟨j, hj, hget⟩ := List.mem_iff_getElem.mp hmem
      by_cases here : j = i
      · subst here
        obtain rfl : user = record := by
          rw [List.getElem?_eq_getElem hj, hget] at hplace
          exact Option.some.inj hplace
        exact ⟨record', List.mem_set hlt _, added.owner.trans howner, added.more id hid⟩
      · refine ⟨user, List.mem_iff_getElem?.mpr ⟨j, ?_⟩, howner, hid⟩
        rw [List.getElem?_set_ne (Ne.symm here), List.getElem?_eq_getElem hj, hget]
    | new record _ _ _ written _ =>
      apply mem_entriesOf.mpr
      rw [written.here]
      exact ⟨user, List.mem_append_left _ hmem, howner, hid⟩

theorem PremiumsTouched.touchesNamed {mid : State} {ids left : List Nat} {acc : State × List Nat}
    (listed : WellListed s) (touched : PremiumsTouched s mid sender edit ids left 100 acc)
    (edited : PremiumsEdited sender edit left mid 100 acc)
    (within : ∀ premium, 100 ≤ premium → usersAt mid premium = usersAt s premium)
    (others : ∀ premium, othersOf sender ids (usersAt mid premium) =
      othersOf sender ids (usersAt s premium))
    (more : ∀ premium id, OptedIn s premium sender id → OptedIn mid premium sender id)
    (opted : edit.redeemable ≠ some false → ∀ premium, edit.updatedPremium = some premium →
      ∀ id ∈ ids, OptedIn mid premium sender id) : TouchesNamed s sender edit ids acc.1 := by
  have hkept : ∀ premium, ¬ edit.Drops premium → ∀ id, OptedIn mid premium sender id →
      OptedIn acc.1 premium sender id := by
    intro premium stays id hopted
    unfold OptedIn
    rw [touched.keeps premium stays]
    exact hopted
  refine ⟨touched.only, fun premium => (touched.others premium).trans (others premium),
    fun id hid premium => ?_, fun premium stays id hopted => ?_,
      fun keeps premium moves id hid => ?_⟩
  · by_cases hlt : premium < 100
    · exact touched.behind premium hlt id hid
    · have hle : 100 ≤ premium := Nat.le_of_not_lt hlt
      rw [edited.ahead premium hle, within premium hle]
      apply SettledIn.of_absent
      intro hopted
      exact hlt (listed.within premium sender id hopted)
  · exact hkept premium stays id (more premium id hopted)
  · exact hkept premium (not_drops keeps moves) id (opted keeps premium moves id hid)

theorem editRedemptionInfo_safely {ids : List Nat} {byContract : Bool} (listed : WellListed s)
    (clean : ¬ Refused s sender edit ids byContract → EditsCleanly s sender edit ids) :
    Safely (editRedemptionInfo s sender ids edit byContract) (TouchesNamed s sender edit ids) := by
  unfold editRedemptionInfo
  refine .bind checkRedemptionEdit_safely ?_
  intro _ hcheck part
  obtain ⟨hpremium, nonempty, distinct, -⟩ := checkRedemptionEdit_spec hcheck
  have hclean : ¬ (edit.redeemable = some true ∧ edit.updatedPremium = none) →
      EditsCleanly s sender edit ids :=
    fun given => clean (not_or.mpr ⟨fun hne => hne hcheck, given⟩)
  have hfits : EditsCleanly s sender edit ids →
      ∀ id ∈ ids, id ∈ ids ∧ LimitFits s sender edit id :=
    fun clean id hid => ⟨hid, part, clean.debts id hid⟩
  have hsame : EditsCleanly s sender edit ids →
      (edit.redeemable ≠ some false → edit.updatedPremium = none) →
      Safely (do
        let edited ← (List.range 100).foldlM (editPremium sender edit) (s, ids)
        pure edited.1) (TouchesNamed s sender edit ids) := by
    intro clean nowhere
    refine .bind (editPremiums_safely (clean.settling_same listed part distinct) 100) ?_
    intro acc hfold touched
    refine .pure (touched.touchesNamed listed (editPremiums_spec listed.kept hfold)
      (fun _ _ => rfl) (fun _ => rfl) (fun _ _ opted => opted) fun keeps premium moves => ?_)
    rw [nowhere keeps] at moves
    cases moves
  by_cases hremoves : edit.redeemable = some false
  · rw [if_pos hremoves]
    refine .bind_done rfl ?_
    refine hsame (hclean fun given => ?_) fun keeps => absurd hremoves keeps
    rw [hremoves] at given
    exact absurd given.1 (by decide)
  · rw [if_neg hremoves]
    cases hmoves : edit.updatedPremium with
    | none =>
      dsimp only
      have hstart : Safely (do
          Outcome.guardErr (edit.redeemable = some true) (.customError
            "Can't set redeemable to true without specifying a premium")
          (pure (s, ids) : Result (State × List Nat)))
          (fun start => edit.redeemable ≠ some true ∧ start = (s, ids)) :=
        .bind .guardErr fun _ _ hgiven => .pure ⟨hgiven, rfl⟩
      refine .bind hstart ?_
      rintro start - ⟨hgiven, rfl⟩
      exact hsame (hclean fun given => hgiven given.1) fun _ => hmoves
    | some premium =>
      dsimp only
      have clean := hclean fun given => by cases hmoves.symm.trans given.2
      refine .bind (addRedemptions_safely (hfits clean)) ?_
      rintro ⟨mid, left⟩ hadd grown
      have hadded := addRedemptions_spec hadd
      have honly := addRedemptions_onlyOptIn hadd
      have heditable := clean.settling_added listed part nonempty distinct hremoves hmoves honly
        hadded grown
      refine .bind (editPremiums_safely heditable 100) ?_
      intro acc hfold touched
      refine .pure (touched.touchesNamed listed (editPremiums_spec heditable.kept hfold)
        (fun other hle => ?_) (fun other => ?_) (fun other id opted => hadded.more opted)
        fun _ other hother => ?_)
      · apply hadded.others
        have hbound := hpremium premium hmoves
        omega
      · by_cases same : other = premium
        · subst same
          exact grown.others
        · rw [hadded.others other same]
      · obtain rfl := Option.some.inj (hmoves.symm.trans hother)
        exact grown.opted

/-! ## Nothing else is as it is meant to be -/

theorem PremiumsLeft.once {mid : State} {ids : List Nat} {acc : State × List Nat} {later : Nat}
    (left : PremiumsLeft s mid sender edit ids 100 acc)
    (settled : ∀ id ∈ ids, ∀ premium, SettledIn s sender edit premium (usersAt acc.1 premium) id)
    (mem : id ∈ ids) (below : premium < later) (within : later < 100)
    (opted : OptedIn mid premium sender id) :
    SettledIn s sender edit later (usersAt mid later) id ∨
      edit.Drops premium ∧ LastAt mid sender ids premium id := by
  by_contra hnot
  obtain ⟨hunsettled, hnot⟩ := not_or.mp hnot
  exact hunsettled (left.stays id mem premium later below within opted hnot (settled id mem later))

theorem clean_same {ids : List Nat} {acc : State × List Nat} (listed : WellListed s)
    (debts : DebtsFit s sender ids) (steady : ∀ premium, SteadyAt s sender edit ids premium)
    (nowhere : edit.redeemable = some false ∨ edit.updatedPremium = none)
    (left : PremiumsLeft s s sender edit ids 100 acc)
    (settled : ∀ id ∈ ids, ∀ premium, SettledIn s sender edit premium (usersAt acc.1 premium) id) :
    EditsCleanly s sender edit ids := by
  have hnever : edit.redeemable ≠ some false → ∀ premium, edit.updatedPremium ≠ some premium := by
    intro keeps premium moves
    rw [nowhere.resolve_left keeps] at moves
    cases moves
  exact ⟨debts, fun _ id hid premium later below opted hlater =>
      left.once settled hid below (listed.within later sender id hlater) opted, steady,
    fun keeps premium moves => absurd moves (hnever keeps premium),
    fun _ keeps premium moves => absurd moves (hnever keeps premium)⟩

theorem clean_new {mid : State} {ids : List Nat} {acc : State × List Nat} (listed : WellListed s)
    (debts : DebtsFit s sender ids) (steady : ∀ premium, SteadyAt s sender edit ids premium)
    (keeps : edit.redeemable ≠ some false) (moves : edit.updatedPremium = some premium)
    (absent : ∀ stored ∈ usersAt s premium, stored.positionOwner ≠ sender)
    (others : ∀ other, other ≠ premium → usersAt mid other = usersAt s other)
    (opted : ∀ id ∈ ids, OptedIn mid premium sender id)
    (left : PremiumsLeft s mid sender edit ids 100 acc)
    (settled : ∀ id ∈ ids, ∀ premium, SettledIn s sender edit premium (usersAt acc.1 premium) id) :
    EditsCleanly s sender edit ids := by
  have hne : ∀ {other id : Nat}, OptedIn s other sender id → other ≠ premium := by
    rintro other id hopted rfl
    obtain ⟨user, hmem, howner, -⟩ := mem_entriesOf.mp hopted
    exact absent user hmem howner
  refine ⟨debts, fun _ id hid lower later below hlower hlater => ?_, steady,
    fun _ other hother ⟨user, hmem, howner⟩ => ?_, fun _ _ other hother _ id hid old hopted => ?_⟩
  · have hmid : OptedIn mid lower sender id := by
      rw [OptedIn, others lower (hne hlower)]
      exact hlower
    have honce := left.once settled hid below (listed.within later sender id hlater) hmid
    unfold LastAt at honce
    rw [others later (hne hlater), others lower (hne hlower)] at honce
    exact honce
  · obtain rfl := Option.some.inj (hother.symm.trans moves)
    exact absurd howner (absent user hmem)
  · obtain rfl := Option.some.inj (hother.symm.trans moves)
    by_contra hnot
    have hlt : other < old := Nat.lt_of_le_of_ne (Nat.not_lt.mp hnot) (hne hopted).symm
    rcases left.once settled hid hlt (listed.within old sender id hopted) (opted id hid) with
      hsettled | ⟨hdrops, -⟩
    · rw [others old (hne hopted)] at hsettled
      exact hsettled.absent (.inr ⟨other, moves, hlt.ne⟩) hopted
    · exact not_drops keeps moves hdrops

theorem clean_grown {mid : State} {ids : List Nat} {acc : State × List Nat}
    (debts : DebtsFit s sender ids) (steady : ∀ premium, SteadyAt s sender edit ids premium)
    (moves : edit.updatedPremium = some premium) (there : user ∈ usersAt s premium)
    (owner : user.positionOwner = sender)
    (others : ∀ other, other ≠ premium → usersAt mid other = usersAt s other)
    (grown : ListGrown s sender edit ids ids (usersAt s premium) (usersAt mid premium))
    (touched : PremiumsTouched s mid sender edit [] [] 100 acc)
    (settled : ∀ id ∈ ids, ∀ premium, SettledIn s sender edit premium (usersAt acc.1 premium) id) :
    EditsCleanly s sender edit ids := by
  have hsettled : ∀ id ∈ ids, ∀ other, SettledIn s sender edit other (usersAt mid other) id :=
    fun id hid other => .of_others (touched.others other) List.not_mem_nil (settled id hid other)
  have honce : ∀ id ∈ ids, ∀ other, OptedIn s other sender id → other = premium := by
    intro id hid other hopted
    by_contra hne
    have hother := hsettled id hid other
    rw [others other hne] at hother
    exact hother.absent (.inr ⟨premium, moves, Ne.symm hne⟩) hopted
  refine ⟨debts, fun _ id hid lower later below hlower hlater => ?_, steady,
    fun _ other hother _ id hid => ?_, fun _ _ other hother habsent => ?_⟩
  · have hsame := (honce id hid lower hlower).trans (honce id hid later hlater).symm
    exact absurd hsame below.ne
  · obtain rfl := Option.some.inj (hother.symm.trans moves)
    exact ⟨grown.settled (hsettled id hid other), honce id hid⟩
  · obtain rfl := Option.some.inj (hother.symm.trans moves)
    exact absurd owner (habsent user there)

theorem editRedemptionInfo_clean {ids : List Nat} {byContract : Bool} {s' : State}
    (listed : WellListed s) (debts : DebtsFit s sender ids)
    (steady : ∀ premium, SteadyAt s sender edit ids premium)
    (done : editRedemptionInfo s sender ids edit byContract = .ok s')
    (touches : TouchesNamed s sender edit ids s') : EditsCleanly s sender edit ids := by
  simp only [editRedemptionInfo, bind_eq_ok, pure_eq_ok] at done
  obtain ⟨_, hcheck, ⟨mid, left⟩, hadd, acc, hedit, rfl⟩ := done
  have part := checkRedemptionEdit_safely.returns _ hcheck
  obtain ⟨-, nonempty, distinct, -⟩ := checkRedemptionEdit_spec hcheck
  have hsame : ∀ nowhere : edit.redeemable = some false ∨ edit.updatedPremium = none,
      mid = s → left = ids → EditsCleanly s sender edit ids := by
    rintro nowhere rfl rfl
    have heditable := editable_same listed part distinct debts steady
    exact clean_same listed debts steady nowhere (editPremiums_left heditable hedit) touches.settled
  split at hadd
  case isTrue hremoves =>
    obtain ⟨hmid, hleft⟩ := Prod.mk.inj (pure_eq_ok.mp hadd)
    exact hsame (.inl hremoves) hmid.symm hleft.symm
  case isFalse keeps =>
    split at hadd
    case h_2 hnone =>
      simp only [bind_eq_ok, pure_eq_ok, Prod.mk.injEq] at hadd
      obtain ⟨_, -, hmid, hleft⟩ := hadd
      exact hsame (.inr hnone) hmid.symm hleft.symm
    case h_1 premium moves =>
      have hadded := addRedemptions_spec hadd
      have hfits : ∀ id ∈ ids, id ∈ ids ∧ LimitFits s sender edit id :=
        fun id hid => ⟨hid, part, debts id hid⟩
      have hgrown := (addRedemptions_safely hfits).returns _ hadd
      have heditable := hadded.editable listed part nonempty distinct (not_drops keeps moves)
        (addRedemptions_onlyOptIn hadd) debts steady
      have hothers := hadded.others
      cases hadded with
      | grown i user _ found _ _ hleft =>
        subst hleft
        obtain ⟨hplace, howner⟩ := findRedemptionUser_some found
        have hnothing : Settling s mid sender edit [] [] :=
          ⟨⟨heditable.only, heditable.kept, fun _ mem => (List.not_mem_nil mem).elim,
            List.nodup_nil, heditable.steady⟩, fun _ mem => (List.not_mem_nil mem).elim,
            fun _ _ mem => (List.not_mem_nil mem).elim⟩
        exact clean_grown debts steady moves (List.mem_of_getElem? hplace) howner hothers
          hgrown ((editPremiums_safely hnothing 100).returns _ hedit) touches.settled
      | new _ habsent _ _ _ hleft =>
        subst hleft
        exact clean_new listed debts steady keeps moves habsent hothers hgrown.opted
          (editPremiums_left heditable hedit) touches.settled

/-- In every state that the contract reaches, an edit that meets nothing it gets wrong, or is
    refused before, does not panic; where it goes through, it leaves the entries it does not
    name as they are, and the positions it names as it asks for. Conversely, where no stale
    index is written to, only such edits do. -/
theorem redemption_edit_touches_named {deps : Deps} {env : Env} {info : MessageInfo}
    {msg : InstantiateMsg} {created : State} {start : Response OutMsg} {ids : List Nat}
    {byContract : Bool} (instantiated : instantiate deps env info msg = .ok (created, start))
    (run : RunWhere transactionStep FromOutside created s) :
    ((¬ Refused s sender edit ids byContract → EditsCleanly s sender edit ids) →
      Safely (editRedemptionInfo s sender ids edit byContract) (TouchesNamed s sender edit ids)) ∧
    (DebtsFit s sender ids → (∀ premium, SteadyAt s sender edit ids premium) →
      ∀ s', editRedemptionInfo s sender ids edit byContract = .ok s' →
        TouchesNamed s sender edit ids s' → EditsCleanly s sender edit ids) := by
  have hlisted := run_wellListed instantiated run
  exact ⟨editRedemptionInfo_safely hlisted, fun debts steady s' done touches =>
    editRedemptionInfo_clean hlisted debts steady done touches⟩

end

/-! ## On a sample chain -/

def borrowedOptIn : List Call := borrowing ++ [sampleOptIn 0]

def halfAtFive : RedemptionEdit := ⟨none, some 5, some (Decimal.percent 50), none⟩

theorem redemption_edit_touches_named_half :
    ∃ s s', afterGenesis 0 borrowedOptIn = some s ∧
      editRedemptionInfo s "user" [1] halfAtFive false = .ok s' ∧
      TouchesNamed s "user" halfAtFive [1] s' := by
  have hfacts : (afterGenesis 0 borrowedOptIn).map (fun s => (s.redemptionOptIn.keys,
      (match editRedemptionInfo s "user" [1] halfAtFive false with
        | .ok _ => true
        | .error _ => false),
      (match ownedPosition s "user" 1 with
        | .ok position => position.creditAmount
        | .error _ => 0))) = some ([0], true, 1000000000) := by decide +kernel
  obtain ⟨s, hs, hfacts⟩ := Option.map_eq_some_iff.mp hfacts
  simp only [Prod.mk.injEq] at hfacts
  obtain ⟨hkeys, hedits, hdebt⟩ := hfacts
  obtain ⟨created, hnew, hcalls⟩ := Option.bind_eq_some_iff.mp hs
  obtain ⟨start, hcreated⟩ := newContract_spec hnew
  have hreached : RunWhere transactionStep FromOutside created s := by
    refine transactions_of_calls (execAll_run (fun _ _ _ => Call.exec_step) (fun call mem s => ?_)
      hcalls)
    simp only [borrowedOptIn, borrowing, List.cons_append, List.nil_append, List.mem_cons,
      List.not_mem_nil, or_false] at mem
    rcases mem with rfl | rfl | rfl | rfl <;> trivial
  have hzero : ∀ {premium id : Nat}, OptedIn s premium "user" id → premium = 0 := by
    intro premium id hopted
    by_contra hne
    have habsent : premium ∉ s.redemptionOptIn.keys := by
      rw [hkeys, List.mem_singleton]
      exact hne
    rw [OptedIn, usersAt_of_not_mem habsent] at hopted
    cases hopted
  have hclean : EditsCleanly s "user" halfAtFive [1] := by
    refine ⟨fun id hid position howned => ?_, fun _ id _ premium later hlt hopted hlater => ?_,
      fun premium writes => ?_, fun _ premium moves there => ?_,
        fun _ _ premium moves _ id _ old => ?_⟩
    · obtain rfl := List.mem_singleton.mp hid
      rw [howned] at hdebt
      dsimp only at hdebt
      rw [hdebt]
      decide
    · have hsame := hzero hlater
      omega
    · rcases writes with ⟨hremoves, -⟩ | ⟨-, hrestricted⟩
      · cases hremoves
      · exact absurd rfl hrestricted.1
    · obtain rfl : 5 = premium := Option.some.inj moves
      obtain ⟨user, hmem, -⟩ := there
      have habsent : 5 ∉ s.redemptionOptIn.keys := by simp [hkeys]
      rw [usersAt_of_not_mem habsent] at hmem
      cases hmem
    · intro hopted
      obtain rfl : 5 = premium := Option.some.inj moves
      rw [hzero hopted]
      decide
  have htouches : Safely (editRedemptionInfo s "user" [1] halfAtFive false)
      (TouchesNamed s "user" halfAtFive [1]) :=
    (redemption_edit_touches_named hcreated hreached).1 fun _ => hclean
  cases hdone : editRedemptionInfo s "user" [1] halfAtFive false with
  | error fault =>
    rw [hdone] at hedits
    cases hedits
  | ok s' => exact ⟨s, s', hs, hdone, htouches.returns s' hdone⟩

theorem opened_again_positive : 0 < 45000000000 := by decide

def twoOptedIn : List Call :=
  openedPosition ++ [sampleDeposit 0 "user" none 45000000000 opened_again_positive,
    sampleCall 0 "user" (.editRedeemability [1, 2] ⟨some true, some 0, none, none⟩)]

def removedRestricted : RedemptionEdit := ⟨some false, none, none, some ["uatom"]⟩

/-- Taking the second of two entries out runs off the list. -/
theorem redemption_edit_not_touches_named :
    ¬ ∀ calls s sender ids edit byContract, (∀ call ∈ calls, ∀ s, FromOutside s (.call call)) →
      afterGenesis 0 calls = some s →
      Safely (editRedemptionInfo s sender ids edit byContract)
        (TouchesNamed s sender edit ids) := by
  intro claim
  have hpanics : (afterGenesis 0 twoOptedIn).map (fun s =>
      panicked (editRedemptionInfo s "user" [2] removedRestricted false)) = some true := by
    decide +kernel
  obtain ⟨s, hs, hpanics⟩ := Option.map_eq_some_iff.mp hpanics
  have hsafe := claim twoOptedIn s "user" [2] removedRestricted false (fun call mem s => ?_) hs
  · exact hsafe.noPanic (panicked_iff.mp hpanics)
  · simp only [twoOptedIn, openedPosition, List.cons_append, List.nil_append, List.mem_cons,
      List.not_mem_nil, or_false] at mem
    rcases mem with rfl | rfl | rfl | rfl <;> trivial

end Membrane.Cdp
