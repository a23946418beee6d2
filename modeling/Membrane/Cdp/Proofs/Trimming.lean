import Membrane.Cdp.Proofs.Edits
import Membrane.Cdp.Proofs.Redeeming

/-!
# What a redemption does to the opt-in lists

A redemption takes positions and users out of the list of a premium while it walks along
a copy of it. Taking one out shifts those behind it, so all but the last position of a
user and all but the last user have to stay for the walk to come to its end: a redemption
that succeeds has kept the list, or left the last positions of some users out.
-/

namespace Membrane.Cdp

open Outcome

/-! ## One position -/

/-- A position is taken out of the user's record, and the user out of the list with the
    last one. -/
inductive Removing (userIndex index : Nat) (user : RedemptionInfo) (users : List RedemptionInfo)
    (user' : RedemptionInfo) (users' : List RedemptionInfo) : Prop
  | mk (inside : index < (optedIds user).length)
      (owner : user'.positionOwner = user.positionOwner)
      (ids : optedIds user' = (optedIds user).eraseIdx index)
      (list : optedIds user' = [] ∧ userIndex < users.length ∧ users' = users.eraseIdx userIndex ∨
        optedIds user' ≠ [] ∧ users' = users)

def WritesBack (userIndex : Nat) (user : RedemptionInfo) (users users' : List RedemptionInfo) :
    Prop :=
  users = [] ∧ users' = [] ∨
    users ≠ [] ∧ userIndex < users.length ∧ users' = users.set userIndex user

/-- What redeeming from one position did to the lists. -/
inductive EntryRedeemed (premium userIndex index : Nat) (loop loop' : RedeemLoop) : Prop
  | restricted
      (removed : Removing userIndex index loop.user loop.users loop'.user loop'.users)
      (stored : usersAt loop'.s premium = usersAt loop.s premium)
  | redeemed (user₀ user₁ : RedemptionInfo) (users₁ users₂ : List RedemptionInfo)
      (inside : index < (optedIds loop.user).length)
      (owner : user₀.positionOwner = loop.user.positionOwner)
      (ids : optedIds user₀ = optedIds loop.user)
      (first : user₁ = user₀ ∧ users₁ = loop.users ∨
        Removing userIndex index user₀ loop.users user₁ users₁)
      (saved : WritesBack userIndex user₁ users₁ users₂)
      (stored : usersAt loop'.s premium = users₂)
      (second : loop'.user = user₁ ∧ loop'.users = users₂ ∨
        Removing userIndex index user₁ users₂ loop'.user loop'.users)

section Entry

variable {deps : Deps} {env : Env} {basket : Basket} {discountRatio : Decimal}
  {premium userIndex index : Nat} {loop loop' : RedeemLoop}

theorem removeRedemption_spec (done : removeRedemption userIndex index loop = .ok loop') :
    Removing userIndex index loop.user loop.users loop'.user loop'.users ∧ loop'.s = loop.s := by
  simp only [removeRedemption, bind_eq_ok, pure_eq_ok, removeIndex_eq_ok] at done
  obtain ⟨infos, ⟨hlt, rfl⟩, users, husers, rfl⟩ := done
  have hids : optedIds { loop.user with
      positionInfos := loop.user.positionInfos.eraseIdx index } =
        (optedIds loop.user).eraseIdx index := by
    simp only [optedIds, List.eraseIdx_map]
  refine ⟨⟨?_, rfl, hids, ?_⟩, rfl⟩
  · simpa [optedIds] using hlt
  · split at husers
    case isTrue hempty =>
      obtain ⟨hin, rfl⟩ := removeIndex_eq_ok.mp husers
      refine .inl ⟨?_, hin, rfl⟩
      simpa [optedIds] using hempty
    case isFalse hfull =>
      obtain rfl := pure_eq_ok.mp husers
      refine .inr ⟨?_, rfl⟩
      intro hnil
      exact hfull (by simpa [optedIds] using hnil)

theorem updatePositionClaims_optIn {s s' : State} {owner : Addr} {positionId amount : Nat}
    {asset : AssetInfo}
    (done : updatePositionClaims deps env s positionId owner asset amount = .ok s') :
    s'.redemptionOptIn = s.redemptionOptIn := by
  simp only [updatePositionClaims, bind_eq_ok] at done
  obtain ⟨_, -, _, -, hrest⟩ := done
  split at hrest
  case h_1 =>
    obtain rfl := pure_eq_ok.mp hrest
    rfl
  case h_2 =>
    split at hrest
    case isTrue =>
      obtain rfl := pure_eq_ok.mp hrest
      rfl
    case isFalse =>
      simp only [bind_eq_ok, pure_eq_ok] at hrest
      obtain ⟨_, -, rfl⟩ := hrest
      rfl

theorem redeemAssets_optIn {owner : Addr} {positionId : Nat} {redeemableValue : Decimal}
    {cAssetRatios : List Decimal} {cAssetPrices : List PriceResponse}
    {entries : List (CAsset × Nat)} {acc acc' : State × List Asset}
    (done : entries.foldlM (redeemAsset deps env owner positionId redeemableValue cAssetRatios
      cAssetPrices) acc = .ok acc') : acc'.1.redemptionOptIn = acc.1.redemptionOptIn := by
  refine foldlM_keeps (fun mid : State × List Asset =>
    mid.1.redemptionOptIn = acc.1.redemptionOptIn)
      (fun mid entry next hinv hstep => ?_) _ _ _ rfl done
  simp only [redeemAsset, bind_eq_ok, pure_eq_ok] at hstep
  obtain ⟨_, -, _, -, _, -, _, -, _, -, last, hclaims, rfl⟩ := hstep
  exact (updatePositionClaims_optIn hclaims).trans hinv

theorem updatePosition_optIn {s s' : State} {owner : Addr} {position : Position}
    (done : updatePosition s owner position = .ok s') :
    s'.redemptionOptIn = s.redemptionOptIn := by
  unfold updatePosition at done
  split at done
  case h_1 =>
    obtain rfl := Except.ok.inj done
    rfl
  case h_2 => simp at done

def leaveAt (user : RedemptionInfo) (index : Nat) (info : PositionRedemption) (left : Nat) :
    RedemptionInfo :=
  ⟨user.positionOwner, user.positionInfos.set index { info with remainingLoanRepayment := left }⟩

theorem optedIds_leaveAt {user : RedemptionInfo} {info : PositionRedemption} {left : Nat}
    (found : user.positionInfos[index]? = some info) :
    optedIds (leaveAt user index info left) = optedIds user :=
  ListEdit.map_set_same PositionRedemption.positionId found rfl

theorem redeemPosition_lists {entry : PositionRedemption × Nat}
    (done : redeemPosition deps env basket discountRatio premium userIndex loop entry = .ok loop') :
    EntryRedeemed premium userIndex entry.2 loop loop' ∧
      ∀ other, other ≠ premium → usersAt loop'.s other = usersAt loop.s other := by
  simp only [redeemPosition, bind_eq_ok] at done
  obtain ⟨_, -, hrest⟩ := done
  split at hrest
  case isTrue =>
    obtain ⟨hremoved, hstate⟩ := removeRedemption_spec hrest
    refine ⟨.restricted hremoved ?_, fun other _ => ?_⟩
    · rw [hstate]
    · rw [hstate]
  case isFalse =>
    simp only [bind_eq_ok, pure_eq_ok, liftStd_eq_ok, index_eq_ok, setIndex_eq_ok] at hrest
    obtain ⟨_, -, _, -, _, -, _, -, left, -, info, hinfo, _, ⟨hlt, rfl⟩, loop₁, hloop₁,
      users, husers,
      _, -, _, -, ⟨s₁, sends⟩, hsends, _, -, debtLeft, -, loop₂, hloop₂, s₂, hupdate, rfl⟩ := hrest
    have hfirst : (loop₁.user = leaveAt loop.user entry.2 info left ∧ loop₁.users = loop.users ∨
        Removing userIndex entry.2 (leaveAt loop.user entry.2 info left) loop.users loop₁.user
          loop₁.users) ∧ loop₁.s.redemptionOptIn = loop.s.redemptionOptIn := by
      split at hloop₁
      case isTrue =>
        obtain ⟨hremoved, hstate⟩ := removeRedemption_spec hloop₁
        refine ⟨.inr hremoved, ?_⟩
        rw [hstate]
      case isFalse =>
        obtain rfl := pure_eq_ok.mp hloop₁
        exact ⟨.inl ⟨rfl, rfl⟩, rfl⟩
    have hsaved : WritesBack userIndex loop₁.user loop₁.users users := by
      split at husers
      case isTrue hnil =>
        obtain rfl := pure_eq_ok.mp husers
        exact .inl ⟨List.isEmpty_iff.mp hnil, List.isEmpty_iff.mp hnil⟩
      case isFalse hne =>
        obtain ⟨hin, rfl⟩ := setIndex_eq_ok.mp husers
        exact .inr ⟨fun hnil => hne (List.isEmpty_iff.mpr hnil), hin, rfl⟩
    have hsecond : (loop₂.user = loop₁.user ∧ loop₂.users = users ∨
        Removing userIndex entry.2 loop₁.user users loop₂.user loop₂.users) ∧ loop₂.s = s₁ := by
      split at hloop₂
      case isTrue => exact ⟨.inr (removeRedemption_spec hloop₂).1, (removeRedemption_spec hloop₂).2⟩
      case isFalse =>
        obtain rfl := pure_eq_ok.mp hloop₂
        exact ⟨.inl ⟨rfl, rfl⟩, rfl⟩
    have hlast : s₂.redemptionOptIn = loop.s.redemptionOptIn.insert premium users := by
      rw [updatePosition_optIn hupdate, hsecond.2, redeemAssets_optIn hsends, hfirst.2]
    refine ⟨.redeemed (leaveAt loop.user entry.2 info left) loop₁.user loop₁.users users ?_ rfl
      (optedIds_leaveAt hinfo) hfirst.1 hsaved ?_ hsecond.1, ?_⟩
    · simpa [optedIds] using hlt
    · simp only [usersAt, hlast, AList.lookup_insert, Option.getD_some]
    · intro other hne
      simp only [usersAt, hlast, AList.lookup_insert_ne hne]

/-! ## Lengths -/

theorem Removing.length {user user' : RedemptionInfo} {users users' : List RedemptionInfo}
    (removed : Removing userIndex index user users user' users') :
    (optedIds user').length + 1 = (optedIds user).length := by
  obtain ⟨inside, -, ids, -⟩ := removed
  rw [ids, List.length_eraseIdx_of_lt inside]
  omega

theorem WritesBack.length {user : RedemptionInfo} {users users' : List RedemptionInfo}
    (saved : WritesBack userIndex user users users') : users'.length = users.length := by
  rcases saved with ⟨rfl, rfl⟩ | ⟨-, -, rfl⟩
  · rfl
  · exact List.length_set

theorem EntryRedeemed.inside (entry : EntryRedeemed premium userIndex index loop loop') :
    index < (optedIds loop.user).length := by
  cases entry with
  | restricted removed _ =>
    obtain ⟨inside, -⟩ := removed
    exact inside
  | redeemed _ _ _ _ inside => exact inside

theorem EntryRedeemed.shrinks (entry : EntryRedeemed premium userIndex index loop loop') :
    (optedIds loop'.user).length ≤ (optedIds loop.user).length := by
  cases entry with
  | restricted removed _ =>
    have hlength := removed.length
    omega
  | redeemed user₀ user₁ users₁ users₂ _ _ ids first _ _ second =>
    have hfirst : (optedIds user₁).length ≤ (optedIds user₀).length := by
      rcases first with ⟨rfl, -⟩ | removed
      · exact Nat.le_refl _
      · have hlength := removed.length
        omega
    have hsecond : (optedIds loop'.user).length ≤ (optedIds user₁).length := by
      rcases second with ⟨hsame, -⟩ | removed
      · rw [hsame]
      · have hlength := removed.length
        omega
    rw [← ids]
    exact hsecond.trans hfirst

/-- A position that is visited and stays: the record is written back with the same
    positions. -/
structure Stays (premium userIndex : Nat) (loop loop' : RedeemLoop) : Prop where
  owner : loop'.user.positionOwner = loop.user.positionOwner
  ids : optedIds loop'.user = optedIds loop.user
  saved : WritesBack userIndex loop'.user loop.users loop'.users
  stored : usersAt loop'.s premium = loop'.users

theorem EntryRedeemed.stays (entry : EntryRedeemed premium userIndex index loop loop')
    (whole : (optedIds loop.user).length ≤ (optedIds loop'.user).length) :
    Stays premium userIndex loop loop' := by
  cases entry with
  | restricted removed _ =>
    have hlength := removed.length
    omega
  | redeemed user₀ user₁ users₁ users₂ _ owner ids first saved stored second =>
    rw [← ids] at whole
    rcases first with ⟨rfl, rfl⟩ | removed
    · rcases second with ⟨hsame, hlast⟩ | removed
      · refine ⟨?_, ?_, ?_, ?_⟩
        · rw [hsame, owner]
        · rw [hsame, ids]
        · rw [hsame, hlast]
          exact saved
        · rw [hlast, stored]
      · have hlength := removed.length
        omega
    · have hlength := removed.length
      rcases second with ⟨hsame, -⟩ | removed'
      · rw [hsame] at whole
        omega
      · have hlength' := removed'.length
        omega

theorem redeemPositions_reach : ∀ {infos : List PositionRedemption} {start : Nat}
    {loop loop' : RedeemLoop}, infos ≠ [] →
      (infos.zipIdx start).foldlM
        (redeemPosition deps env basket discountRatio premium userIndex) loop = .ok loop' →
      start + infos.length ≤ (optedIds loop.user).length := by
  intro infos
  induction infos with
  | nil => exact fun hne => absurd rfl hne
  | cons info rest ih =>
    intro start loop loop' _ done
    rw [List.zipIdx_cons] at done
    simp only [List.foldlM_cons, bind_eq_ok] at done
    obtain ⟨mid, hstep, hrest⟩ := done
    have entry := (redeemPosition_lists hstep).1
    have hinside := entry.inside
    have hshrinks := entry.shrinks
    rw [List.length_cons]
    by_cases hnil : rest = []
    · subst hnil
      simp only [List.length_nil]
      simp only at hinside
      omega
    · have hreach := ih hnil hrest
      omega

end Entry

/-! ## One user -/

/-- The same users, each with a part of the positions, at least one. -/
structure Trimmed (users users' : List RedemptionInfo) : Prop where
  length : users'.length = users.length
  narrowed : ∀ (k : Nat) (user user' : RedemptionInfo), users[k]? = some user →
    users'[k]? = some user' → Narrowed user user'

namespace Trimmed

variable {users users' : List RedemptionInfo} {user user' : RedemptionInfo} {k : Nat}

theorem refl (filled : ∀ user ∈ users, optedIds user ≠ []) : Trimmed users users := by
  refine ⟨rfl, fun k user user' found found' => ?_⟩
  obtain rfl := Option.some.inj (found.symm.trans found')
  exact .refl (filled user (List.mem_of_getElem? found))

theorem set (trimmed : Trimmed users users') (found : users[k]? = some user)
    (narrowed : Narrowed user user') : Trimmed users (users'.set k user') := by
  refine ⟨List.length_set.trans trimmed.length, fun j other other' hother hother' => ?_⟩
  have hlt : k < users'.length := by
    rw [trimmed.length]
    exact (List.getElem?_eq_some_iff.mp found).1
  by_cases same : k = j
  · subst same
    rw [List.getElem?_set_self hlt] at hother'
    obtain rfl := Option.some.inj (found.symm.trans hother)
    obtain rfl := Option.some.inj hother'
    exact narrowed
  · rw [List.getElem?_set_ne same] at hother'
    exact trimmed.narrowed j other other' hother hother'

theorem source (trimmed : Trimmed users users') (mem : user' ∈ users') :
    ∃ user ∈ users, Narrowed user user' := by
  obtain ⟨k, hk⟩ := List.getElem?_of_mem mem
  have hlt : k < users.length := by
    rw [← trimmed.length]
    exact (List.getElem?_eq_some_iff.mp hk).1
  exact ⟨users[k], List.getElem_mem hlt, trimmed.narrowed k _ _ (List.getElem?_eq_getElem hlt) hk⟩

theorem owners (trimmed : Trimmed users users') :
    users'.map (·.positionOwner) = users.map (·.positionOwner) := by
  refine List.ext_getElem (by simp [trimmed.length]) fun k hk hk' => ?_
  rw [List.length_map] at hk hk'
  rw [List.getElem_map, List.getElem_map]
  exact (trimmed.narrowed k _ _ (List.getElem?_eq_getElem hk') (List.getElem?_eq_getElem hk)).owner

theorem thinned (trimmed : Trimmed users users') : Thinned users users' := by
  refine ⟨fun kept => ⟨?_, ?_, ?_⟩, ?_⟩
  · rw [trimmed.owners]
    exact kept.owners
  · intro user' mem
    obtain ⟨user, -, narrowed⟩ := trimmed.source mem
    exact narrowed.filled
  · intro user' mem
    obtain ⟨user, huser, narrowed⟩ := trimmed.source mem
    exact (kept.ids user huser).sublist narrowed.ids
  · rintro ⟨owner, id⟩ mem
    obtain ⟨user', hmem, howner, hid⟩ := mem_entriesOf.mp mem
    obtain ⟨user, huser, narrowed⟩ := trimmed.source hmem
    exact mem_entriesOf.mpr ⟨user, huser, narrowed.owner.symm.trans howner, narrowed.ids.subset hid⟩

end Trimmed

/-- What the walk over a user's positions did to the list of the premium, which was
    `users` when the walk over them began. -/
structure UserRedeemed (users : List RedemptionInfo) (premium i : Nat) (loop loop' : RedeemLoop) :
    Prop where
  inside : loop.users = [] ∨ i < loop.users.length
  shrinks : loop'.users.length ≤ loop.users.length
  byOne : loop.users.length ≤ loop'.users.length + 1
  lists : Trimmed users loop.users → Trimmed users (usersAt loop.s premium) →
    Trimmed users loop'.users ∧ Trimmed users (usersAt loop'.s premium) ∨
      loop'.users.length < users.length ∧
        (i + 1 < users.length ∨ Thinned users (usersAt loop'.s premium))

section User

variable {deps : Deps} {env : Env} {basket : Basket} {discountRatio : Decimal}
  {premium i index : Nat} {loop loop' : RedeemLoop} {users : List RedemptionInfo}
  {user : RedemptionInfo}

theorem Trimmed.ne_nil {users' : List RedemptionInfo} (trimmed : Trimmed users users')
    (place : users[i]? = some user) : users' ≠ [] := by
  intro hnil
  have hlt := (List.getElem?_eq_some_iff.mp place).1
  have hlength := trimmed.length
  rw [hnil, List.length_nil] at hlength
  omega

theorem EntryRedeemed.last (place : users[i]? = some user)
    (owner : loop.user.positionOwner = user.positionOwner)
    (ids : optedIds loop.user = optedIds user) (final : index + 1 = (optedIds user).length)
    (before : index = 0 ∨ loop.users = [] ∨ i < loop.users.length)
    (entry : EntryRedeemed premium i index loop loop') :
    UserRedeemed users premium i loop loop' := by
  have hplace : i < users.length := (List.getElem?_eq_some_iff.mp place).1
  have hfilled : optedIds user ≠ [] := by
    intro hnil
    rw [hnil, List.length_nil] at final
    omega
  cases entry with
  | restricted removed stored =>
    have hlength := removed.length
    obtain ⟨_, howner, hids, ⟨hnil, hin, husers⟩ | ⟨hne, husers⟩⟩ := removed
    · have herased : loop'.users.length + 1 = loop.users.length := by
        rw [husers, List.length_eraseIdx_of_lt hin]
        omega
      refine ⟨.inr hin, by omega, by omega, fun trimmed kept => .inr ⟨?_, .inr ?_⟩⟩
      · have hall := trimmed.length
        omega
      · rw [stored]
        exact kept.thinned
    · have hlater : index ≠ 0 := by
        rintro rfl
        rw [ids] at hlength
        exact hne (List.length_eq_zero_iff.mp (by omega))
      refine ⟨before.resolve_left hlater, by rw [husers], by rw [husers]; omega,
        fun trimmed kept => .inl ⟨?_, ?_⟩⟩
      · rw [husers]
        exact trimmed
      · rw [stored]
        exact kept
  | redeemed user₀ user₁ users₁ users₂ _ owner₀ ids₀ first saved stored second =>
    rw [← owner₀] at owner
    rw [← ids₀] at ids
    have hnarrowed : Narrowed user user₀ := ⟨owner, by rw [ids], by rw [ids]; exact hfilled⟩
    rcases first with ⟨rfl, rfl⟩ | removed
    · -- the record is written back whole
      have hsaved := saved.length
      have hinside : loop.users = [] ∨ i < loop.users.length :=
        saved.imp (fun h => h.1) (fun h => h.2.1)
      have hwritten : Trimmed users loop.users → Trimmed users users₂ := by
        intro trimmed
        rcases saved with ⟨hempty, -⟩ | ⟨-, -, hset⟩
        · exact absurd hempty (trimmed.ne_nil place)
        · rw [hset]
          exact trimmed.set place hnarrowed
      rcases second with ⟨-, hlast⟩ | ⟨_, _, _, ⟨_, hin, hlast⟩ | ⟨_, hlast⟩⟩
      · refine ⟨hinside, by rw [hlast, hsaved], by rw [hlast, hsaved]; omega,
          fun trimmed _ => .inl ⟨?_, ?_⟩⟩
        · rw [hlast]
          exact hwritten trimmed
        · rw [stored]
          exact hwritten trimmed
      · have herased : loop'.users.length + 1 = users₂.length := by
          rw [hlast, List.length_eraseIdx_of_lt hin]
          omega
        refine ⟨hinside, by omega, by omega, fun trimmed _ => .inr ⟨?_, .inr ?_⟩⟩
        · have hall := trimmed.length
          omega
        · rw [stored]
          exact (hwritten trimmed).thinned
      · refine ⟨hinside, by rw [hlast, hsaved], by rw [hlast, hsaved]; omega,
          fun trimmed _ => .inl ⟨?_, ?_⟩⟩
        · rw [hlast]
          exact hwritten trimmed
        · rw [stored]
          exact hwritten trimmed
    · -- the last position was exhausted, so it cannot be taken out twice
      have hlength := removed.length
      rw [ids] at hlength
      obtain ⟨_, owner₁, ids₁, list⟩ := removed
      have hsame : loop'.users = users₂ := by
        rcases second with ⟨-, hlast⟩ | ⟨hagain, _⟩
        · exact hlast
        · omega
      have hsaved := saved.length
      rcases list with ⟨hnil, hin, rfl⟩ | ⟨hne, rfl⟩
      · have herased : (loop.users.eraseIdx i).length + 1 = loop.users.length := by
          rw [List.length_eraseIdx_of_lt hin]
          omega
        have hlast := congrArg List.length hsame
        refine ⟨.inr hin, by omega, by omega, fun trimmed _ => .inr ⟨?_, ?_⟩⟩
        · have hall := trimmed.length
          omega
        · rcases saved with ⟨-, hempty⟩ | ⟨-, hafter, -⟩
          · right
            rw [stored, hempty]
            exact .nil users
          · left
            have hall := trimmed.length
            omega
      · have hwritten : Trimmed users loop.users → Trimmed users users₂ := by
          intro trimmed
          rcases saved with ⟨hempty, -⟩ | ⟨-, -, hset⟩
          · exact absurd hempty (trimmed.ne_nil place)
          · rw [hset]
            refine trimmed.set place ⟨owner₁.trans owner, ?_, hne⟩
            rw [ids₁, ids]
            exact List.eraseIdx_sublist _ _
        refine ⟨saved.imp (fun h => h.1) (fun h => h.2.1), by rw [hsame, hsaved],
          by rw [hsame, hsaved]; omega, fun trimmed _ => .inl ⟨?_, ?_⟩⟩
        · rw [hsame]
          exact hwritten trimmed
        · rw [stored]
          exact hwritten trimmed

theorem redeemPositions_lists (place : users[i]? = some user) :
    ∀ {infos : List PositionRedemption} {start : Nat} {loop loop' : RedeemLoop}, infos ≠ [] →
      start + infos.length = (optedIds user).length →
      loop.user.positionOwner = user.positionOwner → optedIds loop.user = optedIds user →
      (start = 0 ∨ loop.users = [] ∨ i < loop.users.length) →
      (infos.zipIdx start).foldlM (redeemPosition deps env basket discountRatio premium i) loop =
        .ok loop' →
      UserRedeemed users premium i loop loop' ∧
        ∀ other, other ≠ premium → usersAt loop'.s other = usersAt loop.s other := by
  intro infos
  induction infos with
  | nil => exact fun hne => absurd rfl hne
  | cons info rest ih =>
    intro start loop loop' _ count owner ids before done
    rw [List.zipIdx_cons] at done
    simp only [List.foldlM_cons, bind_eq_ok] at done
    obtain ⟨mid, hstep, hrest⟩ := done
    obtain ⟨entry, hothers⟩ := redeemPosition_lists hstep
    rw [List.length_cons] at count
    by_cases hnil : rest = []
    · subst hnil
      obtain rfl : mid = loop' := by simpa using hrest
      exact ⟨entry.last place owner ids (by simpa using count) before, hothers⟩
    · -- a position before the last has to stay, or the walk would not reach the last
      have hreach := redeemPositions_reach hnil hrest
      have stays := entry.stays (by rw [ids]; omega)
      have hlength := stays.saved.length
      have hinside : loop.users = [] ∨ i < loop.users.length :=
        stays.saved.imp (fun h => h.1) (fun h => h.2.1)
      have hnext : mid.users = [] ∨ i < mid.users.length := by
        rw [hlength]
        exact hinside.imp_left fun hempty => List.length_eq_zero_iff.mp (by simp [hlength, hempty])
      obtain ⟨last, hothers'⟩ := ih hnil (by omega) (stays.owner.trans owner)
        (stays.ids.trans ids) (.inr hnext) hrest
      refine ⟨⟨hinside, ?_, ?_, fun trimmed _ => ?_⟩, fun other hne =>
        (hothers' other hne).trans (hothers other hne)⟩
      · rw [← hlength]
        exact last.shrinks
      · rw [← hlength]
        exact last.byOne
      · have hmid : Trimmed users mid.users := by
          rcases stays.saved with ⟨hempty, -⟩ | ⟨-, -, hset⟩
          · exact absurd hempty (trimmed.ne_nil place)
          · rw [hset]
            refine trimmed.set place ⟨stays.owner.trans owner, ?_, ?_⟩
            · rw [stays.ids, ids]
            · rw [stays.ids, ids]
              intro hempty
              rw [hempty, List.length_nil] at count
              omega
        exact last.lists hmid (by rw [stays.stored]; exact hmid)

/-! ## One premium -/

theorem redeemUser_lists (place : users[i]? = some user) (filled : optedIds user ≠ [])
    (done : redeemUser deps env basket discountRatio premium loop (user, i) = .ok loop') :
    UserRedeemed users premium i loop loop' ∧
      ∀ other, other ≠ premium → usersAt loop'.s other = usersAt loop.s other := by
  have hne : user.positionInfos ≠ [] := by
    intro hnil
    exact filled (by simp [optedIds, hnil])
  obtain ⟨redeemed, hothers⟩ : UserRedeemed users premium i { loop with user := user } loop' ∧
      ∀ other, other ≠ premium → usersAt loop'.s other = usersAt loop.s other :=
    redeemPositions_lists place hne (by simp [optedIds]) rfl rfl (.inl rfl) done
  exact ⟨⟨redeemed.inside, redeemed.shrinks, redeemed.byOne, redeemed.lists⟩, hothers⟩

theorem redeemUsers_stuck (filled : ∀ user ∈ users, optedIds user ≠ []) :
    ∀ {rest : List RedemptionInfo} {i : Nat} {loop loop' : RedeemLoop}, users.drop i = rest →
      rest ≠ [] → loop.users.length < users.length → users.length ≤ loop.users.length + i →
      (rest.zipIdx i).foldlM (redeemUser deps env basket discountRatio premium) loop ≠
        .ok loop' := by
  intro rest
  induction rest with
  | nil => exact fun _ hne => absurd rfl hne
  | cons user rest ih =>
    intro i loop loop' hdrop _ short left done
    have place : users[i]? = some user := by
      rw [← List.head?_drop, hdrop]
      rfl
    have hlt := (List.getElem?_eq_some_iff.mp place).1
    have hbehind : users.drop (i + 1) = rest := by
      rw [← List.tail_drop, hdrop]
      rfl
    rw [List.zipIdx_cons] at done
    simp only [List.foldlM_cons, bind_eq_ok] at done
    obtain ⟨mid, hstep, hrest⟩ := done
    obtain ⟨redeemed, -⟩ := redeemUser_lists place (filled user (List.mem_of_getElem? place)) hstep
    have hinside : i < loop.users.length := by
      rcases redeemed.inside with hempty | hinside
      · rw [hempty, List.length_nil] at left
        omega
      · exact hinside
    have hshrinks := redeemed.shrinks
    have hbyOne := redeemed.byOne
    have hcount := congrArg List.length hbehind
    rw [List.length_drop] at hcount
    by_cases hnil : rest = []
    · rw [hnil, List.length_nil] at hcount
      omega
    · exact ih hbehind hnil (by omega) (by omega) hrest

theorem redeemUsers_lists (filled : ∀ user ∈ users, optedIds user ≠ []) :
    ∀ {rest : List RedemptionInfo} {i : Nat} {loop loop' : RedeemLoop}, users.drop i = rest →
      Trimmed users loop.users → Trimmed users (usersAt loop.s premium) →
      (rest.zipIdx i).foldlM (redeemUser deps env basket discountRatio premium) loop = .ok loop' →
      Thinned users (usersAt loop'.s premium) ∧
        ∀ other, other ≠ premium → usersAt loop'.s other = usersAt loop.s other := by
  intro rest
  induction rest with
  | nil =>
    intro i loop loop' _ _ kept done
    obtain rfl : loop = loop' := by simpa using done
    exact ⟨kept.thinned, fun _ _ => rfl⟩
  | cons user rest ih =>
    intro i loop loop' hdrop trimmed kept done
    have place : users[i]? = some user := by
      rw [← List.head?_drop, hdrop]
      rfl
    have hbehind : users.drop (i + 1) = rest := by
      rw [← List.tail_drop, hdrop]
      rfl
    have hcount := congrArg List.length hbehind
    rw [List.length_drop] at hcount
    rw [List.zipIdx_cons] at done
    simp only [List.foldlM_cons, bind_eq_ok] at done
    obtain ⟨mid, hstep, hrest⟩ := done
    obtain ⟨redeemed, hothers⟩ :=
      redeemUser_lists place (filled user (List.mem_of_getElem? place)) hstep
    rcases redeemed.lists trimmed kept with ⟨htrimmed, hkept⟩ | ⟨hshort, hlast⟩
    · obtain ⟨hthin, hothers'⟩ := ih hbehind htrimmed hkept hrest
      exact ⟨hthin, fun other hne => (hothers' other hne).trans (hothers other hne)⟩
    · by_cases hnil : rest = []
      · subst hnil
        obtain rfl : mid = loop' := by simpa using hrest
        rw [List.length_nil] at hcount
        exact ⟨hlast.resolve_left (by omega), hothers⟩
      · have hall := trimmed.length
        have hbyOne := redeemed.byOne
        exact absurd hrest (redeemUsers_stuck filled hbehind hnil hshort (by omega))

theorem redeemPremium_lists (filled : ∀ user ∈ usersAt loop.s premium, optedIds user ≠ [])
    (done : redeemPremium deps env basket loop premium = .ok loop') :
    Thinned (usersAt loop.s premium) (usersAt loop'.s premium) ∧
      ∀ other, other ≠ premium → usersAt loop'.s other = usersAt loop.s other := by
  simp only [redeemPremium, bind_eq_ok] at done
  obtain ⟨_, -, hrest⟩ := done
  split at hrest
  case isTrue =>
    obtain rfl := pure_eq_ok.mp hrest
    exact ⟨.refl _, fun _ _ => rfl⟩
  case isFalse =>
    have hstart : Trimmed (usersAt loop.s premium)
        ({ loop with users := usersAt loop.s premium } : RedeemLoop).users := .refl filled
    have hstored : Trimmed (usersAt loop.s premium) (usersAt
        ({ loop with users := usersAt loop.s premium } : RedeemLoop).s premium) := .refl filled
    have hlists := redeemUsers_lists filled List.drop_zero hstart hstored hrest
    exact hlists

end User

/-! ## The whole redemption -/

theorem redeemForCollateral_lists {deps : Deps} {env : Env} {info : MessageInfo}
    {maxCollateralPremium : Nat} {s s' : State} {response : Response OutMsg}
    (kept : ∀ premium, Kept (usersAt s premium))
    (done : redeemForCollateral deps env info maxCollateralPremium s = .ok (s', response)) :
    ∀ premium, Thinned (usersAt s premium) (usersAt s' premium) := by
  simp only [redeemForCollateral, bind_eq_ok, pure_eq_ok, Prod.mk.injEq] at done
  obtain ⟨_, -, _, -, loop, hloop, _, -, _, -, rfl, -⟩ := done
  refine foldlM_keeps (fun loop : RedeemLoop =>
    ∀ premium, Thinned (usersAt s premium) (usersAt loop.s premium))
    (fun loop premium loop' hinv hstep other => ?_) _ _ _ (fun premium => .refl _) hloop
  have hfilled := ((hinv premium).kept (kept premium)).filled
  obtain ⟨hthin, hothers⟩ := redeemPremium_lists hfilled hstep
  by_cases same : other = premium
  · subst same
    exact (hinv other).trans hthin
  · rw [hothers other same]
    exact hinv other

end Membrane.Cdp
