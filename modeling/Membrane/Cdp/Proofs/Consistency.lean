import Membrane.Cdp.Proofs.Frame
import Membrane.Cdp.Proofs.Removal
import Membrane.Cdp.Proofs.Trimming

/-!
# Opt-ins that refer to positions

`REDEMPTION_OPT_IN` is an index beside `POSITIONS`. An edit that moves a position to
another premium adds it there first and takes it out of the premiums it then still goes
through; and the calls that remove positions do not look at the index.
-/

namespace Membrane.Cdp

open Outcome

/-- A user has opted in a position at a premium. -/
def OptedIn (s : State) (premium : Nat) (owner : Addr) (id : Nat) : Prop :=
  (owner, id) ∈ entriesOf (usersAt s premium)

/-- Every opt-in is of a position that its owner has, and no position is listed twice. -/
structure ConsistentOptIns (s : State) : Prop where
  existing : ∀ premium owner id, OptedIn s premium owner id →
    (positionAt s.positions owner id).isSome = true
  once : ∀ premiums : List Nat, premiums.Nodup →
    (premiums.flatMap fun premium => entriesOf (usersAt s premium)).Nodup

/-- The lists are well kept, and no position is at two premiums. -/
structure SoundOptIns (s : State) : Prop where
  kept : ∀ premium, Kept (usersAt s premium)
  apart : ∀ premium premium' owner id, OptedIn s premium owner id → OptedIn s premium' owner id →
    premium = premium'
  existing : ∀ premium owner id, OptedIn s premium owner id →
    (positionAt s.positions owner id).isSome = true

theorem SoundOptIns.consistent {s : State} (sound : SoundOptIns s) : ConsistentOptIns s := by
  refine ⟨sound.existing, ?_⟩
  intro premiums distinct
  refine List.nodup_flatMap.mpr ⟨fun premium _ => (sound.kept premium).nodup, ?_⟩
  refine distinct.imp fun {premium premium'} hne => ?_
  intro entry hentry hentry'
  exact hne (sound.apart premium premium' entry.1 entry.2 hentry hentry')

theorem SameOptIns.usersAt_eq {s s' : State} (same : SameOptIns s s') (premium : Nat) :
    usersAt s' premium = usersAt s premium := by
  unfold usersAt
  rw [same]

theorem SameOptIns.optedIn {s s' : State} (same : SameOptIns s s') {premium id : Nat}
    {owner : Addr} :
    OptedIn s' premium owner id ↔ OptedIn s premium owner id := by
  unfold OptedIn
  rw [same.usersAt_eq premium]

theorem SoundOptIns.thinned {s s' : State} (sound : SoundOptIns s)
    (thin : ∀ premium, Thinned (usersAt s premium) (usersAt s' premium))
    (keeps : ∀ premium owner id, OptedIn s premium owner id →
      (positionAt s.positions owner id).isSome = true →
      (positionAt s'.positions owner id).isSome = true) : SoundOptIns s' := by
  have hold : ∀ premium owner id, OptedIn s' premium owner id → OptedIn s premium owner id :=
    fun premium owner id => (thin premium).fewer (owner, id)
  refine ⟨fun premium => (thin premium).kept (sound.kept premium), ?_, ?_⟩
  · intro premium premium' owner id hopted hopted'
    exact sound.apart premium premium' owner id (hold _ _ _ hopted) (hold _ _ _ hopted')
  · intro premium owner id hopted
    have hbefore := hold premium owner id hopted
    exact keeps premium owner id hbefore (sound.existing premium owner id hbefore)

theorem SoundOptIns.frame {s s' : State} (sound : SoundOptIns s) (same : SameOptIns s s')
    (keeps : ∀ premium owner id, OptedIn s premium owner id →
      (positionAt s.positions owner id).isSome = true →
      (positionAt s'.positions owner id).isSome = true) : SoundOptIns s' := by
  refine sound.thinned (fun premium => ?_) keeps
  rw [same.usersAt_eq premium]
  exact .refl _

theorem SoundOptIns.keepsAll {s s' : State} (sound : SoundOptIns s) (same : SameOptIns s s')
    (keeps : KeepsAll s.positions s'.positions) : SoundOptIns s' :=
  sound.frame same fun _ owner id _ present => keeps owner id present

theorem SoundOptIns.keepsOthers {s s' : State} {owner : Addr} {id : Nat} (sound : SoundOptIns s)
    (same : SameOptIns s s') (keeps : KeepsOthers s.positions s'.positions owner id)
    (out : ∀ premium, ¬ OptedIn s premium owner id) : SoundOptIns s' := by
  refine sound.frame same fun premium owner' id' hopted present => ?_
  refine keeps owner' id' ?_ present
  by_cases howner : owner' = owner
  · by_cases hid : id' = id
    · rw [howner, hid] at hopted
      exact absurd hopted (out premium)
    · exact .inr hid
  · exact .inl howner

/-! ## Edits -/

/-- Positions can move to a premium: a position that is opted in at another is at a lower
    one, and the user has nothing yet at the premium it moves to. -/
def MovesUp (s : State) (sender : Addr) (ids : List Nat) (premium : Nat) : Prop :=
  ∀ id ∈ ids, ∀ old, OptedIn s old sender id → old = premium ∨
    old < premium ∧ ∀ user ∈ usersAt s premium, user.positionOwner ≠ sender

section Edit

variable {s s' : State} {sender : Addr} {ids : List Nat} {edit : RedemptionEdit} {byContract : Bool}

/-- What a successful edit did: it checked, added, and edited what was left. -/
structure Edited (s s' : State) (sender : Addr) (ids : List Nat) (edit : RedemptionEdit)
    (mid : State) (left : List Nat) : Prop where
  premium : ∀ premium, edit.updatedPremium = some premium → premium ≤ 99
  nonempty : ids ≠ []
  distinct : ids.Nodup
  owned : ∀ id ∈ ids, ∃ i position, getTargetPosition s sender id = .ok (i, position)
  added : mid = s ∧ left = ids ∧ (edit.redeemable = some false ∨ edit.updatedPremium = none) ∨
    edit.redeemable ≠ some false ∧ ∃ premium, edit.updatedPremium = some premium ∧
      Additions s mid sender premium ids left
  only : OnlyOptIn s s'
  edited : ∃ acc, (List.range 100).foldlM (editPremium sender edit) (mid, left) = .ok acc ∧
    acc.1 = s'

theorem checkRedemptionEdit_spec
    (done : checkRedemptionEdit s sender ids edit byContract = .ok ⟨⟩) :
    (∀ premium, edit.updatedPremium = some premium → premium ≤ 99) ∧ ids ≠ [] ∧ ids.Nodup ∧
      ∀ id ∈ ids, ∃ i position, getTargetPosition s sender id = .ok (i, position) := by
  simp only [checkRedemptionEdit, bind_eq_ok, guardErr_eq_ok] at done
  obtain ⟨_, hpremium, _, -, _, hempty, _, hdistinct, hall⟩ := done
  refine ⟨?_, ?_, ?_, ?_⟩
  · intro premium hsome
    rw [hsome] at hpremium
    simpa using hpremium
  · intro hnil
    exact hempty (by rw [hnil]; rfl)
  · exact Classical.not_not.mp hdistinct
  · intro id hmem
    have heach := forM_each hall id hmem
    simp only [bind_eq_ok] at heach
    obtain ⟨⟨i, position⟩, hfound, -⟩ := heach
    exact ⟨i, position, hfound⟩

theorem editRedemptionInfo_spec (done : editRedemptionInfo s sender ids edit byContract = .ok s') :
    ∃ mid left, Edited s s' sender ids edit mid left := by
  have honly := editRedemptionInfo_onlyOptIn done
  simp only [editRedemptionInfo, bind_eq_ok, pure_eq_ok] at done
  obtain ⟨_, hcheck, ⟨mid, left⟩, hadd, acc, hedit, rfl⟩ := done
  obtain ⟨hpremium, hne, hdistinct, howned⟩ := checkRedemptionEdit_spec hcheck
  refine ⟨mid, left, hpremium, hne, hdistinct, howned, ?_, honly, acc, hedit, rfl⟩
  split at hadd
  case isTrue hremoves =>
    obtain ⟨rfl, rfl⟩ := Prod.mk.inj (pure_eq_ok.mp hadd)
    exact .inl ⟨rfl, rfl, .inl hremoves⟩
  case isFalse hkeeps =>
    split at hadd
    case h_1 premium hsome =>
      exact .inr ⟨hkeeps, premium, hsome, addRedemptions_spec hadd⟩
    case h_2 hnone =>
      simp only [bind_eq_ok, pure_eq_ok, Prod.mk.injEq] at hadd
      obtain ⟨_, -, rfl, rfl⟩ := hadd
      exact .inl ⟨rfl, rfl, .inr hnone⟩

theorem Additions.kept {mid : State} {premium : Nat} {left : List Nat} (nonempty : ids ≠ [])
    (distinct : ids.Nodup) (added : Additions s mid sender premium ids left)
    (kept : Kept (usersAt s premium)) : Kept (usersAt mid premium) := by
  cases added with
  | grown i user user' found added written _ =>
    obtain ⟨hplace, -⟩ := findRedemptionUser_some found
    have hmem : user ∈ usersAt s premium := List.mem_of_getElem? hplace
    rw [written.here]
    refine ⟨?_, ?_, ?_⟩
    · rw [ListEdit.map_set_same RedemptionInfo.positionOwner hplace added.owner]
      exact kept.owners
    · intro other hother
      rcases List.mem_or_eq_of_mem_set hother with hold | rfl
      · exact kept.filled other hold
      · obtain ⟨id, hid⟩ := List.exists_mem_of_ne_nil _ (kept.filled user hmem)
        exact List.ne_nil_of_mem (added.more id hid)
    · intro other hother
      rcases List.mem_or_eq_of_mem_set hother with hold | rfl
      · exact kept.ids other hold
      · exact added.distinct (kept.ids user hmem)
  | new user absent owner opted written _ =>
    rw [written.here]
    refine ⟨?_, ?_, ?_⟩
    · rw [List.map_append, List.map_cons, List.map_nil, List.nodup_append]
      refine ⟨kept.owners, List.nodup_singleton _, ?_⟩
      intro a ha b hb heq
      obtain ⟨stored, hstored, rfl⟩ := List.mem_map.mp ha
      rw [List.mem_singleton.mp hb, owner] at heq
      exact absent stored hstored heq
    · intro other hother
      rcases List.mem_append.mp hother with hold | hnew
      · exact kept.filled other hold
      · rw [List.mem_singleton.mp hnew, opted]
        exact nonempty
    · intro other hother
      rcases List.mem_append.mp hother with hold | hnew
      · exact kept.ids other hold
      · rw [List.mem_singleton.mp hnew, opted]
        exact distinct

theorem Additions.others {mid : State} {premium : Nat} {left : List Nat}
    (added : Additions s mid sender premium ids left) :
    ∀ other, other ≠ premium → usersAt mid other = usersAt s other := by
  cases added with
  | grown _ _ _ _ _ written _ => exact written.others
  | new _ _ _ _ written _ => exact written.others

theorem Additions.named {mid : State} {premium : Nat} {left : List Nat}
    (added : Additions s mid sender premium ids left) {owner : Addr} {id : Nat}
    (opted : OptedIn mid premium owner id) :
    OptedIn s premium owner id ∨ owner = sender ∧ id ∈ ids := by
  obtain ⟨stored, hstored, howner, hid⟩ := mem_entriesOf.mp opted
  cases added with
  | grown i user user' found added written _ =>
    obtain ⟨hplace, hsender⟩ := findRedemptionUser_some found
    rw [written.here] at hstored
    rcases List.mem_or_eq_of_mem_set hstored with hold | rfl
    · exact .inl (mem_entriesOf.mpr ⟨stored, hold, howner, hid⟩)
    · rw [added.owner] at howner
      rcases added.new id hid with hbefore | hnew
      · exact .inl (mem_entriesOf.mpr ⟨user, List.mem_of_getElem? hplace, howner, hbefore⟩)
      · exact .inr ⟨howner.symm.trans hsender, hnew⟩
  | new user _ owner' opted' written _ =>
    rw [written.here] at hstored
    rcases List.mem_append.mp hstored with hold | hnew
    · exact .inl (mem_entriesOf.mpr ⟨stored, hold, howner, hid⟩)
    · obtain rfl := List.mem_singleton.mp hnew
      rw [opted'] at hid
      exact .inr ⟨howner.symm.trans owner', hid⟩

namespace Edited

variable {mid : State} {left : List Nat}

theorem midKept (edited : Edited s s' sender ids edit mid left)
    (kept : ∀ premium, Kept (usersAt s premium)) : ∀ premium, Kept (usersAt mid premium) := by
  intro premium
  rcases edited.added with ⟨rfl, -, -⟩ | ⟨-, next, -, added⟩
  · exact kept premium
  · by_cases same : premium = next
    · subst same
      exact added.kept edited.nonempty edited.distinct (kept premium)
    · rw [added.others premium same]
      exact kept premium

theorem kept (edited : Edited s s' sender ids edit mid left)
    (kept : ∀ premium, Kept (usersAt s premium)) : ∀ premium, Kept (usersAt s' premium) := by
  intro premium
  obtain ⟨acc, hfold, rfl⟩ := edited.edited
  have hmid := edited.midKept kept
  exact ((editPremiums_spec hmid hfold).thinned premium).kept (hmid premium)

theorem named (edited : Edited s s' sender ids edit mid left)
    (kept : ∀ premium, Kept (usersAt s premium)) {premium : Nat} {owner : Addr} {id : Nat}
    (opted : OptedIn s' premium owner id) :
    OptedIn s premium owner id ∨ edit.redeemable ≠ some false ∧
      edit.updatedPremium = some premium ∧ owner = sender ∧ id ∈ ids := by
  obtain ⟨acc, hfold, rfl⟩ := edited.edited
  have hmid := ((editPremiums_spec (edited.midKept kept) hfold).thinned premium).fewer _ opted
  rcases edited.added with ⟨rfl, -, -⟩ | ⟨hkeeps, next, hnext, added⟩
  · exact .inl hmid
  · by_cases same : premium = next
    · subst same
      exact (added.named hmid).imp_right fun ⟨howner, hid⟩ => ⟨hkeeps, hnext, howner, hid⟩
    · left
      unfold OptedIn
      rw [← added.others premium same]
      exact hmid

theorem leaves (edited : Edited s s' sender ids edit mid left) (sound : SoundOptIns s)
    {premium other id : Nat} (keeps : edit.redeemable ≠ some false)
    (moves : edit.updatedPremium = some premium) (up : MovesUp s sender ids premium)
    (mem : id ∈ ids) (different : other ≠ premium) : ¬ OptedIn s' other sender id := by
  intro opted
  have hbefore : OptedIn s other sender id := by
    rcases edited.named sound.kept opted with hold | ⟨-, hnext, -⟩
    · exact hold
    · exact absurd (Option.some.inj (hnext.symm.trans moves)) different
  obtain ⟨acc, hfold, rfl⟩ := edited.edited
  rcases up id mem other hbefore with hsame | ⟨hlower, habsent⟩
  · exact different hsame
  rcases edited.added with ⟨-, -, hremoves | hnone⟩ | ⟨-, next, hnext, added⟩
  · exact keeps hremoves
  · rw [moves] at hnone
    cases hnone
  · obtain rfl : premium = next := Option.some.inj (moves.symm.trans hnext)
    have hbound := edited.premium premium moves
    cases added with
    | grown _ user _ found _ _ _ =>
      obtain ⟨hplace, howner⟩ := findRedemptionUser_some found
      exact habsent user (List.mem_of_getElem? hplace) howner
    | new _ _ _ _ written hleft =>
      have hfolded := editPremiums_spec (edited.midKept sound.kept) hfold
      refine hfolded.moved other (by omega) ⟨keeps, premium, moves, Ne.symm different⟩ id
        (hleft ▸ mem) ?_ opted
      intro lower hless hopted _
      -- the position was at one premium only
      rw [written.others lower (by omega)] at hopted
      have hsame := sound.apart lower other sender id hopted hbefore
      omega

end Edited

theorem editRedemptionInfo_soundOptIns (sound : SoundOptIns s)
    (up : edit.redeemable ≠ some false → ∀ premium, edit.updatedPremium = some premium →
      MovesUp s sender ids premium)
    (done : editRedemptionInfo s sender ids edit byContract = .ok s') : SoundOptIns s' := by
  obtain ⟨mid, left, edited⟩ := editRedemptionInfo_spec done
  have hnew : ∀ premium premium' owner id, OptedIn s' premium owner id →
      OptedIn s' premium' owner id → OptedIn s premium owner id ∨ premium = premium' := by
    intro premium premium' owner id hopted hopted'
    rcases edited.named sound.kept hopted with hold | ⟨hkeeps, hmoves, rfl, hid⟩
    · exact .inl hold
    · right
      by_contra hne
      exact edited.leaves sound hkeeps hmoves (up hkeeps premium hmoves) hid (Ne.symm hne) hopted'
  refine ⟨edited.kept sound.kept, ?_, ?_⟩
  · intro premium premium' owner id hopted hopted'
    rcases hnew premium premium' owner id hopted hopted' with hold | hsame
    · rcases hnew premium' premium owner id hopted' hopted with hold' | hsame
      · exact sound.apart premium premium' owner id hold hold'
      · exact hsame.symm
    · exact hsame
  · intro premium owner id hopted
    obtain ⟨optIn, rfl⟩ := edited.only
    rcases edited.named sound.kept hopted with hold | ⟨-, -, rfl, hid⟩
    · exact sound.existing premium owner id hold
    · obtain ⟨i, position, hfound⟩ := edited.owned id hid
      obtain ⟨list, hlist, hget, hposition⟩ := getTargetPosition_spec hfound
      rw [positionAt, hlist, Option.bind_some, List.find?_isSome]
      exact ⟨position, List.mem_of_getElem? hget, by simpa using hposition⟩

theorem forceRedemption_soundOptIns {forced : Bool} {info : MessageInfo} {id : Nat}
    (sound : SoundOptIns s) (up : forced = true → MovesUp s info.sender [id] 1)
    (done : forceRedemption forced info id s = .ok s') : SoundOptIns s' := by
  unfold forceRedemption at done
  split at done
  case isTrue hforced =>
    refine editRedemptionInfo_soundOptIns sound (fun _ premium hpremium => ?_) done
    obtain rfl : 1 = premium := Option.some.inj hpremium
    exact up hforced
  case isFalse =>
    obtain rfl := pure_eq_ok.mp done
    exact sound

end Edit

/-! ## Steps -/

def DepositMovesUp (s : State) (call : Call) (positionId : Option Nat)
    (positionOwner : Option String) : Prop :=
  ∀ owner list id deposits, validatePositionOwner call.deps call.info positionOwner = .ok owner →
    s.positions.lookup owner = some list → positionId = some id →
    assertBasketAssets s.basket (sentAssets call.info) = .ok deposits → anyHiked deposits = true →
    MovesUp s call.info.sender [id] 1

def IncreaseMovesUp (s : State) (call : Call) (positionId : Nat) : Prop :=
  ∀ i position, getTargetPosition s call.info.sender positionId = .ok (i, position) →
    anyHiked position.collateralAssets = true → MovesUp s call.info.sender [positionId] 1

/-- A withdrawal of all that a position holds is from one that is not opted in. Where it
    comes back to the emptied position, the owner has opted nothing in. -/
def WithdrawsUnlisted (s : State) (call : Call) (positionId : Nat) (assets : List Asset)
    (sendTo : Option String) : Prop :=
  ∀ recipient i position,
    validatePositionOwner call.deps call.info sendTo = .ok recipient →
    getTargetPosition s (withdrawOwner call.env call.info recipient sendTo) positionId =
      .ok (i, position) →
    (touches position.held assets = true → nothingLeft (takeAll position.held assets) = true →
      ∀ premium, ¬ OptedIn s premium (withdrawOwner call.env call.info recipient sendTo)
        positionId) ∧
    (revisitsEmptied position.held assets = true →
      ∀ premium id, ¬ OptedIn s premium (withdrawOwner call.env call.info recipient sendTo) id)

def RepaysUnlisted (s : State) (call : Call) (positionId : Nat) (positionOwner : Option String) :
    Prop :=
  ∀ owner i position, validatePositionOwner call.deps call.info positionOwner = .ok owner →
    getTargetPosition s owner positionId = .ok (i, position) →
    checkForEmptyPosition position.collateralAssets = true →
    ∀ premium, ¬ OptedIn s premium owner positionId

def LiquidatesUnlisted (s : State) (l : Liquidation) : Prop :=
  ∀ s₀ response i position,
    liquidate l.deps l.env l.info l.positionId l.positionOwner s = .ok (s₀, response) →
    l.answers.userRepay ≠ none →
    getTargetPosition s₀ l.positionOwner l.positionId = .ok (i, position) →
    checkForEmptyPosition position.collateralAssets = true →
    ∀ premium, ¬ OptedIn s premium l.positionOwner l.positionId

/-- The steps that keep the opt-ins consistent: what they opt in moves up, and what they
    remove is not opted in. -/
def KeepsOptIns (s : State) (t : Transaction) : Prop :=
  FromOutside s t ∧
    match t with
    | .call call =>
      match call.msg with
      | .editRedeemability ids edit => edit.redeemable ≠ some false →
          ∀ premium, edit.updatedPremium = some premium → MovesUp s call.info.sender ids premium
      | .deposit positionId positionOwner => DepositMovesUp s call positionId positionOwner
      | .increaseDebt positionId _ _ _ => IncreaseMovesUp s call positionId
      | .withdraw positionId assets sendTo => WithdrawsUnlisted s call positionId assets sendTo
      | .repay positionId positionOwner _ => RepaysUnlisted s call positionId positionOwner
      | _ => True
    | .liquidation l => LiquidatesUnlisted s l

section Call

variable {s s' : State} {call : Call} {response : Response OutMsg}

theorem deposit_forced {deps : Deps} {env : Env} {info : MessageInfo}
    {positionOwner : Option String} {positionId : Option Nat} {deposits : List CAsset}
    (done : deposit deps env info positionOwner positionId deposits s = .ok (s', response)) :
    ∃ owner, validatePositionOwner deps info positionOwner = .ok owner ∧
      ((∃ list id mid, s.positions.lookup owner = some list ∧ positionId = some id ∧
          forceRedemption (anyHiked deposits) info id s = .ok mid ∧ SameOptIns mid s') ∨
        ∃ position mid, Added s.positions mid.positions owner position ∧
          position.positionId = s.basket.currentPositionId ∧ SameOptIns s mid ∧
          forceRedemption (anyHiked deposits) info position.positionId mid = .ok s') := by
  simp only [deposit, bind_eq_ok, pure_eq_ok, liftStd_eq_ok, guardErr_eq_ok, Prod.mk.injEq] at done
  obtain ⟨owner, howner, _, _, ⟨s₁, previous, id⟩, hbranch, _, _, rfl, rfl⟩ := done
  refine ⟨owner, howner, ?_⟩
  split at hbranch
  case h_1 list id' stored =>
    simp only [bind_eq_ok, pure_eq_ok, Prod.mk.injEq] at hbranch
    obtain ⟨mid, hforce, ⟨last, _⟩, hdeposit, rfl, -, -⟩ := hbranch
    simp only [depositToPosition, bind_eq_ok, pure_eq_ok, Prod.mk.injEq] at hdeposit
    obtain ⟨_, -, _, -, _, -, _, -, _, -, rfl, -⟩ := hdeposit
    exact .inl ⟨list, id', mid, stored, rfl, hforce, rfl⟩
  case h_2 =>
    simp only [bind_eq_ok, pure_eq_ok, Prod.mk.injEq, createPositionInDeposit, createPosition,
      Uint128.add_eq_ok, liftStd_eq_ok, guardErr_eq_ok] at hbranch
    obtain ⟨_, _, ⟨position, s₂⟩, ⟨⟨new, basket⟩, ⟨_, ⟨_, rfl⟩, rfl, rfl⟩, out, haccrue, rfl, rfl⟩,
      last, hforce, rfl, -, -⟩ := hbranch
    have hid := (accrue_charged haccrue).positionId
    refine .inr ⟨out.position, _, ?_, hid, ?_, hforce⟩
    · rfl
    · rfl

theorem SoundOptIns.fresh (optIns : SoundOptIns s) (sound : s.Sound) {premium id : Nat}
    {owner : Addr}
    (opted : OptedIn s premium owner id) : id ≠ s.basket.currentPositionId := by
  have hexists := optIns.existing premium owner id opted
  obtain ⟨position, hfound⟩ := Option.isSome_iff_exists.mp hexists
  obtain ⟨list, hlist, i, hget⟩ := stored_of_positionAt hfound
  have hgiven := (sound owner list hlist).given position (List.mem_of_getElem? hget)
  rw [positionAt_id hfound] at hgiven
  exact Nat.ne_of_lt hgiven

theorem deposit_soundOptIns {positionId : Option Nat} {positionOwner : Option String}
    (sound : s.Sound) (optIns : SoundOptIns s)
    (up : DepositMovesUp s call positionId positionOwner)
    (done : executeDeposit call.deps call.env call.info positionId positionOwner s =
      .ok (s', response)) : SoundOptIns s' := by
  have hkeeps := deposit_keepsAll sound done
  simp only [executeDeposit, bind_eq_ok, guardErr_eq_ok] at done
  obtain ⟨deposits, hassets, _, -, hdeposit⟩ := done
  obtain ⟨owner, howner, into | new⟩ := deposit_forced hdeposit
  · obtain ⟨list, id, mid, hlist, hid, hforce, hsame⟩ := into
    have hmid := forceRedemption_soundOptIns optIns
      (up owner list id deposits howner hlist hid hassets) hforce
    obtain ⟨optIn, rfl⟩ := forceRedemption_onlyOptIn hforce
    exact hmid.keepsAll hsame hkeeps
  · obtain ⟨position, mid, hadded, hid, hsame, hforce⟩ := new
    have hmid := optIns.keepsAll hsame (.of_added hadded)
    refine forceRedemption_soundOptIns hmid (fun _ id' hmem old hopted => ?_) hforce
    -- the new position cannot be opted in already
    have hold := hsame.optedIn.mp hopted
    rw [List.mem_singleton.mp hmem, hid] at hold
    exact absurd rfl (optIns.fresh sound hold)

def increasedDebt (deps : Deps) (env : Env) (info : MessageInfo) (s : State) (position : Position)
    (amount : Option Nat) (ltv : Option Decimal) : Result Nat := do
  let out ← liftStd (accrue deps env s.config s.prices position s.basket info.sender false)
  let (prices, basket) ←
    (if out.position.creditAmount = 0 then
      updateBasketTally deps env s.config out.prices out.basket out.position.collateralAssets
        out.position.collateralAssets true false
    else pure (out.prices, out.basket))
  let amount ← increaseAmount deps env s.config prices out.position basket amount ltv
  Uint128.add out.position.creditAmount amount

theorem increaseDebt_forced {deps : Deps} {env : Env} {info : MessageInfo} {positionId : Nat}
    {amount : Option Nat} {ltv : Option Decimal} {mintToAddr : Option String}
    (done : increaseDebt deps env info positionId amount ltv mintToAddr s = .ok (s', response)) :
    ∃ i j position target mid, getTargetPosition s info.sender positionId = .ok (i, position) ∧
      SameOptIns s mid ∧ mid.positions = s'.positions ∧
      getTargetPosition mid info.sender positionId = .ok (j, target) ∧
      increasedDebt deps env info s position amount ltv = .ok target.creditAmount ∧
      forceRedemption (anyHiked position.collateralAssets) info positionId mid = .ok s' := by
  simp only [increaseDebt, bind_eq_ok, pure_eq_ok, liftStd_eq_ok, Prod.mk.injEq] at done
  obtain ⟨_, -, ⟨i, position⟩, htarget, out, haccrue, tallied, htally, borrowed, hamount,
    debt, hdebt,
    _, -, _, -, _, -, _, -, _, -, _, -, _, -, _, -, _, -, _, -, _, hcheck, last, hforce, rfl, -⟩ :=
      done
  simp only [checkDebtIncreaseState, bind_eq_ok, guardErr_eq_ok] at hcheck
  obtain ⟨⟨j, target⟩, hstored, expected, hexpected, _, hequal, -⟩ := hcheck
  have hcredit : target.creditAmount = expected := Classical.not_not.mp hequal
  obtain ⟨optIn, rfl⟩ := forceRedemption_onlyOptIn hforce
  refine ⟨i, j, position, target, _, htarget, ?_, ?_, hstored, ?_, hforce⟩
  · rfl
  · rfl
  · simp only [increasedDebt, bind_eq_ok, liftStd_eq_ok]
    rw [hcredit]
    exact ⟨out, haccrue, tallied, htally, borrowed, hamount, hexpected⟩

theorem MovesUp.of_same {mid : State} {sender : Addr} {ids : List Nat} {premium : Nat}
    (same : SameOptIns s mid) (up : MovesUp s sender ids premium) :
    MovesUp mid sender ids premium := by
  intro id mem old opted
  rw [same.usersAt_eq premium]
  exact up id mem old (same.optedIn.mp opted)

theorem increaseDebt_soundOptIns {positionId : Nat} {amount : Option Nat} {ltv : Option Decimal}
    {mintToAddr : Option String} (sound : s.Sound) (optIns : SoundOptIns s)
    (up : IncreaseMovesUp s call positionId)
    (done : increaseDebt call.deps call.env call.info positionId amount ltv mintToAddr s =
      .ok (s', response)) : SoundOptIns s' := by
  obtain ⟨_, out, _, -, increased, -⟩ := increaseDebt_spec done
  obtain ⟨i, _, position, _, mid, htarget, hsame, hpositions, -, -, hforce⟩ :=
    increaseDebt_forced done
  have hmid : SoundOptIns mid := by
    refine optIns.keepsAll hsame ?_
    rw [hpositions]
    exact .of_replaced increased.write sound
  exact forceRedemption_soundOptIns hmid (fun hiked => (up i position htarget hiked).of_same hsame)
    hforce

theorem Dropped.others_at {store store' : Store} {owner owner' : Addr} {list kept : List Position}
    (write : Dropped store store' owner list kept) (other : owner' ≠ owner) (id : Nat) :
    positionAt store' owner' id = positionAt store owner' id := by
  rcases write.write with rfl | ⟨-, rfl⟩
  · exact positionAt_insert_ne other
  · rw [positionAt, AList.lookup_erase_ne other, positionAt]

theorem withdraw_soundOptIns {positionId : Nat} {assets : List Asset} {sendTo : Option String}
    (sound : s.Sound) (optIns : SoundOptIns s)
    (unlisted : WithdrawsUnlisted s call positionId assets sendTo)
    (done : executeWithdraw call.deps call.env call.info positionId assets sendTo s =
      .ok (s', response)) : SoundOptIns s' := by
  have hsame : SameOptIns s s' := by
    have hexecute := done
    simp only [executeWithdraw, bind_eq_ok] at hexecute
    obtain ⟨_, -, _, -, _, -, hwithdraw⟩ := hexecute
    exact withdraw_sameOptIns hwithdraw
  obtain ⟨-, recipient, position, out, hrecipient, ⟨i, htarget⟩, outcome⟩ :=
    executeWithdraw_spec done
  obtain ⟨-, -, -, hid⟩ := getTargetPosition_spec htarget
  obtain ⟨hemptied, hagain⟩ := unlisted recipient i position hrecipient htarget
  cases outcome with
  | overran again overran =>
    obtain ⟨list, kept, _, hdropped, -⟩ := overran.dropped
    refine optIns.frame hsame fun premium owner id hopted present => ?_
    have hother : owner ≠ withdrawOwner call.env call.info recipient sendTo := by
      rintro rfl
      exact hagain again premium id hopted
    rw [hdropped.others_at hother]
    exact present
  | once target _ withdrawn =>
    cases htouch : touches position.held assets with
    | false => exact optIns.keepsAll hsame (.of_eq (withdrawn.untouched htouch))
    | true =>
      cases withdrawn.written htouch with
      | replaced _ write => exact optIns.keepsAll hsame (.of_replaced write sound)
      | removed empty _ write =>
        rw [withdrawn.held] at empty
        have hout := hemptied htouch empty
        rw [← hid] at hout
        exact optIns.keepsOthers hsame write.keepsOthers hout

theorem repay_soundOptIns {positionId : Nat} {positionOwner sendExcessTo : Option String}
    (sound : s.Sound) (optIns : SoundOptIns s)
    (unlisted : RepaysUnlisted s call positionId positionOwner)
    (done : executeRepay call.deps call.env call.info positionId positionOwner sendExcessTo s =
      .ok (s', response)) : SoundOptIns s' := by
  simp only [executeRepay, bind_eq_ok] at done
  obtain ⟨_, -, hrepay⟩ := done
  have hsame := repay_sameOptIns hrepay
  obtain ⟨owner, position, _, _, _, howner, ⟨i, htarget⟩, repaid, -⟩ := repay_spec hrepay
  obtain ⟨-, -, -, hid⟩ := getTargetPosition_spec htarget
  cases repaid.write with
  | replaced _ write => exact optIns.keepsAll hsame (.of_replaced write sound)
  | removed empty write =>
    have hout := unlisted owner i position howner htarget empty
    rw [← hid] at hout
    exact optIns.keepsOthers hsame write.keepsOthers hout

theorem redeem_soundOptIns {deps : Deps} {env : Env} {info : MessageInfo}
    {maxCollateralPremium : Nat} (sound : s.Sound) (optIns : SoundOptIns s)
    (done : redeemForCollateral deps env info maxCollateralPremium s = .ok (s', response)) :
    SoundOptIns s' := by
  obtain ⟨_, _, -, redeemed, -⟩ := redeemForCollateral_spec sound done
  refine optIns.thinned (redeemForCollateral_lists optIns.kept done) fun _ owner id _ present => ?_
  have hkinds := congrArg Option.isSome (redeemed.kinds owner id)
  rw [Option.isSome_map, Option.isSome_map] at hkinds
  exact hkinds.trans present

end Call

theorem liquidation_soundOptIns {s : State} {l : Liquidation} {p : Progress} (sound : s.Sound)
    (optIns : SoundOptIns s) (unlisted : LiquidatesUnlisted s l) (done : l.exec s = some p) :
    SoundOptIns p.state := by
  have hsame := liquidation_sameOptIns done
  obtain ⟨mid, position, due, msgs, prop, s₀, s₁, run, hclosing, -⟩ := exec_spec sound done
  obtain ⟨response, hliquidate⟩ := run.first
  obtain ⟨_, liquidated⟩ := run.liquidated
  have sound₀ := liquidated.write.sound sound
  have sound₁ := run.owner.sound sound₀
  have hfirst := liquidated.write.keepsAll sound
  have hlast := (run.rest.keepsAll sound₁).trans (hclosing.keepsAll (run.sound sound))
  have howner := run.owner
  generalize hpayment : l.answers.userRepay = payment at howner
  cases howner with
  | idle same =>
    rw [same] at hlast
    exact optIns.keepsAll hsame (hfirst.trans hlast)
  | repaid payment i stored _ found write =>
    obtain ⟨-, -, -, hid⟩ := getTargetPosition_spec found
    cases write.write with
    | replaced _ replaced =>
      exact optIns.keepsAll hsame ((hfirst.trans (.of_replaced replaced sound₀)).trans hlast)
    | removed empty removed =>
      have hothers := removed.keepsOthers
      rw [hid] at hothers
      have hout := unlisted s₀ response i stored hliquidate (by simp [hpayment]) found empty
      refine optIns.keepsOthers hsame (fun owner' id' other present => ?_) hout
      exact hlast owner' id' (hothers owner' id' other (hfirst owner' id' present))

theorem step_soundOptIns {s s' : State} {t : Transaction} (sound : s.Sound) (optIns : SoundOptIns s)
    (allowed : KeepsOptIns s t) (step : transactionStep s t s') : SoundOptIns s' := by
  obtain ⟨outside, allowed⟩ := allowed
  cases t with
  | liquidation l =>
    obtain ⟨p, hexec, rfl⟩ := step
    exact liquidation_soundOptIns sound optIns allowed hexec
  | call one =>
    obtain ⟨response, hstep⟩ := step
    unfold Call.steps execute at hstep
    unfold FromOutside at outside
    cases hmsg : one.msg <;> simp only [hmsg] at hstep outside allowed
    case updateConfig =>
      exact optIns.keepsAll (updateConfig_sameOptIns hstep)
        (.of_eq (updateConfig_governed hstep).positions)
    case deposit => exact deposit_soundOptIns sound optIns allowed hstep
    case increaseDebt => exact increaseDebt_soundOptIns sound optIns allowed hstep
    case withdraw => exact withdraw_soundOptIns sound optIns allowed hstep
    case repay => exact repay_soundOptIns sound optIns allowed hstep
    case redeemCollateral => exact redeem_soundOptIns sound optIns hstep
    case editRedeemability =>
      simp only [bind_eq_ok, pure_eq_ok, Prod.mk.injEq] at hstep
      obtain ⟨_, hedit, rfl, -⟩ := hstep
      exact editRedemptionInfo_soundOptIns optIns allowed hedit
    case accrue =>
      exact optIns.keepsAll (externalAccrueCall_sameOptIns hstep) (accrue_keepsAll sound hstep)
    case editBasket =>
      exact optIns.keepsAll (editBasket_sameOptIns hstep)
        (.of_eq (editBasket_governed hstep).positions)
    case editCAsset =>
      exact optIns.keepsAll (editCAsset_sameOptIns hstep)
        (.of_eq (editCAsset_governed hstep).positions)

/-! ## Runs -/

theorem instantiate_soundOptIns {deps : Deps} {env : Env} {info : MessageInfo}
    {msg : InstantiateMsg} {created : State} {response : Response OutMsg}
    (done : instantiate deps env info msg = .ok (created, response)) : SoundOptIns created := by
  simp only [instantiate, bind_eq_ok, pure_eq_ok, liftStd_eq_ok, Prod.mk.injEq] at done
  obtain ⟨_, -, _, -, _, -, _, -, _, -, _, -, _, -, _, -, _, -, rfl, -⟩ := done
  refine ⟨fun _ => Kept.nil, fun _ _ _ _ hopted => ?_, fun _ _ _ hopted => ?_⟩
  · exact (List.not_mem_nil hopted).elim
  · exact (List.not_mem_nil hopted).elim

/-- In a run from instantiation in which positions only move up, to premiums that their
    owners have nothing at, and in which no position is removed while it is opted in, the
    opt-ins are consistent. -/
theorem opt_ins_consistent {deps : Deps} {env : Env} {info : MessageInfo} {msg : InstantiateMsg}
    {created s : State} {response : Response OutMsg}
    (instantiated : instantiate deps env info msg = .ok (created, response))
    (run : RunWhere transactionStep KeepsOptIns created s) : ConsistentOptIns s := by
  have hkeeps : ∀ s t s', s.Sound ∧ SoundOptIns s → KeepsOptIns s t → transactionStep s t s' →
      s'.Sound ∧ SoundOptIns s' := by
    intro s t s' hinv hallowed hstep
    exact ⟨transaction_sound hinv.1 hallowed.1 hstep,
      step_soundOptIns hinv.1 hinv.2 hallowed hstep⟩
  have hstart : created.Sound := runs_sound instantiated (fun _ _ h => h) .refl
  exact (RunWhere.keeps hkeeps run ⟨hstart, instantiate_soundOptIns instantiated⟩).2.consistent

/-! ## On a sample chain -/

def sampleOptIn (premium : Nat) : Call :=
  sampleCall 0 "user" (.editRedeemability [1] ⟨some true, some premium, none, none⟩)

def openedPosition : List Call :=
  [openBasket, sampleDeposit 0 "user" none 45000000000 (by decide)]

/-- The states before and after the user opts in at no premium, and after moving to five
    percent. -/
def movingUp : Option (State × State × State) :=
  (afterGenesis 0 openedPosition).bind fun s₁ => (Call.exec s₁ (sampleOptIn 0)).bind fun s₂ =>
    (Call.exec s₂ (sampleOptIn 5)).map fun s₃ => (s₁, s₂, s₃)

theorem usersAt_of_not_mem {s : State} {premium : Nat} (absent : premium ∉ s.redemptionOptIn.keys) :
    usersAt s premium = [] := by
  unfold usersAt
  rw [AList.lookup_eq_none.mpr absent]
  rfl

theorem opt_ins_consistent_moving_up :
    ∃ s₁ s₂ s₃, movingUp = some (s₁, s₂, s₃) ∧ OptedIn s₃ 5 "user" 1 ∧ ConsistentOptIns s₃ := by
  have hlists : movingUp.map (fun run => (run.1.redemptionOptIn.keys,
      run.2.1.redemptionOptIn.keys, entriesOf (usersAt run.2.2 5))) =
        some ([], [0], [("user", 1)]) := by decide +kernel
  obtain ⟨run, hrun, hlists⟩ := Option.map_eq_some_iff.mp hlists
  have hsteps := hrun
  unfold movingUp at hsteps
  obtain ⟨s₁, hs₁, hsteps⟩ := Option.bind_eq_some_iff.mp hsteps
  obtain ⟨s₂, hfirst, hsteps⟩ := Option.bind_eq_some_iff.mp hsteps
  obtain ⟨s₃, hsecond, rfl⟩ := Option.map_eq_some_iff.mp hsteps
  simp only [Prod.mk.injEq] at hlists
  obtain ⟨hnone, hzero, hfive⟩ := hlists
  obtain ⟨created, hnew, hcalls⟩ := Option.bind_eq_some_iff.mp hs₁
  obtain ⟨response, hcreated⟩ := newContract_spec hnew
  have hopened : RunWhere transactionStep KeepsOptIns created s₁ := by
    refine transactions_of_calls (execAll_run (fun _ _ _ => Call.exec_step) (fun call mem s => ?_)
      hcalls)
    simp only [openedPosition, List.mem_cons, List.not_mem_nil, or_false] at mem
    rcases mem with rfl | rfl
    · exact ⟨trivial, trivial⟩
    · refine ⟨trivial, fun _ _ _ _ _ _ hid => ?_⟩
      cases hid
  have hzeroUp : KeepsOptIns s₁ (.call (sampleOptIn 0)) := by
    refine ⟨trivial, fun _ premium _ id _ old hopted => ?_⟩
    have habsent : old ∉ s₁.redemptionOptIn.keys := by simp [hnone]
    rw [OptedIn, usersAt_of_not_mem habsent] at hopted
    cases hopted
  have hfiveUp : KeepsOptIns s₂ (.call (sampleOptIn 5)) := by
    refine ⟨trivial, fun _ premium hpremium id _ old hopted => ?_⟩
    obtain rfl : 5 = premium := Option.some.inj hpremium
    have habsent : 5 ∉ s₂.redemptionOptIn.keys := by simp [hzero]
    right
    refine ⟨?_, ?_⟩
    · by_contra hlower
      have hmissing : old ∉ s₂.redemptionOptIn.keys := by
        rw [hzero, List.mem_singleton]
        omega
      rw [OptedIn, usersAt_of_not_mem hmissing] at hopted
      cases hopted
    · rw [usersAt_of_not_mem habsent]
      exact fun _ mem => (List.not_mem_nil mem).elim
  have hreached := (hopened.snoc (.call (sampleOptIn 0)) hzeroUp (Call.exec_step hfirst)).snoc
    (.call (sampleOptIn 5)) hfiveUp (Call.exec_step hsecond)
  refine ⟨s₁, s₂, s₃, hrun, ?_, opt_ins_consistent hcreated hreached⟩
  rw [OptedIn, hfive]
  exact List.mem_singleton.mpr rfl

def movingDown : List Call :=
  openedPosition ++ [sampleOptIn 5, sampleOptIn 0,
    sampleCall 0 "user" (.withdraw 1 [⟨.nativeToken "uatom", 45000000000⟩] none)]

/-- The position is gone, and still listed at both premiums. -/
theorem opt_ins_not_consistent :
    ¬ ∀ calls s, (∀ call ∈ calls, ∀ s, FromOutside s (.call call)) → afterGenesis 0 calls = some s →
      ConsistentOptIns s := by
  intro claim
  have hlists : (afterGenesis 0 movingDown).map (fun s =>
      ((positionAt s.positions "user" 1).isSome, entriesOf (usersAt s 0),
        entriesOf (usersAt s 5))) =
        some (false, [("user", 1)], [("user", 1)]) := by decide +kernel
  obtain ⟨s, hs, hlists⟩ := Option.map_eq_some_iff.mp hlists
  simp only [Prod.mk.injEq] at hlists
  obtain ⟨hgone, hzero, hfive⟩ := hlists
  have hconsistent := claim movingDown s (fun call mem s => ?_) hs
  · have honce := hconsistent.once [0, 5] (by decide)
    simp only [List.flatMap_cons, List.flatMap_nil, hzero, hfive] at honce
    exact absurd honce (by decide)
  · simp only [movingDown, openedPosition, List.cons_append, List.nil_append, List.mem_cons,
      List.not_mem_nil, or_false] at mem
    rcases mem with rfl | rfl | rfl | rfl | rfl
    · trivial
    · trivial
    · trivial
    · trivial
    · trivial

end Membrane.Cdp
