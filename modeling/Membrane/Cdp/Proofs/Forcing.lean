import Membrane.Cdp.Proofs.Consistency
import Membrane.Cdp.Proofs.Spending

/-!
# The opt-in that hiked collateral forces

A debt increase against hiked collateral opts the position in at a premium of one
percent for all of its debt. A position that is opted in there already is skipped, with
whatever its entry says.
-/

namespace Membrane.Cdp

open Outcome

/-- The entry of a position at the premium of forced redemptions is for an amount. -/
def ForcedFor (s : State) (owner : Addr) (id amount : Nat) : Prop :=
  ∃ user ∈ usersAt s 1, user.positionOwner = owner ∧
    ∃ entry ∈ user.positionInfos, entry.positionId = id ∧ entry.remainingLoanRepayment = amount

theorem ForcedFor.of_usersAt {s s' : State} {owner : Addr} {id amount : Nat}
    (same : usersAt s' 1 = usersAt s 1) :
    ForcedFor s' owner id amount ↔ ForcedFor s owner id amount := by
  unfold ForcedFor
  rw [same]

/-! ## Well kept lists -/

section Call

variable {s s' : State} {call : Call} {response : Response OutMsg}

/-- The lists as the contract keeps them: well kept, and none at a premium of the whole value. -/
structure WellListed (s : State) : Prop where
  kept : ∀ premium, Kept (usersAt s premium)
  within : ∀ premium owner id, OptedIn s premium owner id → premium < 100

theorem WellListed.thinned (listed : WellListed s)
    (thin : ∀ premium, Thinned (usersAt s premium) (usersAt s' premium)) : WellListed s' :=
  ⟨fun premium => (thin premium).kept (listed.kept premium),
    fun premium owner id opted => listed.within premium owner id ((thin premium).fewer _ opted)⟩

theorem SameOptIns.wellListed (same : SameOptIns s s') (listed : WellListed s) : WellListed s' := by
  apply listed.thinned
  intro premium
  rw [same.usersAt_eq premium]
  exact .refl _

theorem Edited.wellListed {sender : Addr} {ids left : List Nat} {edit : RedemptionEdit}
    {mid : State} (edited : Edited s s' sender ids edit mid left) (listed : WellListed s) :
    WellListed s' := by
  refine ⟨edited.kept listed.kept, fun premium owner id opted => ?_⟩
  rcases edited.named listed.kept opted with hold | ⟨-, hmoves, -⟩
  · exact listed.within premium owner id hold
  · exact Nat.lt_succ_of_le (edited.premium premium hmoves)

theorem forceRedemption_wellListed {forced : Bool} {info : MessageInfo} {id : Nat}
    (listed : WellListed s) (done : forceRedemption forced info id s = .ok s') : WellListed s' := by
  unfold forceRedemption at done
  split at done
  case isTrue =>
    obtain ⟨mid, left, edited⟩ := editRedemptionInfo_spec done
    exact edited.wellListed listed
  case isFalse =>
    obtain rfl := pure_eq_ok.mp done
    exact listed

theorem deposit_wellListed {positionId : Option Nat} {positionOwner : Option String}
    (listed : WellListed s)
    (done : executeDeposit call.deps call.env call.info positionId positionOwner s =
      .ok (s', response)) : WellListed s' := by
  simp only [executeDeposit, bind_eq_ok, guardErr_eq_ok] at done
  obtain ⟨deposits, -, _, -, hdeposit⟩ := done
  obtain ⟨owner, -, into | new⟩ := deposit_forced hdeposit
  · obtain ⟨list, id, mid, -, -, hforce, hsame⟩ := into
    exact hsame.wellListed (forceRedemption_wellListed listed hforce)
  · obtain ⟨position, mid, -, -, hsame, hforce⟩ := new
    exact forceRedemption_wellListed (hsame.wellListed listed) hforce

theorem transaction_wellListed {t : Transaction} (listed : WellListed s)
    (outside : FromOutside s t) (step : transactionStep s t s') : WellListed s' := by
  cases t with
  | liquidation l =>
    obtain ⟨p, hexec, rfl⟩ := step
    exact (liquidation_sameOptIns hexec).wellListed listed
  | call one =>
    obtain ⟨response, hstep⟩ := step
    unfold Call.steps execute at hstep
    unfold FromOutside at outside
    cases hmsg : one.msg <;> simp only [hmsg] at hstep outside
    case updateConfig => exact (updateConfig_sameOptIns hstep).wellListed listed
    case deposit => exact deposit_wellListed listed hstep
    case increaseDebt =>
      obtain ⟨_, _, _, _, mid, -, hsame, -, -, -, hforce⟩ := increaseDebt_forced hstep
      exact forceRedemption_wellListed (hsame.wellListed listed) hforce
    case withdraw =>
      simp only [executeWithdraw, bind_eq_ok] at hstep
      obtain ⟨_, -, _, -, _, -, hwithdraw⟩ := hstep
      exact (withdraw_sameOptIns hwithdraw).wellListed listed
    case repay =>
      simp only [executeRepay, bind_eq_ok] at hstep
      obtain ⟨_, -, hrepay⟩ := hstep
      exact (repay_sameOptIns hrepay).wellListed listed
    case redeemCollateral =>
      exact listed.thinned (redeemForCollateral_lists listed.kept hstep)
    case editRedeemability =>
      simp only [bind_eq_ok, pure_eq_ok, Prod.mk.injEq] at hstep
      obtain ⟨_, hedit, rfl, -⟩ := hstep
      obtain ⟨mid, left, edited⟩ := editRedemptionInfo_spec hedit
      exact edited.wellListed listed
    case accrue => exact (externalAccrueCall_sameOptIns hstep).wellListed listed
    case editBasket => exact (editBasket_sameOptIns hstep).wellListed listed
    case editCAsset => exact (editCAsset_sameOptIns hstep).wellListed listed

theorem instantiate_wellListed {deps : Deps} {env : Env} {info : MessageInfo} {msg : InstantiateMsg}
    {created : State} {start : Response OutMsg}
    (done : instantiate deps env info msg = .ok (created, start)) : WellListed created := by
  simp only [instantiate, bind_eq_ok, pure_eq_ok, liftStd_eq_ok, Prod.mk.injEq] at done
  obtain ⟨_, -, _, -, _, -, _, -, _, -, _, -, _, -, _, -, _, -, rfl, -⟩ := done
  refine ⟨fun _ => Kept.nil, fun _ _ _ hopted => ?_⟩
  exact (List.not_mem_nil hopted).elim

theorem run_wellListed {deps : Deps} {env : Env} {info : MessageInfo} {msg : InstantiateMsg}
    {created : State} {start : Response OutMsg}
    (instantiated : instantiate deps env info msg = .ok (created, start))
    (run : RunWhere transactionStep FromOutside created s) : WellListed s := by
  have hkeeps : ∀ s t s', WellListed s → FromOutside s t → transactionStep s t s' → WellListed s' :=
    fun _ _ _ listed allowed step => transaction_wellListed listed allowed step
  exact RunWhere.keeps hkeeps run (instantiate_wellListed instantiated)

end Call

/-! ## The forced edit -/

section Forced

variable {s s' : State} {sender : Addr} {id debt : Nat}

def OwesDebt (s : State) (sender : Addr) (id debt : Nat) : Prop :=
  ∃ i position, getTargetPosition s sender id = .ok (i, position) ∧ position.creditAmount = debt

theorem ownedPosition_credit {position : Position} (owes : OwesDebt s sender id debt)
    (done : ownedPosition s sender id = .ok position) : position.creditAmount = debt := by
  obtain ⟨i, target, hfound, hdebt⟩ := owes
  simp only [ownedPosition, hfound] at done
  obtain rfl := Except.ok.inj done
  exact hdebt

theorem mulUint_one {amount n : Nat} {ε : Type}
    (done : (Decimal.mulUint amount Decimal.one : Outcome ε Nat) = .ok n) : n = amount := by
  rw [Decimal.mulUint_eq_ok done]
  exact Nat.mul_div_cancel amount (by decide)

theorem newPositionRedemption_forced {info : PositionRedemption} (owes : OwesDebt s sender id debt)
    (done : newPositionRedemption s sender forcedRedemption id = .ok info) :
    info.positionId = id ∧ info.remainingLoanRepayment = debt := by
  simp only [newPositionRedemption, bind_eq_ok, pure_eq_ok] at done
  obtain ⟨position, hposition, remaining, hremaining, rfl⟩ := done
  refine ⟨rfl, ?_⟩
  rw [← ownedPosition_credit owes hposition]
  exact mulUint_one hremaining

theorem addRedemptions_forced {left : List Nat} (kept : Kept (usersAt s 1))
    (owes : OwesDebt s sender id debt)
    (done : addRedemptions s sender forcedRedemption 1 [id] = .ok (s', left)) :
    OptedIn s 1 sender id ∧ usersAt s' 1 = usersAt s 1 ∧ left = [] ∨
      ¬ OptedIn s 1 sender id ∧ ForcedFor s' sender id debt := by
  unfold addRedemptions at done
  dsimp only at done
  split at done
  case h_1 i user hfound =>
    obtain ⟨hplace, howner⟩ := findRedemptionUser_some hfound
    simp only [bind_eq_ok, pure_eq_ok, setIndex_eq_ok, List.foldlM_cons, List.foldlM_nil,
      Prod.mk.injEq] at done
    obtain ⟨user', ⟨_, hadd, rfl⟩, users, ⟨hlt, rfl⟩, rfl, rfl⟩ := done
    split at hadd
    case isTrue hany =>
      obtain rfl := pure_eq_ok.mp hadd
      obtain ⟨info, hinfo, hid⟩ := List.any_eq_true.mp hany
      refine .inl ⟨?_, ?_, rfl⟩
      · refine mem_entriesOf.mpr ⟨user, List.mem_of_getElem? hplace, howner, ?_⟩
        exact List.mem_map.mpr ⟨info, hinfo, by simpa using hid⟩
      · obtain ⟨_, hget⟩ := List.getElem?_eq_some_iff.mp hplace
        rw [usersAt_insert, if_pos rfl, ← hget, List.set_getElem_self]
        rfl
    case isFalse hnone =>
      simp only [bind_eq_ok, pure_eq_ok] at hadd
      obtain ⟨info, hinfo, rfl⟩ := hadd
      obtain ⟨hid, hremaining⟩ := newPositionRedemption_forced owes hinfo
      refine .inr ⟨?_, ?_⟩
      · intro opted
        obtain ⟨stored, hstored, hsender, hopted⟩ := mem_entriesOf.mp opted
        obtain rfl := kept.same hstored (List.mem_of_getElem? hplace) (hsender.trans howner.symm)
        obtain ⟨entry, hentry, hentryId⟩ := List.mem_map.mp hopted
        exact hnone (List.any_eq_true.mpr ⟨entry, hentry, by simpa using hentryId⟩)
      · refine ⟨{ user with positionInfos := user.positionInfos ++ [info] }, ?_, howner,
          info, ?_, hid,
          hremaining⟩
        · rw [usersAt_insert, if_pos rfl]
          exact List.mem_set hlt _
        · exact List.mem_append_right _ (List.mem_singleton.mpr rfl)
  case h_2 hnone =>
    simp only [bind_eq_ok, pure_eq_ok, createRedemptionInfo, mapErr_eq_ok, List.mapM_cons,
      List.mapM_nil, Prod.mk.injEq] at done
    obtain ⟨user, ⟨infos, ⟨info, hinfo, _, rfl, rfl⟩, rfl⟩, rfl, rfl⟩ := done
    obtain ⟨hid, hremaining⟩ := newPositionRedemption_forced owes hinfo
    refine .inr ⟨?_, ?_⟩
    · intro opted
      obtain ⟨stored, hstored, hsender, -⟩ := mem_entriesOf.mp opted
      exact findRedemptionUser_none hnone stored hstored hsender
    · refine ⟨⟨sender, [info]⟩, ?_, rfl, info, List.mem_singleton.mpr rfl, hid, hremaining⟩
      rw [usersAt_insert, if_pos rfl]
      exact List.mem_append_right _ (List.mem_singleton.mpr rfl)

/-- What the loop over the ids keeps once the position has its entry at the premium. -/
structure ForcedLoop (sender : Addr) (id debt : Nat) (loop : RedemptionEditLoop) : Prop where
  forced : ForcedFor loop.s sender id debt
  owes : OwesDebt loop.s sender id debt
  owner : loop.user.positionOwner = sender

theorem editEntry_forced {loop loop' : RedemptionEditLoop} {userIndex index : Nat} {stop : Bool}
    {entry : PositionRedemption} (before : ForcedLoop sender id debt loop)
    (found : loop.user.positionInfos[index]? = some entry) (same : entry.positionId = id)
    (done : editEntry sender forcedRedemption 1 userIndex index id loop = .ok (loop', stop)) :
    stop = false ∧ ForcedLoop sender id debt loop' := by
  simp only [editEntry, bind_eq_ok] at done
  obtain ⟨⟨loop₁, stop₁⟩, hremove, hrest⟩ := done
  rw [if_neg (by decide)] at hremove
  obtain ⟨rfl, rfl⟩ := Prod.mk.inj (pure_eq_ok.mp hremove)
  rw [if_neg Bool.false_ne_true] at hrest
  simp only [bind_eq_ok] at hrest
  obtain ⟨loop₂, hmax, ⟨loop₃, stop₃⟩, hmove, hrest⟩ := hrest
  -- all of the debt is redeemable, at this premium, in any of the collateral
  dsimp only [forcedRedemption] at hmax hmove hrest
  simp only [bind_eq_ok] at hmax
  obtain ⟨position, hposition, remaining, hremaining, hchange⟩ := hmax
  rw [if_neg (not_not_intro rfl)] at hmove
  obtain ⟨rfl, rfl⟩ := Prod.mk.inj (pure_eq_ok.mp hmove)
  rw [if_neg Bool.false_ne_true] at hrest
  simp only [bind_eq_ok, pure_eq_ok, setIndex_eq_ok, Prod.mk.injEq] at hrest
  obtain ⟨_, rfl, users, ⟨hlt, rfl⟩, rfl, rfl⟩ := hrest
  simp only [changeEntry, bind_eq_ok, pure_eq_ok, index_eq_ok, setIndex_eq_ok] at hchange
  obtain ⟨info, hinfo, infos, ⟨hinside, rfl⟩, rfl⟩ := hchange
  obtain rfl : entry = info := Option.some.inj (found.symm.trans hinfo)
  refine ⟨rfl, ?_, before.owes, before.owner⟩
  refine ⟨⟨loop.user.positionOwner, loop.user.positionInfos.set index
    ⟨entry.positionId, remaining, entry.restrictedCollateralAssets⟩⟩, ?_, before.owner, _,
    List.mem_set hinside _, same, ?_⟩
  · rw [usersAt_insert, if_pos rfl]
    exact List.mem_set hlt _
  · rw [← ownedPosition_credit before.owes hposition]
    exact mulUint_one hremaining

theorem editEntries_forced {userIndex : Nat} : ∀ {ids : List Nat} {loop loop' : RedemptionEditLoop},
    (∀ other ∈ ids, other = id) → ForcedLoop sender id debt loop →
    editEntries sender forcedRedemption 1 userIndex ids loop = .ok loop' →
    ForcedLoop sender id debt loop' := by
  intro ids
  induction ids with
  | nil =>
    intro loop loop' _ before done
    obtain rfl := pure_eq_ok.mp done
    exact before
  | cons head rest ih =>
    intro loop loop' all before done
    obtain rfl := all head List.mem_cons_self
    have hrestAll : ∀ other ∈ rest, other = head :=
      fun other mem => all other (List.mem_cons_of_mem head mem)
    unfold editEntries at done
    split at done
    case h_1 => exact ih hrestAll before done
    case h_2 index hindex =>
      simp only [bind_eq_ok] at done
      obtain ⟨⟨mid, stop⟩, hentry, hrest⟩ := done
      obtain ⟨entry, hget, hid⟩ := ListEdit.findIdx?_getElem? hindex
      obtain ⟨rfl, hmid⟩ := editEntry_forced before hget (by simpa using hid) hentry
      exact ih hrestAll hmid hrest

theorem editPremium_forced {acc acc' : State × List Nat} (all : ∀ other ∈ acc.2, other = id)
    (forced : ForcedFor acc.1 sender id debt) (owes : OwesDebt acc.1 sender id debt)
    (done : editPremium sender forcedRedemption acc 1 = .ok acc') :
    ForcedFor acc'.1 sender id debt := by
  unfold editPremium at done
  dsimp only at done
  split at done
  case isTrue =>
    obtain rfl := pure_eq_ok.mp done
    exact forced
  case isFalse =>
    split at done
    case h_1 =>
      obtain rfl := pure_eq_ok.mp done
      exact forced
    case h_2 userIndex user hsome =>
      simp only [bind_eq_ok, pure_eq_ok] at done
      obtain ⟨loop, hentries, rfl⟩ := done
      have hstart : ForcedLoop sender id debt ⟨acc.1, usersAt acc.1 1, user, acc.2⟩ :=
        ⟨forced, owes, (findRedemptionUser_some hsome).2⟩
      exact (editEntries_forced all hstart hentries).forced

structure ForcedPremiums (sender : Addr) (id debt : Nat) (acc : State × List Nat) : Prop where
  kept : ∀ premium, Kept (usersAt acc.1 premium)
  all : ∀ other ∈ acc.2, other = id
  forced : ForcedFor acc.1 sender id debt
  owes : OwesDebt acc.1 sender id debt

theorem OwesDebt.of_onlyOptIn {mid : State} (only : OnlyOptIn s mid)
    (owes : OwesDebt s sender id debt) :
    OwesDebt mid sender id debt := by
  obtain ⟨optIn, rfl⟩ := only
  exact owes

theorem editPremium_forcedPremiums {acc acc' : State × List Nat} {premium : Nat}
    (before : ForcedPremiums sender id debt acc)
    (done : editPremium sender forcedRedemption acc premium = .ok acc') :
    ForcedPremiums sender id debt acc' := by
  have edited := editPremium_spec (before.kept premium) done
  refine ⟨?_, fun other mem => before.all other (edited.left other mem), ?_,
    before.owes.of_onlyOptIn (editPremium_onlyOptIn done)⟩
  · intro other
    by_cases same : other = premium
    · subst same
      exact edited.thinned.kept (before.kept other)
    · rw [edited.others other same]
      exact before.kept other
  · by_cases same : premium = 1
    · subst same
      exact editPremium_forced before.all before.forced before.owes done
    · exact (ForcedFor.of_usersAt (edited.others 1 (Ne.symm same))).mpr before.forced

theorem editPremiums_idle {edit : RedemptionEdit} :
    ∀ {premiums : List Nat} {acc : State × List Nat},
    premiums.foldlM (editPremium sender edit) (s, []) = .ok acc → acc.1 = s := by
  intro premiums
  induction premiums with
  | nil =>
    intro acc done
    obtain rfl := pure_eq_ok.mp done
    rfl
  | cons premium rest ih =>
    intro acc done
    simp only [List.foldlM_cons, bind_eq_ok] at done
    obtain ⟨mid, hstep, hrest⟩ := done
    obtain rfl : (s, []) = mid := pure_eq_ok.mp hstep
    exact ih hrest

theorem forcedEdit_spec (kept : ∀ premium, Kept (usersAt s premium))
    (owes : OwesDebt s sender id debt)
    (done : editRedemptionInfo s sender [id] forcedRedemption true = .ok s') :
    OptedIn s 1 sender id ∧ usersAt s' 1 = usersAt s 1 ∨
      ¬ OptedIn s 1 sender id ∧ ForcedFor s' sender id debt := by
  simp only [editRedemptionInfo, bind_eq_ok, pure_eq_ok] at done
  obtain ⟨_, -, ⟨mid, left⟩, hadd, acc, hfold, rfl⟩ := done
  rw [if_neg (by decide)] at hadd
  have hadd : addRedemptions s sender forcedRedemption 1 [id] = .ok (mid, left) := hadd
  rcases addRedemptions_forced (kept 1) owes hadd with ⟨hopted, hsame, rfl⟩ | ⟨hnot, hforced⟩
  · left
    rw [editPremiums_idle hfold]
    exact ⟨hopted, hsame⟩
  · right
    have hadded := addRedemptions_spec hadd
    have hmidKept : ∀ premium, Kept (usersAt mid premium) := by
      intro premium
      by_cases same : premium = 1
      · subst same
        exact hadded.kept (List.cons_ne_nil id []) (List.nodup_singleton id) (kept 1)
      · rw [hadded.others premium same]
        exact kept premium
    have hall : ∀ other ∈ left, other = id := by
      cases hadded with
      | grown _ _ _ _ _ _ hleft =>
        rw [hleft]
        exact fun _ mem => (List.not_mem_nil mem).elim
      | new _ _ _ _ _ hleft =>
        rw [hleft]
        exact fun _ mem => List.mem_singleton.mp mem
    have hstart : ForcedPremiums sender id debt (mid, left) :=
      ⟨hmidKept, hall, hforced, owes.of_onlyOptIn (addRedemptions_onlyOptIn hadd)⟩
    exact ⟨hnot, (foldlM_keeps (ForcedPremiums sender id debt)
      (fun _ _ _ before step => editPremium_forcedPremiums before step) _ _ _ hstart hfold).forced⟩

end Forced

/-! ## After a debt increase -/

/-- The position is not opted in at the premium of forced redemptions before an increase,
    or it is for the debt that the increase leads to. -/
def EntryFollows (s : State) (call : Call) (positionId : Nat) (amount : Option Nat)
    (ltv : Option Decimal) : Prop :=
  ¬ OptedIn s 1 call.info.sender positionId ∨
    ∃ i position debt, getTargetPosition s call.info.sender positionId = .ok (i, position) ∧
      increasedDebt call.deps call.env call.info s position amount ltv = .ok debt ∧
      ForcedFor s call.info.sender positionId debt

/-- After a debt increase of a position with hiked collateral, the position is opted in at
    a premium of one percent for all of its debt exactly when it was not opted in there
    before, or was for the debt that it has now. -/
theorem forced_redemption_effective_iff {deps : Deps} {env : Env} {info : MessageInfo}
    {msg : InstantiateMsg} {created s s' : State} {start response : Response OutMsg} {call : Call}
    {positionId i : Nat} {amount : Option Nat} {ltv : Option Decimal} {mintToAddr : Option String}
    {position : Position} (instantiated : instantiate deps env info msg = .ok (created, start))
    (run : RunWhere transactionStep FromOutside created s)
    (increase : call.msg = .increaseDebt positionId amount ltv mintToAddr)
    (step : call.steps s s' response)
    (found : getTargetPosition s call.info.sender positionId = .ok (i, position))
    (hiked : anyHiked position.collateralAssets = true) :
    ∃ j position', getTargetPosition s' call.info.sender positionId = .ok (j, position') ∧
      (ForcedFor s' call.info.sender positionId position'.creditAmount ↔
        EntryFollows s call positionId amount ltv) := by
  have hlisted : WellListed s := run_wellListed instantiated run
  unfold Call.steps at step
  rw [increase] at step
  obtain ⟨i', j, position₀, target, mid, hfound, hsame, hpositions, htarget, hdebt, hforce⟩ :=
    increaseDebt_forced step
  obtain ⟨rfl, rfl⟩ : i' = i ∧ position₀ = position := by
    rw [found] at hfound
    simpa [eq_comm] using hfound
  unfold forceRedemption at hforce
  rw [if_pos hiked] at hforce
  have hafter : getTargetPosition s' call.info.sender positionId = .ok (j, target) := by
    rw [← htarget]
    simp only [getTargetPosition, hpositions]
  refine ⟨j, target, hafter, ?_⟩
  have hspec := forcedEdit_spec (hsame.wellListed hlisted).kept ⟨j, target, htarget, rfl⟩ hforce
  rcases hspec with ⟨hopted, hlist⟩ | ⟨hnot, hforced⟩
  · -- the entry is as it was
    have hentry : ForcedFor s' call.info.sender positionId target.creditAmount ↔
        ForcedFor s call.info.sender positionId target.creditAmount := by
      refine ForcedFor.of_usersAt ?_
      rw [hlist, hsame.usersAt_eq 1]
    rw [hentry]
    constructor
    · intro hforced
      exact .inr ⟨i', position₀, target.creditAmount, found, hdebt, hforced⟩
    · rintro (hnot | ⟨_, other, debt, hother, hdebt', hforced⟩)
      · exact absurd (hsame.optedIn.mp hopted) hnot
      · obtain rfl : position₀ = other := by
          rw [found] at hother
          exact (Prod.mk.inj (Except.ok.inj hother)).2
        obtain rfl : target.creditAmount = debt := Except.ok.inj (hdebt.symm.trans hdebt')
        exact hforced
  · exact iff_of_true hforced (.inl fun hopted => hnot (hsame.optedIn.mpr hopted))

/-! ## On a sample chain -/

def addHiked : Call := sampleCall 0 "gov" (.editBasket {
  addedCAsset := some ⟨⟨.nativeToken "uosmo", 0⟩, Decimal.percent 40, Decimal.percent 50,
    Decimal.one, none, some true⟩
  collateralSupplyCaps := some [⟨.nativeToken "uosmo", 0, 0, Decimal.one, false, none⟩] })

def hikedDeposit : Call :=
  ⟨atPar, atTime 0, MessageInfo.oneCoin "user" ⟨"uosmo", 40000000000⟩ (by decide),
    .deposit none none⟩

def hikedIncrease (positionId : Nat) : Call :=
  sampleCall 0 "user" (.increaseDebt positionId (some 1000000000) none none)

/-- Another borrower opts in, the user borrows against hiked collateral, and a redemption
    goes through both. -/
def hikedRedeemed : List Call :=
  [openBasket, addHiked, sampleDeposit 0 "other" none 35000000000 (by decide),
    sampleCall 0 "other" (.increaseDebt 1 (some 1000000000) none none),
    sampleCall 0 "other" (.editRedeemability [1] ⟨some true, some 0,
      some (Decimal.percent 50), none⟩),
    hikedDeposit, hikedIncrease 2, sampleRedemption]

/-- Whether a position is stored and holds hiked collateral. -/
def holdsHiked (s : State) (owner : Addr) (id : Nat) : Bool :=
  match getTargetPosition s owner id with
  | .ok (_, position) => anyHiked position.collateralAssets
  | .error _ => false

theorem holdsHiked_spec {s : State} {owner : Addr} {id : Nat}
    (holds : holdsHiked s owner id = true) :
    ∃ i position, getTargetPosition s owner id = .ok (i, position) ∧
      anyHiked position.collateralAssets = true := by
  unfold holdsHiked at holds
  split at holds
  case h_1 i position found => exact ⟨i, position, found, holds⟩
  case h_2 => cases holds

/-- The redemption has taken the entry without an amount out, and the next increase puts
    in one for all of the debt. -/
theorem forced_redemption_effective_redeemed :
    ∃ s s' response, sampleResponse hikedRedeemed (hikedIncrease 2) = some (s, s', response) ∧
      ∃ j position', getTargetPosition s' "user" 2 = .ok (j, position') ∧
        ForcedFor s' "user" 2 position'.creditAmount := by
  have hstored : (sampleResponse hikedRedeemed (hikedIncrease 2)).map (fun run =>
      (holdsHiked run.1 "user" 2, entriesOf (usersAt run.1 1))) = some (true, []) := by
    decide +kernel
  obtain ⟨⟨s, s', response⟩, hrun, hstored⟩ := Option.map_eq_some_iff.mp hstored
  obtain ⟨hhiked, hnone⟩ := Prod.mk.inj hstored
  obtain ⟨hs, hcall⟩ := sampleResponse_spec hrun
  obtain ⟨created, hnew, hcalls⟩ := Option.bind_eq_some_iff.mp hs
  obtain ⟨start, hcreated⟩ := newContract_spec hnew
  obtain ⟨i, position, hfound, hhiked⟩ := holdsHiked_spec hhiked
  have hreached : RunWhere transactionStep FromOutside created s := by
    refine transactions_of_calls (execAll_run (fun _ _ _ => Call.exec_step) (fun call mem s => ?_)
      hcalls)
    simp only [hikedRedeemed, List.mem_cons, List.not_mem_nil, or_false] at mem
    rcases mem with rfl | rfl | rfl | rfl | rfl | rfl | rfl | rfl <;> trivial
  obtain ⟨j, position', hafter, heffective⟩ :=
    forced_redemption_effective_iff hcreated hreached rfl hcall hfound hhiked
  refine ⟨s, s', response, hrun, j, position', hafter, heffective.mpr (.inl ?_)⟩
  intro hopted
  have hmem : ("user", 2) ∈ entriesOf (usersAt s 1) := hopted
  rw [hnone] at hmem
  cases hmem

/-- The first deposit opts the position in for its debt of nothing, and the debt increase
    leaves that as it is. -/
theorem forced_redemption_not_effective :
    ¬ ∀ calls call positionId amount ltv mintToAddr s s' response,
      (∀ call ∈ calls, ∀ s, FromOutside s (.call call)) →
      call.msg = .increaseDebt positionId amount ltv mintToAddr →
      sampleResponse calls call = some (s, s', response) →
      holdsHiked s call.info.sender positionId = true →
      ∀ j position', getTargetPosition s' call.info.sender positionId = .ok (j, position') →
        ForcedFor s' call.info.sender positionId position'.creditAmount := by
  intro claim
  have hlists : (sampleResponse [openBasket, addHiked, hikedDeposit] (hikedIncrease 1)).map
      (fun run => (holdsHiked run.1 "user" 1,
        (getTargetPosition run.2.1 "user" 1).toOption.map fun found => found.2.creditAmount,
        (usersAt run.2.1 1).flatMap fun user =>
          user.positionInfos.map PositionRedemption.remainingLoanRepayment)) =
      some (true, some 1000000000, [0]) := by
    decide +kernel
  obtain ⟨⟨s, s', response⟩, hrun, hlists⟩ := Option.map_eq_some_iff.mp hlists
  simp only [Prod.mk.injEq] at hlists
  obtain ⟨hhiked, hdebt, hamounts⟩ := hlists
  have houtside :
      ∀ call ∈ [openBasket, addHiked, hikedDeposit], ∀ s, FromOutside s (.call call) := by
    intro call mem s
    simp only [List.mem_cons, List.not_mem_nil, or_false] at mem
    rcases mem with rfl | rfl | rfl
    · trivial
    · trivial
    · trivial
  cases hfound : getTargetPosition s' "user" 1 with
  | error fault =>
    rw [hfound] at hdebt
    cases hdebt
  | ok found =>
    obtain ⟨j, position'⟩ := found
    rw [hfound] at hdebt
    have hcredit : position'.creditAmount = 1000000000 := Option.some.inj hdebt
    obtain ⟨user, huser, -, entry, hentry, -, hamount⟩ :=
      claim _ _ 1 _ _ _ s s' response houtside rfl hrun hhiked j position' hfound
    have hmem : entry.remainingLoanRepayment ∈ [0] := by
      rw [← hamounts]
      exact List.mem_flatMap.mpr ⟨user, huser, List.mem_map_of_mem hentry⟩
    rw [hamount, hcredit] at hmem
    exact absurd hmem (by decide)

end Membrane.Cdp
