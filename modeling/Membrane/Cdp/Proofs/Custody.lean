import Membrane.Cdp.Proofs.Consistency
import Membrane.Cdp.Proofs.RedemptionOrder
import Membrane.Cdp.Proofs.Safety

/-!
# What takes collateral off a position

Of the calls that anyone can make, only three ever leave less of an asset on a stored
position: a withdrawal by its owner, a redemption while it is opted in, and a
liquidation that finds it insolvent. Everything else, whoever sends it and whatever
position it is about, leaves what the position holds or adds to it.
-/

namespace Membrane.Cdp

open Outcome

/-- No asset is stored for the position in a smaller amount than before. -/
def Retains (store store' : Store) (owner : Addr) (id : Nat) : Prop :=
  ∀ info, storedAmount store owner id info ≤ storedAmount store' owner id info

namespace Retains

variable {store store' store'' : Store} {owner : Addr} {id : Nat}

theorem of_at_eq (same : positionAt store' owner id = positionAt store owner id) :
    Retains store store' owner id := by
  intro info
  rw [storedAmount, storedAmount, same]

theorem of_eq (same : store' = store) : Retains store store' owner id :=
  of_at_eq (by rw [same])

theorem trans (h : Retains store store' owner id) (h' : Retains store' store'' owner id) :
    Retains store store'' owner id :=
  fun info => (h info).trans (h' info)

theorem of_replaced {owner' : Addr} {old new : Position} {nextId : Nat}
    (write : Replaced store store' owner' old new) (sound : SoundIds nextId store)
    (grows : ∀ info, amountOf info old.held ≤ amountOf info new.held) :
    Retains store store' owner id := by
  by_cases same : owner = owner' ∧ id = old.positionId
  · obtain ⟨rfl, rfl⟩ := same
    intro info
    rw [storedAmount_of_some (write.old_at sound), storedAmount_of_some (write.new_at sound)]
    exact grows info
  · exact of_at_eq (write.other_at (not_and_or.mp same))

theorem of_removed {owner' : Addr} {old : Position} {nextId : Nat}
    (write : Removed store store' owner' old) (sound : SoundIds nextId store)
    (empty : nothingLeft old.held = true) : Retains store store' owner id := by
  by_cases same : owner = owner' ∧ id = old.positionId
  · obtain ⟨rfl, rfl⟩ := same
    intro info
    rw [storedAmount_of_some (write.old_at sound), amountOf_eq_zero empty]
    exact Nat.zero_le _
  · exact of_at_eq (write.other_at (not_and_or.mp same))

theorem of_added {owner' : Addr} {new : Position} (write : Added store store' owner' new) :
    Retains store store' owner id := by
  intro info
  cases found : positionAt store owner id with
  | none =>
    rw [storedAmount_of_none found]
    exact Nat.zero_le _
  | some position => rw [storedAmount_of_some found, storedAmount_of_some (write.old_at found)]

end Retains

/-! ## What takes collateral -/

/-- The withdrawal is from the position by its owner, or comes back to another position of
    the owner that it has emptied. -/
def WithdrawsFrom (s : State) (call : Call) (positionId : Nat) (assets : List Asset)
    (sendTo : Option String) (owner : Addr) (id : Nat) : Prop :=
  ∃ recipient i position, validatePositionOwner call.deps call.info sendTo = .ok recipient ∧
    withdrawOwner call.env call.info recipient sendTo = owner ∧
    getTargetPosition s owner positionId = .ok (i, position) ∧
    (id = positionId ∨ revisitsEmptied position.held assets = true)

/-- The liquidation finds the position above its maximum loan-to-value, or without
    collateral for its debt. -/
def FindsInsolvent (s : State) (l : Liquidation) : Prop :=
  ∃ i position ltv fee avg,
    getTargetPosition s l.positionOwner l.positionId = .ok (i, position) ∧
    insolvencyCheck l.deps l.env s.config s.prices s.basket position.collateralAssets
      position.creditAmount s.basket.creditPrice false = .ok ((true, ltv, fee), avg) ∧
    (avg.avgMaxLTV < ltv ∨ ∀ info, amountOf info position.held = 0)

def TakesFrom (s : State) (t : Transaction) (owner : Addr) (id : Nat) : Prop :=
  match t with
  | .call call =>
    match call.msg with
    | .withdraw positionId assets sendTo =>
      WithdrawsFrom s call positionId assets sendTo owner id
    | .redeemCollateral maxCollateralPremium =>
      ∃ premium, premium ≤ maxCollateralPremium.getD 99 ∧ OptedIn s premium owner id
    | _ => False
  | .liquidation l => l.positionOwner = owner ∧ l.positionId = id ∧ FindsInsolvent s l

/-! ## Deposits -/

theorem amountOf_raised {held : List Asset} {i : Nat} {asset : Asset}
    (found : held[i]? = some asset) (amount : Nat) (info : AssetInfo) :
    amountOf info held ≤
      amountOf info (held.set i { asset with amount := asset.amount + amount }) := by
  have h := ListEdit.sum_set (fun asset : Asset => if asset.info = info then asset.amount else 0)
    { asset with amount := asset.amount + amount } found
  unfold amountOf
  by_cases same : asset.info = info
  · simp only [same, if_true] at h ⊢
    omega
  · simp only [same, if_false] at h ⊢
    omega

theorem depositAsset_grows {acc acc' : List CAsset × List Asset} {deposit : CAsset}
    (done : depositAsset acc deposit = .ok acc') (info : AssetInfo) :
    amountOf info (collateralHeld acc.1) ≤ amountOf info (collateralHeld acc'.1) := by
  unfold depositAsset at done
  split at done
  case h_1 i _ =>
    simp only [bind_eq_ok, pure_eq_ok, index_eq_ok, Uint128.add_eq_ok, setIndex_eq_ok] at done
    obtain ⟨cAsset, hget, amount, ⟨-, rfl⟩, assets, ⟨-, rfl⟩, rfl⟩ := done
    have hasset : (collateralHeld acc.1)[i]? = some cAsset.asset := by
      rw [collateralHeld, List.getElem?_map, hget]
      rfl
    have hraised := amountOf_raised hasset deposit.asset.amount info
    simpa only [collateralHeld, List.map_set] using hraised
  case h_2 =>
    obtain rfl := pure_eq_ok.mp done
    simp only [collateralHeld, List.map_append, amountOf_append]
    exact Nat.le_add_right _ _

theorem depositAssets_grow {deposits : List CAsset} {acc acc' : List CAsset × List Asset}
    (done : deposits.foldlM depositAsset acc = .ok acc') (info : AssetInfo) :
    amountOf info (collateralHeld acc.1) ≤ amountOf info (collateralHeld acc'.1) := by
  refine foldlM_keeps
    (fun later => amountOf info (collateralHeld acc.1) ≤ amountOf info (collateralHeld later.1))
    (fun mid deposit next before step => ?_) deposits acc acc' (Nat.le_refl _) done
  exact before.trans (depositAsset_grows step info)

section Calls

variable {s s' : State} {call : Call} {response : Response OutMsg} {owner : Addr} {id : Nat}

theorem deposit_retains {positionId : Option Nat} {positionOwner : Option String} (sound : s.Sound)
    (done : executeDeposit call.deps call.env call.info positionId positionOwner s =
      .ok (s', response)) : Retains s.positions s'.positions owner id := by
  simp only [executeDeposit, bind_eq_ok, guardErr_eq_ok] at done
  obtain ⟨deposits, -, _, -, hdeposit⟩ := done
  obtain ⟨-, owner', -, into | new⟩ := deposit_spec hdeposit
  · obtain ⟨_, position, assets, out, -, into⟩ := into
    obtain ⟨previous, hgrown⟩ := into.grown
    exact .of_replaced into.write sound (depositAssets_grow hgrown)
  · obtain ⟨out, new⟩ := new
    exact .of_added new.write

/-! ## The other calls -/

theorem repay_retains {positionId : Nat} {positionOwner sendExcessTo : Option String}
    (sound : s.Sound)
    (done : executeRepay call.deps call.env call.info positionId positionOwner sendExcessTo s =
      .ok (s', response)) : Retains s.positions s'.positions owner id := by
  simp only [executeRepay, bind_eq_ok] at done
  obtain ⟨_, -, hrepay⟩ := done
  obtain ⟨owner', position, charged, _, _, -, -, repaid, -⟩ := repay_spec hrepay
  obtain ⟨prices, haccrue⟩ := repaid.accrued
  obtain ⟨interest, hcharged⟩ := accrueForRepay_charged haccrue
  cases repaid.write with
  | replaced _ write =>
    refine .of_replaced write sound fun info => ?_
    rw [← hcharged.held]
    exact Nat.le_refl _
  | removed empty write =>
    rw [checkForEmptyPosition_eq] at empty
    exact .of_removed write sound empty

theorem increaseDebt_retains {positionId : Nat} {amount : Option Nat} {ltv : Option Decimal}
    {mintToAddr : Option String} (sound : s.Sound)
    (done : increaseDebt call.deps call.env call.info positionId amount ltv mintToAddr s =
      .ok (s', response)) : Retains s.positions s'.positions owner id := by
  obtain ⟨position, out, _, -, increased, -⟩ := increaseDebt_spec done
  refine .of_replaced increased.write sound fun info => ?_
  rw [← (accrue_charged increased.accrued).held]
  exact Nat.le_refl _

theorem accrue_retains {positionOwner : Option String} {positionIds : List Nat} (sound : s.Sound)
    (done : externalAccrueCall call.deps call.env call.info positionOwner positionIds s =
      .ok (s', response)) : Retains s.positions s'.positions owner id := by
  simp only [externalAccrueCall, bind_eq_ok, pure_eq_ok, liftStd_eq_ok, Prod.mk.injEq] at done
  obtain ⟨owner', -, ⟨last, basket⟩, hfold, rfl, -⟩ := done
  have hlast := foldlM_keeps (fun acc : State × Basket =>
      SoundIds s.basket.currentPositionId acc.1.positions ∧
        Retains s.positions acc.1.positions owner id)
    (fun acc id acc' hinv hstep => by
      obtain ⟨position, out, haccrue, hwrite, -⟩ := accruePosition_spec hinv.1 hstep
      refine ⟨hwrite.ids hinv.1, hinv.2.trans (.of_replaced hwrite hinv.1 fun info => ?_)⟩
      rw [(accrue_charged haccrue).held]) _ (s, s.basket) _
    ⟨sound, .of_eq rfl⟩ hfold
  exact hlast.2

theorem withdraw_retains {positionId : Nat} {assets : List Asset} {sendTo : Option String}
    (sound : s.Sound) (spared : ¬ WithdrawsFrom s call positionId assets sendTo owner id)
    (done : executeWithdraw call.deps call.env call.info positionId assets sendTo s =
      .ok (s', response)) : Retains s.positions s'.positions owner id := by
  obtain ⟨-, recipient, position, out, hrecipient, ⟨i, htarget⟩, outcome⟩ :=
    executeWithdraw_spec done
  obtain ⟨-, -, -, hid⟩ := getTargetPosition_spec htarget
  by_cases howner : owner = withdrawOwner call.env call.info recipient sendTo
  · have hother : ¬ (id = positionId ∨ revisitsEmptied position.held assets = true) :=
      fun h => spared ⟨recipient, i, position, hrecipient, howner.symm, howner ▸ htarget, h⟩
    cases outcome with
    | overran again _ => exact absurd (.inr again) hother
    | once target _ withdrawn =>
      cases htouch : touches position.held assets with
      | false => exact .of_eq (withdrawn.untouched htouch)
      | true =>
        have hothers := ((withdrawn.written htouch).after sound).2.2
        exact .of_at_eq (hothers owner id (.inr (hid ▸ fun same => hother (.inl same))))
  · cases outcome with
    | overran _ overran =>
      obtain ⟨list, kept, _, hdropped, -⟩ := overran.dropped
      exact .of_at_eq (hdropped.others_at howner id)
    | once target _ withdrawn =>
      cases htouch : touches position.held assets with
      | false => exact .of_eq (withdrawn.untouched htouch)
      | true =>
        have hothers := ((withdrawn.written htouch).after sound).2.2
        exact .of_at_eq (hothers owner id (.inl howner))

end Calls

/-! ## Redemption -/

theorem redeem_retains {deps : Deps} {env : Env} {info : MessageInfo} {maxCollateralPremium : Nat}
    {s s' : State} {response : Response OutMsg} {owner : Addr} {id : Nat} (sound : s.Sound)
    (out : ∀ premium, premium ≤ maxCollateralPremium → ¬ OptedIn s premium owner id)
    (done : redeemForCollateral deps env info maxCollateralPremium s = .ok (s', response)) :
    Retains s.positions s'.positions owner id := by
  obtain ⟨visited, unvisited, loop, rfl, served, hvisits⟩ := redeemForCollateral_served sound done
  refine .of_at_eq (served.untouched owner id ?_)
  rintro visit mem ⟨rfl, rfl⟩
  have hmem : visit ∈ redemptionVisits s (List.range (maxCollateralPremium + 1)) :=
    hvisits ▸ List.mem_append_left unvisited mem
  obtain ⟨premium, hpremium, hopted⟩ := mem_redemptionVisits hmem
  exact out premium (Nat.le_of_lt_succ (List.mem_range.mp hpremium)) hopted

/-! ## Liquidation -/

section Liquidation

variable {s s' : State} {owner other : Addr} {positionId id : Nat}

theorem Saved.others {store store' : Store} {new : Position}
    (saved : Saved store store' owner new) (apart : other ≠ owner ∨ id ≠ new.positionId) :
    positionAt store' other id = positionAt store other id := by
  cases saved with
  | replaced old write => exact write.other_at (write.same ▸ apart)
  | gone _ write => exact write.at_eq other id

theorem OwnerStage.others {covers : Prop} {due : Nat} {payment : Option Payment}
    (stage : OwnerStage covers s s' owner positionId due payment)
    (apart : other ≠ owner ∨ id ≠ positionId) :
    positionAt s'.positions other id = positionAt s.positions other id := by
  cases stage with
  | idle same => rw [same]
  | repaid _ i stored _ found write =>
    obtain ⟨-, -, -, rfl⟩ := getTargetPosition_spec found
    cases write.write with
    | replaced _ replaced => exact replaced.other_at apart
    | removed _ removed => exact removed.other_at apart

theorem ClosingStage.others (stage : ClosingStage s s' owner positionId)
    (apart : other ≠ owner ∨ id ≠ positionId) :
    positionAt s'.positions other id = positionAt s.positions other id := by
  cases stage with
  | nothing same => rw [same]
  | writtenOff i position _ found write =>
    obtain ⟨-, -, -, rfl⟩ := getTargetPosition_spec found
    exact write.write.other_at apart

theorem liquidation_others {l : Liquidation} {p : Progress} (sound : s.Sound)
    (done : l.exec s = some p) (apart : other ≠ l.positionOwner ∨ id ≠ l.positionId) :
    positionAt p.state.positions other id = positionAt s.positions other id := by
  obtain ⟨mid, position, due, msgs, prop, s₀, s₁, run, hclosing, -⟩ := exec_spec sound done
  obtain ⟨_, liquidated⟩ := run.liquidated
  obtain ⟨i, htarget⟩ := liquidated.target
  obtain ⟨-, -, -, hid⟩ := getTargetPosition_spec htarget
  have howner : prop.positionOwner = l.positionOwner :=
    (Deps.addrValidate_eq_ok.mp liquidated.owner).2.symm
  rw [howner] at hclosing
  have hfirst : positionAt s₀.positions other id = positionAt s.positions other id := by
    cases liquidated.write with
    | deferred _ same => rw [same]
    | settled _ write =>
      rw [howner] at write
      exact write.other_at (hid ▸ apart)
  have hrest : positionAt mid.state.positions other id = positionAt s₁.positions other id := by
    cases run.rest with
    | unwritten _ _ same => rw [same]
    | written target _ _ write =>
      have hsaved := write.saved
      rw [howner] at hsaved
      refine hsaved.others ?_
      rw [write.positionId, liquidated.positionId, hid]
      exact apart
  rw [hclosing.others apart, hrest, run.owner.others apart, hfirst]

theorem liquidate_findsInsolvent {l : Liquidation} {response : Response OutMsg}
    (done : liquidate l.deps l.env l.info l.positionId l.positionOwner s = .ok (s', response)) :
    FindsInsolvent s l := by
  simp only [liquidate, bind_eq_ok, liftStd_eq_ok, guardErr_eq_ok] at done
  obtain ⟨_, -, owner, howner, ⟨i, position⟩, htarget, ⟨⟨insolvent, ltv, fee⟩, avg⟩, hcheck, _,
    hguard, -⟩ := done
  obtain rfl : l.positionOwner = owner := (Deps.addrValidate_eq_ok.mp howner).2
  simp only [Bool.not_eq_false] at hguard
  subst hguard
  refine ⟨i, position, ltv, fee, avg, htarget, hcheck, ?_⟩
  simp only [insolvencyCheck, bind_eq_ok, pure_eq_ok, insolvencyCheckCalc, Prod.mk.injEq] at hcheck
  obtain ⟨_, -, _, ⟨total, htotal, hcalc⟩, rfl, rfl⟩ := hcheck
  split at hcalc
  case isTrue hnone =>
    right
    intro info
    have hzero := Uint128.sum_eq htotal
    rw [hnone.1] at hzero
    refine amountOf_eq_zero (List.all_eq_true.mpr fun asset mem => ?_)
    obtain ⟨cAsset, hmem, rfl⟩ := List.mem_map.mp mem
    have hamount := List.sum_eq_zero_iff.mp hzero.symm _ (List.mem_map_of_mem hmem)
    simpa using hamount
  case isFalse =>
    split at hcalc
    case isTrue => simp at hcalc
    case isFalse =>
      left
      simp only [bind_eq_ok, pure_eq_ok, Prod.mk.injEq, Bool.false_eq_true, if_false] at hcalc
      obtain ⟨_, -, ltv', -, _, -, hcheck, rfl, -⟩ := hcalc
      exact of_decide_eq_true hcheck

end Liquidation

/-! ## Steps and runs -/

theorem step_retains {s s' : State} {t : Transaction} {owner : Addr} {id : Nat} (sound : s.Sound)
    (outside : FromOutside s t) (spared : ¬ TakesFrom s t owner id)
    (step : transactionStep s t s') : Retains s.positions s'.positions owner id := by
  cases t with
  | liquidation l =>
    obtain ⟨p, hexec, rfl⟩ := step
    by_cases same : owner = l.positionOwner ∧ id = l.positionId
    · obtain ⟨rfl, rfl⟩ := same
      obtain ⟨_, _, _, _, _, _, _, run, -⟩ := exec_spec sound hexec
      obtain ⟨response, hliquidate⟩ := run.first
      exact absurd ⟨rfl, rfl, liquidate_findsInsolvent hliquidate⟩ spared
    · exact .of_at_eq (liquidation_others sound hexec (not_and_or.mp same))
  | call one =>
    obtain ⟨response, hstep⟩ := step
    unfold Call.steps execute at hstep
    unfold FromOutside at outside
    unfold TakesFrom at spared
    cases hmsg : one.msg <;> simp only [hmsg] at hstep outside spared
    case updateConfig => exact .of_eq (updateConfig_governed hstep).positions
    case deposit => exact deposit_retains sound hstep
    case increaseDebt => exact increaseDebt_retains sound hstep
    case withdraw => exact withdraw_retains sound spared hstep
    case repay => exact repay_retains sound hstep
    case redeemCollateral =>
      exact redeem_retains sound (fun premium hle hopted => spared ⟨premium, hle, hopted⟩) hstep
    case editRedeemability =>
      simp only [bind_eq_ok, pure_eq_ok, Prod.mk.injEq] at hstep
      obtain ⟨_, hedit, rfl, -⟩ := hstep
      exact .of_eq (editRedemptionInfo_governed hedit).positions
    case accrue => exact accrue_retains sound hstep
    case editBasket => exact .of_eq (editBasket_governed hstep).positions
    case editCAsset => exact .of_eq (editCAsset_governed hstep).positions

/-- The transactions from outside that do not take from a position. -/
def Spares (owner : Addr) (id : Nat) (s : State) (t : Transaction) : Prop :=
  FromOutside s t ∧ ¬ TakesFrom s t owner id

/-- Over any run of calls and liquidations, whoever makes them, no asset of a position is
    stored in a smaller amount unless its owner withdraws from it, it is redeemed from while
    opted in, or it is liquidated while insolvent. -/
theorem collateral_retained {deps : Deps} {env : Env} {info : MessageInfo} {msg : InstantiateMsg}
    {created s s' : State} {response : Response OutMsg} {owner : Addr} {id : Nat}
    (instantiated : instantiate deps env info msg = .ok (created, response))
    (before : RunWhere transactionStep FromOutside created s)
    (run : RunWhere transactionStep (Spares owner id) s s') :
    Retains s.positions s'.positions owner id := by
  have hkeeps : ∀ mid t next, mid.Sound ∧ Retains s.positions mid.positions owner id →
      Spares owner id mid t → transactionStep mid t next →
      next.Sound ∧ Retains s.positions next.positions owner id := by
    intro mid t next hinv hspares hstep
    refine ⟨transaction_sound hinv.1 hspares.1 hstep, ?_⟩
    exact hinv.2.trans (step_retains hinv.1 hspares.1 hspares.2 hstep)
  have hstart : s.Sound := runs_sound instantiated (fun _ _ houtside => houtside) before
  exact (RunWhere.keeps hkeeps run ⟨hstart, .of_eq rfl⟩).2

/-! ## On a sample chain -/

theorem otherDeposit_positive : 0 < 20000000000 := by decide

theorem addedDeposit_positive : 0 < 500000000 := by decide

def othersActing : List Call := [
  sampleDeposit 0 "other" none 20000000000 otherDeposit_positive,
  sampleCall 0 "other" (.withdraw 2 [⟨.nativeToken "uatom", 7000000000⟩] none),
  sampleCall 0 "other" (.increaseDebt 2 (some 1000000000) none none),
  sampleDeposit 0 "user" (some 1) 500000000 addedDeposit_positive]

/-- The states before and after. -/
def aroundOthers : Option (State × State) :=
  (afterGenesis 0 openedPosition).bind fun s => (execAll Call.exec othersActing s).map fun s' =>
    (s, s')

theorem othersActing_spares {call : Call} (mem : call ∈ othersActing) (s : State) :
    Spares "user" 1 s (.call call) := by
  simp only [othersActing, List.mem_cons, List.not_mem_nil, or_false] at mem
  rcases mem with rfl | rfl | rfl | rfl
  · exact ⟨trivial, id⟩
  · refine ⟨trivial, ?_⟩
    rintro ⟨recipient, _, _, -, howner, -⟩
    have hsender :
        withdrawOwner (atTime 0) (MessageInfo.noFunds "other") recipient none = "other" := by
      simp [withdrawOwner, MessageInfo.noFunds]
    exact absurd (hsender.symm.trans howner) (by decide)
  · exact ⟨trivial, id⟩
  · exact ⟨trivial, id⟩

theorem collateral_retained_others :
    ∃ s s', aroundOthers = some (s, s') ∧
      storedAmount s.positions "user" 1 (.nativeToken "uatom") = 45000000000 ∧
      storedAmount s'.positions "other" 2 (.nativeToken "uatom") = 13000000000 ∧
      Retains s.positions s'.positions "user" 1 := by
  have hamounts : aroundOthers.map (fun run =>
      (storedAmount run.1.positions "user" 1 (.nativeToken "uatom"),
        storedAmount run.2.positions "other" 2 (.nativeToken "uatom"))) =
          some (45000000000, 13000000000) := by decide +kernel
  obtain ⟨⟨s, s'⟩, hrun, hamounts⟩ := Option.map_eq_some_iff.mp hamounts
  obtain ⟨hbefore, hother⟩ := Prod.mk.inj hamounts
  obtain ⟨s₁, hs, hmap⟩ := Option.bind_eq_some_iff.mp hrun
  obtain ⟨s₂, hall, heq⟩ := Option.map_eq_some_iff.mp hmap
  obtain ⟨rfl, rfl⟩ := Prod.mk.inj heq
  obtain ⟨created, response, hcreated, hopened⟩ := afterGenesis_run (fun call mem s => by
    simp only [openedPosition, List.mem_cons, List.not_mem_nil, or_false] at mem
    rcases mem with rfl | rfl
    · trivial
    · trivial) hs
  refine ⟨s₁, s₂, hrun, hbefore, hother, ?_⟩
  exact collateral_retained hcreated hopened (transactions_of_calls
    (execAll_run (fun _ _ _ => Call.exec_step) (fun call mem s => othersActing_spares mem s) hall))

end Membrane.Cdp
