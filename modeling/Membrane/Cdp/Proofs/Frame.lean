import Membrane.Cdp.Proofs.Runs

/-!
# Calls that leave the opt-ins alone

Deposits, debt increases, redemptions and edits write `REDEMPTION_OPT_IN`. Every other
call, and a liquidation with all that it sets off, leaves it as it is.
-/

namespace Membrane.Cdp

open Outcome

def SameOptIns (s s' : State) : Prop := s'.redemptionOptIn = s.redemptionOptIn

section Frame

variable {deps : Deps} {env : Env} {info : MessageInfo} {s s' : State} {response : Response OutMsg}

theorem updatePosition_sameOptIns {owner : Addr} {position : Position}
    (done : updatePosition s owner position = .ok s') : SameOptIns s s' := by
  unfold updatePosition at done
  split at done
  case h_1 =>
    obtain rfl := Except.ok.inj done
    rfl
  case h_2 => simp at done

theorem updateConfig_sameOptIns {update : UpdateConfig}
    (done : updateConfig deps info update s = .ok (s', response)) : SameOptIns s s' := by
  simp only [updateConfig, bind_eq_ok, pure_eq_ok, liftStd_eq_ok, Prod.mk.injEq] at done
  obtain ⟨_, -, _, -, _, -, rfl, -⟩ := done
  rfl

theorem editBasket_sameOptIns {edit : EditBasket}
    (done : editBasket deps env info edit s = .ok (s', response)) : SameOptIns s s' := by
  simp only [editBasket, bind_eq_ok, pure_eq_ok, liftStd_eq_ok, Prod.mk.injEq] at done
  obtain ⟨_, -, _, -, _, -, rfl, -⟩ := done
  rfl

theorem editCAsset_sameOptIns {asset : AssetInfo} {maxBorrowLTV maxLTV : Option Decimal}
    (done : editCAsset info asset maxBorrowLTV maxLTV s = .ok (s', response)) :
    SameOptIns s s' := by
  simp only [editCAsset, bind_eq_ok, pure_eq_ok, Prod.mk.injEq] at done
  obtain ⟨_, -, _, -, _, -, _, -, rfl, -⟩ := done
  rfl

theorem withdraw_sameOptIns {positionId : Nat} {cAssets : List CAsset} {sendTo : Option String}
    (done : withdraw deps env info positionId cAssets sendTo s = .ok (s', response)) :
    SameOptIns s s' := by
  simp only [withdraw, bind_eq_ok, pure_eq_ok, liftStd_eq_ok, Prod.mk.injEq] at done
  obtain ⟨_, -, _, -, _, -, _, -, _, -, _, -, _, -, _, -, rfl, -⟩ := done
  rfl

theorem repay_sameOptIns {positionId : Nat} {positionOwner : Option String} {asset : Asset}
    {sendExcessTo : Option String}
    (done : repay deps env info positionId positionOwner asset sendExcessTo s =
      .ok (s', response)) :
    SameOptIns s s' := by
  simp only [repay, bind_eq_ok, pure_eq_ok, liftStd_eq_ok, Prod.mk.injEq] at done
  obtain ⟨_, -, _, -, _, -, _, -, _, -, _, -, _, -, _, -, _, -, _, -, _, -, rfl, -⟩ := done
  rfl

theorem externalAccrueCall_sameOptIns {positionOwner : Option String} {positionIds : List Nat}
    (done : externalAccrueCall deps env info positionOwner positionIds s = .ok (s', response)) :
    SameOptIns s s' := by
  simp only [externalAccrueCall, bind_eq_ok, pure_eq_ok, liftStd_eq_ok, Prod.mk.injEq] at done
  obtain ⟨owner, -, ⟨last, basket⟩, hfold, rfl, -⟩ := done
  refine foldlM_keeps (fun acc : State × Basket => SameOptIns s acc.1)
    (fun acc id acc' hinv hstep => ?_) _ (s, s.basket) _ rfl hfold
  simp only [accruePosition, bind_eq_ok, pure_eq_ok, liftStd_eq_ok] at hstep
  obtain ⟨_, -, out, -, s₁, hupdate, rfl⟩ := hstep
  exact (updatePosition_sameOptIns hupdate).trans hinv

/-! ## Liquidation -/

theorem liquidate_sameOptIns {positionId : Nat} {positionOwner : String}
    (done : liquidate deps env info positionId positionOwner s = .ok (s', response)) :
    SameOptIns s s' := by
  simp only [liquidate, bind_eq_ok, liftStd_eq_ok, pure_eq_ok, Prod.mk.injEq] at done
  obtain ⟨_, -, _, -, ⟨_, _⟩, -, ⟨⟨_, _, _⟩, _⟩, -, _, -, ⟨_, _⟩, -, _, -, ⟨_, _, _⟩, -, _, -, _, -,
    ⟨mid, target⟩, hsettle, _, -, _, -, ⟨_, _, _⟩, -, rfl, -⟩ := done
  have hmid : SameOptIns s mid := by
    split at hsettle
    case isTrue =>
      simp only [settleUserRepayment, bind_eq_ok, pure_eq_ok, liftStd_eq_ok, Prod.mk.injEq]
        at hsettle
      obtain ⟨_, -, _, -, _, hupdate, rfl, -⟩ := hsettle
      have hsame := updatePosition_sameOptIns hupdate
      exact hsame
    case isFalse =>
      obtain ⟨rfl, -⟩ := Prod.mk.inj (pure_eq_ok.mp hsettle)
      rfl
  exact hmid

theorem liqRepay_sameOptIns {asset : Asset}
    (done : liqRepay deps env info asset s = .ok (s', response)) : SameOptIns s s' := by
  simp only [liqRepay, bind_eq_ok, liftStd_eq_ok, pure_eq_ok, Prod.mk.injEq] at done
  obtain ⟨_, -, _, -, _, -, _, -, _, -, _, -, _, -, _, -, _, -, _, -, _, -, _, -, _, hupdate, rfl,
    -⟩ := done
  have hsame := updatePosition_sameOptIns hupdate
  exact hsame

theorem handleLiqQueueReply_sameOptIns {event : Option LiqQueueEvent}
    (done : handleLiqQueueReply deps env event s = .ok (s', response)) : SameOptIns s s' := by
  simp only [handleLiqQueueReply, bind_eq_ok, pure_eq_ok, Prod.mk.injEq] at done
  obtain ⟨_, -, _, -, prop, -, _, -, _, -, _, -, _, -, prop₁, -, s₁, hstore, _, -, rfl, -⟩ := done
  have hs : SameOptIns s s₁ := by
    split at hstore
    case isTrue =>
      simp only [storeLiquidated, bind_eq_ok] at hstore
      obtain ⟨_, -, hupdate⟩ := hstore
      have hsame := updatePosition_sameOptIns hupdate
      exact hsame
    case isFalse =>
      obtain rfl := pure_eq_ok.mp hstore
      rfl
  exact hs

theorem reply_sameOptIns {msg : Reply} (done : reply deps env msg s = .ok (s', response)) :
    SameOptIns s s' := by
  unfold reply at done
  split at done
  case isTrue => exact handleLiqQueueReply_sameOptIns done
  case isFalse =>
    split at done
    case isTrue =>
      simp only [handleWithdrawReply, bind_eq_ok, pure_eq_ok, Prod.mk.injEq] at done
      obtain ⟨_, -, _, -, rfl, -⟩ := done
      rfl
    case isFalse =>
      split at done
      case isTrue =>
        obtain ⟨rfl, -⟩ := Prod.mk.inj (Except.ok.inj done)
        rfl
      case isFalse => simp at done

theorem checkAndFulfillBadDebt_sameOptIns {positionId : Nat} {owner : Addr}
    (done : checkAndFulfillBadDebt positionId owner s = .ok (s', response)) :
    SameOptIns s s' := by
  simp only [checkAndFulfillBadDebt, bind_eq_ok, liftStd_eq_ok] at done
  obtain ⟨_, -, _, -, _, -, _, -, s₁, hupdate, hrest⟩ := done
  split at hrest
  case h_1 =>
    simp only [bind_eq_ok, pure_eq_ok, Prod.mk.injEq] at hrest
    obtain ⟨_, -, rfl, -⟩ := hrest
    have hsame := updatePosition_sameOptIns hupdate
    exact hsame
  case h_2 => simp at hrest

theorem carryOut_sameOptIns {p p' : Progress} {sub : SubMsg OutMsg}
    (done : carryOut env p sub = some p') : SameOptIns p.state p'.state := by
  unfold carryOut at done
  split at done
  case h_1 =>
    unfold carryRepay at done
    split at done
    case h_1 => cases done
    case h_2 =>
      split at done
      case isFalse => cases done
      case isTrue =>
        split at done
        case h_1 hdone =>
          obtain rfl := Option.some.inj done
          simp only [execute, executeRepay, bind_eq_ok] at hdone
          obtain ⟨_, -, hrepay⟩ := hdone
          exact repay_sameOptIns hrepay
        case h_2 => cases done
  case h_2 =>
    unfold carryAsk at done
    split at done
    case h_1 => cases done
    case h_2 =>
      split at done
      case h_1 hdone =>
        obtain rfl := Option.some.inj done
        exact reply_sameOptIns hdone
      case h_2 => cases done
  case h_3 =>
    unfold carryLiqRepay at done
    split at done
    case h_1 => cases done
    case h_2 =>
      split at done
      case isFalse => cases done
      case isTrue =>
        split at done
        case h_1 hdone =>
          obtain rfl := Option.some.inj done
          exact liqRepay_sameOptIns hdone
        case h_2 => cases done
  case h_4 =>
    split at done
    case h_1 hdone =>
      split at done
      case isTrue =>
        obtain rfl := Option.some.inj done
        exact checkAndFulfillBadDebt_sameOptIns hdone
      case isFalse =>
        obtain rfl := Option.some.inj done
        rfl
    case h_2 =>
      obtain rfl := Option.some.inj done
      rfl
  case h_5 =>
    obtain rfl := Option.some.inj done
    rfl
  case h_6 =>
    obtain rfl := Option.some.inj done
    rfl
  case h_7 =>
    obtain rfl := Option.some.inj done
    rfl

theorem liquidation_sameOptIns {l : Liquidation} {p : Progress} (done : l.exec s = some p) :
    SameOptIns s p.state := by
  refine Liquidation.exec_keeps (SameOptIns s) (fun s' response hliquidate => ?_)
    (fun p sub p' hinv hcarry => ?_) done
  · exact liquidate_sameOptIns hliquidate
  · exact (carryOut_sameOptIns hcarry).trans hinv

end Frame

end Membrane.Cdp
