import Membrane.Cdp.Proofs.Redeeming
import Membrane.Cdp.Proofs.Settling

/-!
# Runs of calls and liquidations

The calls that anyone can make, and liquidations with all that they set off. The
calls that only a liquidation sets off are part of its transaction. Such runs keep
the ids of the stored positions apart, which a repayment of the pool against the
propagation of an earlier liquidation would not.
-/

namespace Membrane.Cdp

open Outcome

/-- A call from outside, or a whole liquidation. -/
def FromOutside (_ : State) : Transaction → Prop
  | .call call =>
    match call.msg with
    | .liquidate .. | .liqRepay | .badDebtCheck .. => False
    | _ => True
  | .liquidation _ => True

/-! ## The closing messages -/

/-- The callback of a liquidation wrote off bad debt, or nothing came of it. -/
inductive ClosingStage (s s' : State) (owner : Addr) (positionId : Nat) : Prop
  | nothing (same : s' = s)
  | writtenOff (i : Nat) (position : Position) (covered : Nat)
      (found : getTargetPosition s owner positionId = .ok (i, position))
      (write : WrittenOff s s' owner position covered)

theorem closing_spec {msgs : LiquidationMsgs} {env : Env} {caller owner : Addr} {config : Config}
    {positionId : Nat} {p p' : Progress} (sound : p.state.Sound)
    (done : (msgs.closing env caller config positionId owner).foldlM (carryOut env) p = some p') :
    ClosingStage p.state p'.state owner positionId ∧
      p'.sent = p.sent ++ msgs.callerCoins ++ msgs.protocolCoins ∧ p'.liqRepaid = p.liqRepaid := by
  simp only [LiquidationMsgs.closing, List.foldlM_cons, List.foldlM_nil, Option.bind_eq_bind,
    Option.bind_eq_some_iff, Option.pure_def, Option.some.injEq] at done
  obtain ⟨p₁, hcallback, p₂, hcaller, p₃, hprotocol, rfl⟩ := done
  obtain rfl : { p₁ with sent := p₁.sent ++ msgs.callerCoins } = p₂ := Option.some.inj hcaller
  obtain rfl := Option.some.inj hprotocol
  simp only [carryOut, SubMsg.replyOnError] at hcallback
  split at hcallback
  case h_1 s' response hcheck =>
    split at hcallback
    case isTrue =>
      obtain rfl := Option.some.inj hcallback
      obtain ⟨position, covered, ⟨i, hfound⟩, write, -⟩ := checkAndFulfillBadDebt_spec sound hcheck
      exact ⟨.writtenOff i position covered hfound write, rfl, rfl⟩
    case isFalse =>
      obtain rfl := Option.some.inj hcallback
      exact ⟨.nothing rfl, rfl, rfl⟩
  case h_2 =>
    obtain rfl := Option.some.inj hcallback
    exact ⟨.nothing rfl, rfl, rfl⟩

/-! ## Ids stay apart -/

theorem Saved.ids {store store' : Store} {owner : Addr} {new : Position} {nextId : Nat}
    (saved : Saved store store' owner new) (sound : SoundIds nextId store) :
    SoundIds nextId store' := by
  cases saved with
  | replaced old write => exact write.ids sound
  | gone _ write => exact write.ids sound

theorem OwnerStage.sound {covers : Prop} {s s' : State} {owner : Addr} {positionId due : Nat}
    {payment : Option Payment} (stage : OwnerStage covers s s' owner positionId due payment)
    (sound : s.Sound) : s'.Sound := by
  cases stage with
  | idle same => exact same ▸ sound
  | repaid _ _ _ _ _ write => exact write.sound sound

theorem OwnerStage.currentPositionId {covers : Prop} {s s' : State} {owner : Addr}
    {positionId due : Nat} {payment : Option Payment}
    (stage : OwnerStage covers s s' owner positionId due payment) :
    s'.basket.currentPositionId = s.basket.currentPositionId := by
  cases stage with
  | idle same => rw [same]
  | repaid _ _ _ _ _ write => exact write.currentPositionId

theorem Repayments.sound {l : Liquidation} {s s₀ s₁ : State} {p : Progress} {position : Position}
    {due : Nat} {msgs : LiquidationMsgs} {prop : LiquidationPropagation}
    (run : Repayments l s p position due msgs prop s₀ s₁) (sound : s.Sound) : p.state.Sound := by
  obtain ⟨response, liquidated⟩ := run.liquidated
  have sound₁ := run.owner.sound (liquidated.write.sound sound)
  cases run.rest with
  | unwritten _ _ same => exact same ▸ sound₁
  | written target _ _ write =>
    rw [State.Sound, write.currentPositionId, liquidated.propBasket, ← run.owner.currentPositionId]
    exact write.saved.ids sound₁

theorem ClosingStage.sound {s s' : State} {owner : Addr} {positionId : Nat}
    (stage : ClosingStage s s' owner positionId) (sound : s.Sound) : s'.Sound := by
  cases stage with
  | nothing same => exact same ▸ sound
  | writtenOff _ _ _ _ write => exact (write.moved sound).sound

theorem exec_spec {l : Liquidation} {s : State} {p : Progress} (sound : s.Sound)
    (done : l.exec s = some p) :
    ∃ mid position due msgs prop s₀ s₁, Repayments l s mid position due msgs prop s₀ s₁ ∧
      ClosingStage mid.state p.state prop.positionOwner l.positionId ∧
      p.sent = mid.sent ++ msgs.callerCoins ++ msgs.protocolCoins ∧
        p.liqRepaid = mid.liqRepaid := by
  unfold Liquidation.exec at done
  split at done
  case h_1 => cases done
  case h_2 mid closing hrepayments =>
    obtain ⟨position, due, msgs, prop, s₀, s₁, run, rfl⟩ := repayments_spec sound hrepayments
    obtain ⟨hstage, hsent, hrepaid⟩ := closing_spec (run.sound sound) done
    exact ⟨mid, position, due, msgs, prop, s₀, s₁, run, hstage, hsent, hrepaid⟩

section Call

variable {s s' : State} {call : Call}

theorem withdraw_sound {positionId : Nat} {assets : List Asset} {sendTo : Option String}
    {response : Response OutMsg} (sound : s.Sound)
    (done : executeWithdraw call.deps call.env call.info positionId assets sendTo s =
      .ok (s', response)) : s'.Sound := by
  obtain ⟨-, recipient, position, out, -, -, outcome⟩ := executeWithdraw_spec done
  cases outcome with
  | once target _ withdrawn =>
    cases htouch : touches position.held assets with
    | false => exact (withdrawn.moved_untouched htouch sound).sound
    | true => exact (withdrawn.moved_touched htouch sound).sound
  | overran _ overran =>
    obtain ⟨list, kept, i, dropped, -⟩ := overran.dropped
    rw [State.Sound, overran.books.currentPositionId,
      (accrue_charged overran.accrued).currentPositionId]
    exact dropped.ids sound

theorem repay_sound {positionId : Nat} {positionOwner sendExcessTo : Option String}
    {response : Response OutMsg} (sound : s.Sound)
    (done : executeRepay call.deps call.env call.info positionId positionOwner sendExcessTo s =
      .ok (s', response)) : s'.Sound := by
  simp only [executeRepay, bind_eq_ok, liftStd_eq_ok] at done
  obtain ⟨asset, -, hrepay⟩ := done
  obtain ⟨owner, position, charged, basket, paid, -, -, repaid, -⟩ := repay_spec hrepay
  obtain ⟨prices, haccrue⟩ := repaid.accrued
  obtain ⟨interest, hcharged⟩ := accrueForRepay_charged haccrue
  rw [State.Sound, repaid.currentPositionId, hcharged.currentPositionId]
  exact repaid.write.ids sound

theorem deposit_sound {positionId : Option Nat} {positionOwner : Option String}
    {response : Response OutMsg} (sound : s.Sound)
    (done : executeDeposit call.deps call.env call.info positionId positionOwner s =
      .ok (s', response)) : s'.Sound := by
  simp only [executeDeposit, bind_eq_ok, guardErr_eq_ok] at done
  obtain ⟨deposits, -, _, -, hdeposit⟩ := done
  obtain ⟨-, owner, -, into | new⟩ := deposit_spec hdeposit
  · obtain ⟨id, position, assets, out, -, into⟩ := into
    exact (into.moved sound).sound
  · obtain ⟨out, new⟩ := new
    exact (new.moved sound).sound

theorem call_sound (sound : s.Sound) (outside : FromOutside s (.call call))
    (step : callStep s call s') : s'.Sound := by
  obtain ⟨response, hstep⟩ := step
  unfold Call.steps execute at hstep
  unfold FromOutside at outside
  cases hmsg : call.msg <;> simp only [hmsg] at hstep outside
  case updateConfig => exact ((updateConfig_governed hstep).moved sound).sound
  case deposit => exact deposit_sound sound hstep
  case increaseDebt =>
    obtain ⟨position, out, amount, -, increased, -⟩ := increaseDebt_spec hstep
    exact (increased.moved sound).sound
  case withdraw => exact withdraw_sound sound hstep
  case repay => exact repay_sound sound hstep
  case redeemCollateral =>
    obtain ⟨credit, taken, -, redeemed, -⟩ := redeemForCollateral_spec sound hstep
    exact redeemed.moved.sound
  case editRedeemability =>
    simp only [bind_eq_ok, pure_eq_ok, Prod.mk.injEq] at hstep
    obtain ⟨_, hedit, rfl, -⟩ := hstep
    exact ((editRedemptionInfo_governed hedit).moved sound).sound
  case accrue =>
    obtain ⟨-, -, interest, hmoved⟩ := externalAccrueCall_moved sound hstep
    exact hmoved.sound
  case editBasket => exact ((editBasket_governed hstep).moved sound).sound
  case editCAsset => exact ((editCAsset_governed hstep).moved sound).sound

end Call

theorem transaction_sound {s s' : State} {t : Transaction} (sound : s.Sound)
    (outside : FromOutside s t) (step : transactionStep s t s') : s'.Sound := by
  cases t with
  | call call => exact call_sound sound outside step
  | liquidation l =>
    obtain ⟨p, hexec, rfl⟩ := step
    obtain ⟨mid, position, due, msgs, prop, s₀, s₁, run, hstage, -⟩ := exec_spec sound hexec
    exact hstage.sound (run.sound sound)

theorem runs_sound {deps : Deps} {env : Env} {info : MessageInfo} {msg : InstantiateMsg}
    {created s : State} {response : Response OutMsg} {allowed : State → Transaction → Prop}
    (instantiated : instantiate deps env info msg = .ok (created, response))
    (outside : ∀ s t, allowed s t → FromOutside s t)
    (run : RunWhere transactionStep allowed created s) : s.Sound := by
  have hstart : created.Sound := by
    rw [State.Sound, (instantiate_fresh instantiated).positions]
    exact KeyMap.all_empty
  exact RunWhere.keeps (fun s t _ sound hallowed hstep =>
    transaction_sound sound (outside s t hallowed) hstep) run hstart

end Membrane.Cdp
