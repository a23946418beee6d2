import Membrane.Cdp.Proofs.Runs
import Membrane.Cdp.Proofs.Spending

/-!
# What moves while the basket is frozen

Each handler checks the freeze for itself. Deposits, withdrawals, debt increases,
repayments and liquidations do, and the calls that do not check it send nothing and
leave the collateral of every position alone; all but a redemption.
-/

namespace Membrane.Cdp

open Outcome

def isOutflow : CosmosMsg OutMsg → Bool
  | .bankSend .. => true
  | .execute _ (.mintTokens ..) _ => true
  | .execute _ _ funds => !funds.isEmpty

def KeepsCollateral (store store' : Store) : Prop :=
  ∀ owner id position, positionAt store owner id = some position →
    ∃ position', positionAt store' owner id = some position' ∧
      ∀ info, amountOf info position.held ≤ amountOf info position'.held

/-- Nothing leaves the contract, and no position loses collateral. -/
structure StopsOutflow (s s' : State) (response : Response OutMsg) : Prop where
  messages : ∀ sub ∈ response.messages, isOutflow sub.msg = false
  collateral : KeepsCollateral s.positions s'.positions

/-- Whether a message redeems. -/
def ExecuteMsg.isRedemption : ExecuteMsg → Bool
  | .redeemCollateral _ => true
  | _ => false

theorem KeepsCollateral.refl (store : Store) : KeepsCollateral store store := by
  intro owner id position found
  exact ⟨position, found, fun _ => Nat.le_refl _⟩

theorem KeepsCollateral.of_eq {store store' : Store} (same : store' = store) :
    KeepsCollateral store store' := by
  rw [same]
  exact .refl store

theorem KeepsCollateral.trans {store₁ store₂ store₃ : Store} (h : KeepsCollateral store₁ store₂)
    (h' : KeepsCollateral store₂ store₃) : KeepsCollateral store₁ store₃ := by
  intro owner id position found
  obtain ⟨position₂, found₂, hle⟩ := h owner id position found
  obtain ⟨position₃, found₃, hle'⟩ := h' owner id position₂ found₂
  exact ⟨position₃, found₃, fun info => Nat.le_trans (hle info) (hle' info)⟩

theorem KeepsCollateral.of_replaced {store store' : Store} {owner : Addr} {old new : Position}
    {nextId : Nat} (write : Replaced store store' owner old new) (held : new.held = old.held)
    (sound : SoundIds nextId store) : KeepsCollateral store store' := by
  intro owner' id position found
  by_cases target : owner' = owner ∧ id = old.positionId
  · obtain ⟨rfl, rfl⟩ := target
    obtain rfl : old = position := Option.some.inj ((write.old_at sound).symm.trans found)
    refine ⟨new, write.new_at sound, fun info => ?_⟩
    rw [held]
  · have other : owner' ≠ owner ∨ id ≠ old.positionId := by
      by_cases same : owner' = owner
      · exact .inr fun hid => target ⟨same, hid⟩
      · exact .inl same
    refine ⟨position, ?_, fun _ => Nat.le_refl _⟩
    rw [write.other_at other]
    exact found

section Frozen

variable {deps : Deps} {env : Env} {info : MessageInfo} {s s' : State} {response : Response OutMsg}

/-! ## The handlers that check -/

theorem frozen_fails {α : Type} {rest : PUnit → Result α} {a : α}
    (frozen : s.basket.frozen = true) :
    (Outcome.guardErr (s.basket.frozen = true) ContractError.frozen >>= rest) ≠ .ok a := by
  intro done
  simp only [bind_eq_ok, guardErr_eq_ok] at done
  obtain ⟨_, hnot, -⟩ := done
  exact hnot frozen

theorem executeDeposit_frozen {positionId : Option Nat} {positionOwner : Option String}
    (frozen : s.basket.frozen = true) :
    executeDeposit deps env info positionId positionOwner s ≠ .ok (s', response) := by
  intro done
  simp only [executeDeposit, deposit, bind_eq_ok, guardErr_eq_ok] at done
  obtain ⟨_, -, _, -, _, -, _, hnot, -⟩ := done
  exact hnot frozen

theorem executeWithdraw_frozen {positionId : Nat} {assets : List Asset} {sendTo : Option String}
    (frozen : s.basket.frozen = true) :
    executeWithdraw deps env info positionId assets sendTo s ≠ .ok (s', response) := by
  intro done
  simp only [executeWithdraw, bind_eq_ok, guardErr_eq_ok] at done
  obtain ⟨_, -, _, -, _, -, hwithdraw⟩ := done
  exact frozen_fails frozen hwithdraw

theorem executeRepay_frozen {positionId : Nat} {positionOwner sendExcessTo : Option String}
    (frozen : s.basket.frozen = true) :
    executeRepay deps env info positionId positionOwner sendExcessTo s ≠ .ok (s', response) := by
  intro done
  simp only [executeRepay, bind_eq_ok] at done
  obtain ⟨_, -, hrepay⟩ := done
  exact frozen_fails frozen hrepay

theorem liquidate_frozen {positionId : Nat} {positionOwner : String}
    (frozen : s.basket.frozen = true) :
    liquidate deps env info positionId positionOwner s ≠ .ok (s', response) := by
  intro done
  simp only [liquidate, assertNoDowntime, bind_eq_ok, guardErr_eq_ok] at done
  obtain ⟨_, ⟨_, -, _, hnot, -⟩, -⟩ := done
  exact hnot frozen

theorem liquidation_frozen (l : Liquidation) (frozen : s.basket.frozen = true) :
    l.exec s = none := by
  have hrepayments : l.repayments s = none := by
    unfold Liquidation.repayments
    split
    case h_1 => rfl
    case h_2 s' response hdone => exact absurd hdone (liquidate_frozen frozen)
  simp only [Liquidation.exec, hrepayments]

/-! ## The handlers that do not check -/

theorem updateConfig_stopsOutflow {update : UpdateConfig}
    (done : updateConfig deps info update s = .ok (s', response)) :
    StopsOutflow s s' response := by
  simp only [updateConfig, bind_eq_ok, pure_eq_ok, liftStd_eq_ok, Prod.mk.injEq] at done
  obtain ⟨_, -, _, -, _, -, rfl, rfl⟩ := done
  refine ⟨?_, .of_eq rfl⟩
  intro sub hmem
  cases hmem

theorem editRedemptionInfo_stopsOutflow {positionIds : List Nat} {edit : RedemptionEdit}
    {calledByContract : Bool}
    (done : editRedemptionInfo s info.sender positionIds edit calledByContract = .ok s') :
    StopsOutflow s s' {} := by
  obtain ⟨optIn, rfl⟩ := editRedemptionInfo_onlyOptIn done
  refine ⟨?_, .of_eq rfl⟩
  intro sub hmem
  cases hmem

theorem externalAccrueCall_stopsOutflow {positionOwner : Option String} {positionIds : List Nat}
    (sound : s.Sound)
    (done : externalAccrueCall deps env info positionOwner positionIds s = .ok (s', response)) :
    StopsOutflow s s' response := by
  have hresponse : response = {} := (externalAccrueCall_moved sound done).1
  simp only [externalAccrueCall, bind_eq_ok, pure_eq_ok, liftStd_eq_ok, Prod.mk.injEq] at done
  obtain ⟨owner, -, ⟨last, basket⟩, hfold, rfl, -⟩ := done
  have hstart : SoundIds s.basket.currentPositionId s.positions ∧
      KeepsCollateral s.positions s.positions := ⟨sound, .refl _⟩
  have hlast := foldlM_keeps (fun acc : State × Basket =>
      SoundIds s.basket.currentPositionId acc.1.positions ∧
        KeepsCollateral s.positions acc.1.positions)
    (fun acc id acc' hinv hstep => by
      obtain ⟨position, out, haccrue, hwrite, -⟩ := accruePosition_spec hinv.1 hstep
      have hheld := (accrue_charged haccrue).held
      exact ⟨hwrite.ids hinv.1, hinv.2.trans (.of_replaced hwrite hheld hinv.1)⟩)
    _ _ _ hstart hfold
  refine ⟨?_, hlast.2⟩
  intro sub hmem
  rw [hresponse] at hmem
  cases hmem

theorem checkAndFulfillBadDebt_stopsOutflow {positionId : Nat} {owner : Addr} (sound : s.Sound)
    (done : checkAndFulfillBadDebt positionId owner s = .ok (s', response)) :
    StopsOutflow s s' response := by
  obtain ⟨position, covered, -, written, -⟩ := checkAndFulfillBadDebt_spec sound done
  refine ⟨?_, .of_replaced written.write rfl sound⟩
  simp only [checkAndFulfillBadDebt, bind_eq_ok, liftStd_eq_ok] at done
  obtain ⟨_, -, _, -, _, -, _, -, s₁, -, hrest⟩ := done
  split at hrest
  case h_1 =>
    simp only [bind_eq_ok, pure_eq_ok, Prod.mk.injEq] at hrest
    obtain ⟨_, -, -, rfl⟩ := hrest
    intro sub hmem
    obtain ⟨msg, hmsg, rfl⟩ := List.mem_map.mp hmem
    rw [List.mem_singleton.mp hmsg]
    rfl
  case h_2 => simp at hrest

theorem redeemForCollateral_outflow {maxCollateralPremium : Nat}
    (done : redeemForCollateral deps env info maxCollateralPremium s = .ok (s', response)) :
    ¬ StopsOutflow s s' response := by
  intro stops
  simp only [redeemForCollateral, bind_eq_ok, pure_eq_ok, liftStd_eq_ok, Prod.mk.injEq] at done
  obtain ⟨_, -, _, -, loop, -, _, -, coins, -, -, rfl⟩ := done
  have hsend : isOutflow (.bankSend info.sender coins) = false := by
    refine stops.messages (SubMsg.new (.bankSend info.sender coins)) ?_
    simp [Response.addMessages]
  cases hsend

end Frozen

/-! ## While the basket is frozen -/

/-- In a frozen basket, a successful call of anyone but the owner stops outflows
    exactly when it is not a redemption, and nothing is liquidated. The stability pool's
    own repayment is part of a liquidation. -/
theorem frozen_stops_outflows {deps : Deps} {env : Env} {info : MessageInfo} {msg : InstantiateMsg}
    {created s : State} {response : Response OutMsg}
    (instantiated : instantiate deps env info msg = .ok (created, response))
    (run : RunWhere transactionStep FromOutside created s) (frozen : s.basket.frozen = true) :
    (∀ l : Liquidation, l.exec s = none) ∧
      ∀ (call : Call) (s' : State) (response : Response OutMsg), call.info.sender ≠ s.config.owner →
        call.msg ≠ .liqRepay → call.steps s s' response →
        (StopsOutflow s s' response ↔ call.msg.isRedemption = false) := by
  have sound : s.Sound := runs_sound instantiated (fun _ _ outside => outside) run
  refine ⟨fun l => liquidation_frozen l frozen, ?_⟩
  intro call s' response notOwner notPool step
  obtain ⟨deps, env, info, msg⟩ := call
  unfold Call.steps execute at step
  simp only at notOwner notPool step ⊢
  cases msg
  case updateConfig => exact iff_of_true (updateConfig_stopsOutflow step) rfl
  case deposit => exact absurd step (executeDeposit_frozen frozen)
  case increaseDebt => exact absurd step (frozen_fails frozen)
  case withdraw => exact absurd step (executeWithdraw_frozen frozen)
  case repay => exact absurd step (executeRepay_frozen frozen)
  case liqRepay => exact absurd rfl notPool
  case liquidate => exact absurd step (liquidate_frozen frozen)
  case redeemCollateral =>
    refine iff_of_false (redeemForCollateral_outflow step) ?_
    intro hredeems
    cases hredeems
  case editRedeemability =>
    simp only [bind_eq_ok, pure_eq_ok, Prod.mk.injEq] at step
    obtain ⟨_, hedit, rfl, rfl⟩ := step
    exact iff_of_true (editRedemptionInfo_stopsOutflow hedit) rfl
  case accrue => exact iff_of_true (externalAccrueCall_stopsOutflow sound step) rfl
  case editBasket =>
    simp only [editBasket, bind_eq_ok, guardErr_eq_ok] at step
    obtain ⟨_, howner, -⟩ := step
    exact absurd notOwner howner
  case editCAsset =>
    simp only [editCAsset, bind_eq_ok, guardErr_eq_ok] at step
    obtain ⟨_, howner, -⟩ := step
    exact absurd notOwner howner
  case badDebtCheck =>
    dsimp only at step
    split at step
    case isTrue => exact iff_of_true (checkAndFulfillBadDebt_stopsOutflow sound step) rfl
    case isFalse => simp at step

/-! ## On a sample chain -/

def frozenOptIns : List Call :=
  twoOptIns ++ [sampleCall 0 "gov" (.editBasket { frozen := some true })]

def sampleAccrual : Call := sampleCall 0 "keeper" (.accrue (some "user") [1])

theorem frozenOptIns_outside : ∀ call ∈ frozenOptIns, ∀ s, FromOutside s (.call call) := by
  intro call hmem s
  simp only [frozenOptIns, twoOptIns, borrowing, List.cons_append, List.nil_append, List.mem_cons,
    List.not_mem_nil, or_false] at hmem
  rcases hmem with rfl | rfl | rfl | rfl | rfl | rfl | rfl | rfl <;> trivial

theorem frozen_stops_outflows_accrual :
    ∃ s s' response, sampleResponse frozenOptIns sampleAccrual = some (s, s', response) ∧
      s.basket.frozen = true ∧ (∀ l : Liquidation, l.exec s = none) ∧
      StopsOutflow s s' response := by
  have hfrozen : (sampleResponse frozenOptIns sampleAccrual).map (fun run =>
      (run.1.basket.frozen, run.1.config.owner)) = some (true, "gov") := by decide +kernel
  obtain ⟨⟨s, s', response⟩, hrun, hfrozen⟩ := Option.map_eq_some_iff.mp hfrozen
  obtain ⟨hfrozen, howner⟩ := Prod.mk.inj hfrozen
  obtain ⟨hs, hcall⟩ := sampleResponse_spec hrun
  obtain ⟨created, hnew, hcalls⟩ := Option.bind_eq_some_iff.mp hs
  obtain ⟨start, hcreated⟩ := newContract_spec hnew
  have hreached : RunWhere transactionStep FromOutside created s :=
    transactions_of_calls (execAll_run (fun _ _ _ => Call.exec_step) frozenOptIns_outside hcalls)
  have hstops := frozen_stops_outflows hcreated hreached hfrozen
  have hsender : sampleAccrual.info.sender ≠ s.config.owner := by
    rw [show s.config.owner = "gov" from howner]
    decide
  refine ⟨s, s', response, hrun, hfrozen, hstops.1, ?_⟩
  exact (hstops.2 sampleAccrual s' response hsender (by intro h; cases h) hcall).mpr rfl

/-- Collateral leaves a frozen basket: a redemption with 700000000 of the debt token goes
    through, and takes from both positions. -/
theorem frozen_does_not_stop_redemptions :
    ¬ ∀ calls call s s' response, sampleResponse calls call = some (s, s', response) →
      s.basket.frozen = true → call.info.sender ≠ s.config.owner → call.msg ≠ .liqRepay →
      StopsOutflow s s' response := by
  intro claim
  have hfrozen : (sampleResponse frozenOptIns sampleRedemption).map (fun run =>
      (run.1.basket.frozen, run.1.config.owner)) = some (true, "gov") := by decide +kernel
  obtain ⟨⟨s, s', response⟩, hrun, hfrozen⟩ := Option.map_eq_some_iff.mp hfrozen
  obtain ⟨hfrozen, howner⟩ := Prod.mk.inj hfrozen
  have hsender : sampleRedemption.info.sender ≠ s.config.owner := by
    rw [show s.config.owner = "gov" from howner]
    decide
  have hstops := claim frozenOptIns sampleRedemption s s' response hrun hfrozen hsender
    (by intro h; cases h)
  exact redeemForCollateral_outflow (sampleResponse_spec hrun).2 hstops

end Membrane.Cdp
