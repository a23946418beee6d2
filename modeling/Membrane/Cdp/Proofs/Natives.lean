import Membrane.Cdp.Proofs.Runs
import Membrane.Cdp.Proofs.Calls

/-!
# Positions hold native assets

Deposits are the coins sent along, so what positions hold is native whatever the
basket's types are. Every other write keeps the kinds of what a position holds, or
drops some.
-/

namespace Membrane.Cdp

open Outcome

def Native (asset : Asset) : Prop := ∃ denom, asset.info = .nativeToken denom

theorem sentAssets_native (info : MessageInfo) : ∀ asset ∈ sentAssets info, Native asset := by
  intro asset hmem
  obtain ⟨coin, -, rfl⟩ := List.mem_map.mp hmem
  exact ⟨coin.denom, rfl⟩

theorem Holding.of_kinds {position position' : Position} (holding : Holding Native position)
    (same : collateralKinds position' = collateralKinds position) : Holding Native position' := by
  have hkinds : ∀ p : Position, collateralKinds p = p.held.map (·.info) := by
    intro p
    simp [collateralKinds, Position.held]
  rw [hkinds, hkinds] at same
  refine ⟨fun hnil => holding.nonempty ?_, fun asset hmem => ?_⟩
  · rw [hnil, List.map_nil] at same
    exact List.map_eq_nil_iff.mp same.symm
  · have hinfo : asset.info ∈ position.held.map (·.info) := same ▸ List.mem_map_of_mem hmem
    obtain ⟨old, hold, heq⟩ := List.mem_map.mp hinfo
    obtain ⟨denom, hdenom⟩ := holding.each old hold
    exact ⟨denom, heq.symm.trans hdenom⟩

theorem eachPosition_iff {P : Position → Prop} {store : Store} {nextId : Nat}
    (sound : SoundIds nextId store) :
    EachPosition P store ↔ ∀ owner id position, positionAt store owner id = some position →
      P position := by
  constructor
  · intro each owner id position found
    obtain ⟨list, stored, i, hget⟩ := stored_of_positionAt found
    exact each.at stored hget
  · intro each owner list stored position hmem
    obtain ⟨i, hget⟩ := List.getElem?_of_mem hmem
    exact each owner _ position (positionAt_of_getElem? sound stored hget)

/-- Every stored position holds native assets, and ids are apart. -/
structure HoldsNatives (s : State) : Prop where
  sound : s.Sound
  natives : EachPosition (Holding Native) s.positions

section Call

variable {s s' : State} {call : Call} {response : Response OutMsg}

theorem withdraw_natives {positionId : Nat} {assets : List Asset} {sendTo : Option String}
    (natives : EachPosition (Holding Native) s.positions)
    (done : executeWithdraw call.deps call.env call.info positionId assets sendTo s =
      .ok (s', response)) : EachPosition (Holding Native) s'.positions := by
  obtain ⟨-, recipient, position, out, -, ⟨i, htarget⟩, outcome⟩ := executeWithdraw_spec done
  obtain ⟨list, stored, found, -⟩ := getTargetPosition_spec htarget
  exact outcome.each (fun _ _ h _ _ => h) natives (natives.at stored found).each

theorem repayWrite_natives {store store' : Store} {owner : Addr} {position target : Position}
    (write : RepayWrite store store' owner position target) (same : target.held = position.held)
    (natives : EachPosition (Holding Native) store) : EachPosition (Holding Native) store' := by
  cases write with
  | removed _ write => exact write.each natives
  | replaced _ write =>
    obtain ⟨list, i, stored, found, -⟩ := write.written
    exact write.each ((natives.at stored found).congr same) natives

theorem repay_natives {positionId : Nat} {positionOwner sendExcessTo : Option String}
    (natives : EachPosition (Holding Native) s.positions)
    (done : executeRepay call.deps call.env call.info positionId positionOwner sendExcessTo s =
      .ok (s', response)) : EachPosition (Holding Native) s'.positions := by
  simp only [executeRepay, bind_eq_ok, liftStd_eq_ok] at done
  obtain ⟨asset, -, hrepay⟩ := done
  obtain ⟨owner, position, charged, basket, paid, -, -, repaid, -⟩ := repay_spec hrepay
  obtain ⟨prices, haccrue⟩ := repaid.accrued
  obtain ⟨interest, hcharged⟩ := accrueForRepay_charged haccrue
  exact repayWrite_natives repaid.write hcharged.held natives

theorem call_natives (holds : HoldsNatives s) (outside : FromOutside s (.call call))
    (step : callStep s call s') : HoldsNatives s' := by
  have sound' := call_sound holds.sound outside step
  refine ⟨sound', ?_⟩
  have natives := holds.natives
  obtain ⟨response, hstep⟩ := step
  unfold Call.steps execute at hstep
  unfold FromOutside at outside
  cases hmsg : call.msg <;> simp only [hmsg] at hstep outside
  case updateConfig => exact (updateConfig_governed hstep).positions ▸ natives
  case deposit =>
    exact deposit_each (fun _ _ h _ => h) (sentAssets_native call.info) natives hstep
  case increaseDebt =>
    obtain ⟨position, out, amount, ⟨i, htarget⟩, increased, -⟩ := increaseDebt_spec hstep
    obtain ⟨list, stored, found, -⟩ := getTargetPosition_spec htarget
    refine increased.write.each ?_ natives
    exact (natives.at stored found).congr (accrue_charged increased.accrued).held
  case withdraw => exact withdraw_natives natives hstep
  case repay => exact repay_natives natives hstep
  case redeemCollateral =>
    obtain ⟨credit, taken, -, redeemed, -⟩ := redeemForCollateral_spec holds.sound hstep
    refine (eachPosition_iff sound').mpr fun owner id position found => ?_
    have hkinds := redeemed.kinds owner id
    rw [found, Option.map_some] at hkinds
    obtain ⟨old, hold, heq⟩ := Option.map_eq_some_iff.mp hkinds.symm
    exact ((eachPosition_iff holds.sound).mp natives owner id old hold).of_kinds heq.symm
  case editRedeemability =>
    simp only [bind_eq_ok, pure_eq_ok, Prod.mk.injEq] at hstep
    obtain ⟨_, hedit, rfl, -⟩ := hstep
    exact (editRedemptionInfo_governed hedit).positions ▸ natives
  case accrue => exact (externalAccrueCall_moved holds.sound hstep).2.1 Native natives
  case editBasket => exact (editBasket_governed hstep).positions ▸ natives
  case editCAsset => exact (editCAsset_governed hstep).positions ▸ natives

end Call

/-! ## Liquidations -/

theorem OwnerStage.natives {covers : Prop} {s s' : State} {owner : Addr} {positionId due : Nat}
    {payment : Option Payment} (stage : OwnerStage covers s s' owner positionId due payment)
    (natives : EachPosition (Holding Native) s.positions) :
    EachPosition (Holding Native) s'.positions := by
  cases stage with
  | idle same => exact same ▸ natives
  | repaid _ _ _ _ _ write => exact repayWrite_natives write.write rfl natives

theorem Repayments.natives {l : Liquidation} {s s₀ s₁ : State} {p : Progress} {position : Position}
    {due : Nat} {msgs : LiquidationMsgs} {prop : LiquidationPropagation}
    (run : Repayments l s p position due msgs prop s₀ s₁) (holds : HoldsNatives s) :
    HoldsNatives p.state := by
  refine ⟨run.sound holds.sound, ?_⟩
  obtain ⟨response, liquidated⟩ := run.liquidated
  obtain ⟨i, htarget⟩ := liquidated.target
  obtain ⟨list, stored, found, -⟩ := getTargetPosition_spec htarget
  have hposition : Holding Native position := holds.natives.at stored found
  have htargeted : Holding Native prop.targetPosition := hposition.of_kinds liquidated.kinds
  have hfirst : EachPosition (Holding Native) s₀.positions := by
    cases liquidated.write with
    | deferred _ same =>
      rw [same]
      exact holds.natives
    | settled _ write => exact write.each htargeted holds.natives
  have hsecond := run.owner.natives hfirst
  cases run.rest with
  | unwritten _ _ same => exact same ▸ hsecond
  | written target _ _ write =>
    cases write.saved with
    | replaced old replaced => exact replaced.each (htargeted.of_kinds write.kinds) hsecond
    | gone _ resaved =>
      obtain ⟨list, hlist, hstore⟩ := resaved
      rw [hstore]
      exact KeyMap.all_insert hsecond (hsecond _ list hlist)

theorem ClosingStage.natives {s s' : State} {owner : Addr} {positionId : Nat}
    (stage : ClosingStage s s' owner positionId) (holds : HoldsNatives s) : HoldsNatives s' := by
  refine ⟨stage.sound holds.sound, ?_⟩
  cases stage with
  | nothing same => exact same ▸ holds.natives
  | writtenOff i position covered found write =>
    obtain ⟨list, stored, hget, -⟩ := getTargetPosition_spec found
    exact write.write.each ((holds.natives.at stored hget).congr rfl) holds.natives

theorem transaction_natives {s s' : State} {t : Transaction} (holds : HoldsNatives s)
    (outside : FromOutside s t) (step : transactionStep s t s') : HoldsNatives s' := by
  cases t with
  | call one => exact call_natives holds outside step
  | liquidation l =>
    obtain ⟨p, hexec, rfl⟩ := step
    obtain ⟨mid, position, due, msgs, prop, s₀, s₁, run, hstage, -⟩ := exec_spec holds.sound hexec
    exact hstage.natives (run.natives holds)

theorem runs_natives {deps : Deps} {env : Env} {info : MessageInfo} {msg : InstantiateMsg}
    {created s : State} {response : Response OutMsg}
    (instantiated : instantiate deps env info msg = .ok (created, response))
    (run : RunWhere transactionStep FromOutside created s) : HoldsNatives s := by
  have hfresh := instantiate_fresh instantiated
  have hstart : HoldsNatives created := by
    refine ⟨?_, ?_⟩
    · rw [State.Sound, hfresh.positions]
      exact KeyMap.all_empty
    · rw [hfresh.positions]
      exact KeyMap.all_empty
  have hkeeps : ∀ s t s', HoldsNatives s → FromOutside s t → transactionStep s t s' →
      HoldsNatives s' := fun _ _ _ holds houtside hstep => transaction_natives holds houtside hstep
  exact RunWhere.keeps hkeeps run hstart

end Membrane.Cdp
