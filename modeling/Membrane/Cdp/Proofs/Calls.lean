import Membrane.Cdp.Contract
import Membrane.Cdp.Proofs.Books

/-!
# What the entry points do to the books and to what positions hold

The arms of `execute` that deposit and withdraw: when the interest they find due is
charged to a stored position, and which properties of holdings they keep.
-/

namespace Membrane.Cdp

open Outcome

def interestDue (deps : Deps) (env : Env) (s : State) (owner : Addr) (position : Position)
    (isDepositFunction : Bool) : Nat :=
  match accrue deps env s.config s.prices position s.basket owner isDepositFunction with
  | .ok out => out.interest position
  | .error _ => 0

theorem interestDue_of_accrue {deps : Deps} {env : Env} {s : State} {owner : Addr}
    {position : Position} {isDepositFunction : Bool} {out : Accrued}
    (done : accrue deps env s.config s.prices position s.basket owner isDepositFunction =
      .ok out) :
    interestDue deps env s owner position isDepositFunction = out.interest position := by
  rw [interestDue, done]

def DepositChargesNothing (s : State) (call : Call) (positionId : Option Nat)
    (positionOwner : Option String) : Prop :=
  ∀ owner id i position deposits assets previous,
    validatePositionOwner call.deps call.info positionOwner = .ok owner →
    positionId = some id →
    getTargetPosition s owner id = .ok (i, position) →
    assertBasketAssets s.basket (sentAssets call.info) = .ok deposits →
    deposits.foldlM depositAsset (position.collateralAssets, []) = .ok (assets, previous) →
    interestDue call.deps call.env s owner { position with collateralAssets := assets } true = 0

def WithdrawalStoresInterest (s : State) (call : Call) (positionId : Nat) (assets : List Asset)
    (sendTo : Option String) : Prop :=
  ∀ recipient i position,
    validatePositionOwner call.deps call.info sendTo = .ok recipient →
    getTargetPosition s (withdrawOwner call.env call.info recipient sendTo) positionId =
      .ok (i, position) →
    touches position.held assets = true ∨
      interestDue call.deps call.env s (withdrawOwner call.env call.info recipient sendTo) position
        false = 0

def Positive (asset : Asset) : Prop := 0 < asset.amount

/-! ## Assets of the message -/

theorem assertBasketAssets_assets {basket : Basket} {assets : List Asset} {cAssets : List CAsset}
    (done : assertBasketAssets basket assets = .ok cAssets) : cAssets.map (·.asset) = assets := by
  have hall := mapM_forall₂ done
  clear done
  induction hall with
  | nil => rfl
  | cons hhead _ ih =>
    simp only [bind_eq_ok, pure_eq_ok] at hhead
    obtain ⟨_, _, rfl⟩ := hhead
    rw [List.map_cons, ih]

theorem sentAssets_positive (info : MessageInfo) : ∀ asset ∈ sentAssets info, Positive asset := by
  intro asset hmem
  obtain ⟨coin, hcoin, rfl⟩ := List.mem_map.mp hmem
  exact info.positive coin hcoin

theorem Holding.not_empty {position : Position} (holding : Holding Positive position) :
    checkForEmptyPosition position.collateralAssets = false := by
  rw [checkForEmptyPosition_eq, nothingLeft, List.all_eq_false]
  obtain ⟨asset, hmem⟩ := List.exists_mem_of_ne_nil _ holding.nonempty
  refine ⟨asset, hmem, ?_⟩
  have := holding.each asset hmem
  simp only [Positive] at this
  simp only [beq_iff_eq]
  omega

theorem assertSentNativeTokenBalance_info {assetInfo : AssetInfo} {info : MessageInfo}
    {asset : Asset}
    (done : assertSentNativeTokenBalance assetInfo info = .ok asset) : asset.info = assetInfo := by
  unfold assertSentNativeTokenBalance at done
  split at done
  case h_1 => simp at done
  case h_2 =>
    split at done
    case h_1 => simp at done
    case h_2 =>
      simp only [bind_eq_ok, pure_eq_ok] at done
      obtain ⟨_, _, rfl⟩ := done
      rfl

/-! ## Deposit and withdrawal -/

section

variable {s s' : State} {call : Call} {response : Response OutMsg}

theorem deposit_moved {positionId : Option Nat} {positionOwner : Option String} (sound : s.Sound)
    (free : DepositChargesNothing s call positionId positionOwner)
    (done : executeDeposit call.deps call.env call.info positionId positionOwner s =
      .ok (s', response)) :
    response = {} ∧ ∃ interest, Moved s s' { charged := interest, booked := interest } := by
  simp only [executeDeposit, bind_eq_ok, guardErr_eq_ok] at done
  obtain ⟨deposits, hassets, _, -, hdeposit⟩ := done
  obtain ⟨hnone, owner, howner, into | new⟩ := deposit_spec hdeposit
  · obtain ⟨id, position, assets, out, hid, into⟩ := into
    obtain ⟨i, htarget⟩ := into.target
    obtain ⟨previous, hgrown⟩ := into.grown
    have hfree :=
      free owner id i position deposits assets previous howner hid htarget hassets hgrown
    rw [interestDue_of_accrue into.accrued] at hfree
    have hmoved := into.moved sound
    rw [show out.interest position = 0 from hfree] at hmoved
    exact ⟨hnone, 0, hmoved⟩
  · obtain ⟨out, new⟩ := new
    exact ⟨hnone, out.position.creditAmount, new.moved sound⟩

theorem deposit_each {P : Asset → Prop} {positionId : Option Nat} {positionOwner : Option String}
    (grows : ∀ asset amount, P asset → asset.amount ≤ amount → P { asset with amount := amount })
    (sent : ∀ asset ∈ sentAssets call.info, P asset)
    (holding : EachPosition (Holding P) s.positions)
    (done : executeDeposit call.deps call.env call.info positionId positionOwner s =
      .ok (s', response)) : EachPosition (Holding P) s'.positions := by
  simp only [executeDeposit, bind_eq_ok, guardErr_eq_ok] at done
  obtain ⟨deposits, hassets, _, hne, hdeposit⟩ := done
  have hnew : ∀ deposit ∈ deposits, P deposit.asset := by
    intro deposit hmem
    refine sent deposit.asset ?_
    rw [← assertBasketAssets_assets hassets]
    exact List.mem_map_of_mem hmem
  obtain ⟨-, owner, -, into | new⟩ := deposit_spec hdeposit
  · obtain ⟨id, position, assets, out, -, into⟩ := into
    obtain ⟨i, htarget⟩ := into.target
    obtain ⟨previous, hgrown⟩ := into.grown
    obtain ⟨list, stored, found, -⟩ := getTargetPosition_spec htarget
    refine into.write.each ?_ holding
    have hold := holding.at stored found
    have hstart : ∀ cAsset ∈ position.collateralAssets, P cAsset.asset :=
      fun cAsset hmem => hold.each _ (List.mem_map_of_mem hmem)
    obtain ⟨hnonempty, heach⟩ := depositAssets_each grows hnew
      (fun h => hold.nonempty (List.map_eq_nil_iff.mpr h)) hstart hgrown
    refine ⟨fun h => hnonempty (List.map_eq_nil_iff.mp h), fun asset hmem => ?_⟩
    obtain ⟨cAsset, hc, rfl⟩ := List.mem_map.mp hmem
    exact heach cAsset hc
  · obtain ⟨out, new⟩ := new
    refine new.write.each ?_ holding
    have hstart : Holding P ⟨s.basket.currentPositionId, deposits, 0⟩ := by
      refine ⟨fun h => ?_, fun asset hmem => ?_⟩
      · obtain rfl : deposits = [] := List.map_eq_nil_iff.mp h
        exact hne rfl
      · obtain ⟨cAsset, hc, rfl⟩ := List.mem_map.mp hmem
        exact hnew cAsset hc
    exact hstart.congr (accrue_charged new.accrued).held

theorem executeWithdraw_spec {positionId : Nat} {assets : List Asset} {sendTo : Option String}
    (done : executeWithdraw call.deps call.env call.info positionId assets sendTo s =
      .ok (s', response)) :
    (assets.map (·.info)).Nodup ∧ ∃ recipient position out,
      validatePositionOwner call.deps call.info sendTo = .ok recipient ∧
      (∃ i, getTargetPosition s (withdrawOwner call.env call.info recipient sendTo) positionId =
        .ok (i, position)) ∧
      WithdrawOutcome call.deps call.env s s'
        (withdrawOwner call.env call.info recipient sendTo) recipient position out assets
        response := by
  simp only [executeWithdraw, bind_eq_ok, guardErr_eq_ok, duplicateAssetCheck, not_not] at done
  obtain ⟨_, hdistinct, cAssets, hassets, _, _, hwithdraw⟩ := done
  have hspec := withdraw_spec hwithdraw
  rw [assertBasketAssets_assets hassets] at hspec
  exact ⟨hdistinct, hspec⟩

theorem Withdrawn.moved {positionId : Nat} {assets : List Asset} {sendTo : Option String}
    {recipient : Addr} {position target : Position} {out : Accrued} {i : Nat} (sound : s.Sound)
    (stores : WithdrawalStoresInterest s call positionId assets sendTo)
    (hrecipient : validatePositionOwner call.deps call.info sendTo = .ok recipient)
    (htarget : getTargetPosition s (withdrawOwner call.env call.info recipient sendTo) positionId =
      .ok (i, position))
    (withdrawn : Withdrawn call.deps call.env s s'
      (withdrawOwner call.env call.info recipient sendTo) position out target assets) :
    ∃ interest, Moved s s' { charged := interest, booked := interest } := by
  cases htouch : touches position.held assets with
  | false =>
    have hnone := (stores recipient i position hrecipient htarget).resolve_left (by simp [htouch])
    rw [interestDue_of_accrue withdrawn.accrued] at hnone
    have hmoved := withdrawn.moved_untouched htouch sound
    rw [hnone] at hmoved
    exact ⟨0, hmoved⟩
  | true => exact ⟨_, withdrawn.moved_touched htouch sound⟩

theorem WithdrawOutcome.each {P : Asset → Prop} {owner recipient : Addr} {position : Position}
    {out : Accrued} {assets : List Asset}
    (shrinks : ∀ asset amount, P asset → 0 < amount → amount ≤ asset.amount →
      P { asset with amount := amount })
    (holding : EachPosition (Holding P) s.positions) (each : ∀ asset ∈ position.held, P asset)
    (outcome : WithdrawOutcome call.deps call.env s s' owner recipient position out assets
      response) :
    EachPosition (Holding P) s'.positions := by
  cases outcome with
  | overran _ overran =>
    obtain ⟨list, kept, i, dropped, -⟩ := overran.dropped
    exact dropped.each holding
  | once target _ withdrawn =>
    cases htouch : touches position.held assets with
    | false =>
      rw [withdrawn.untouched htouch]
      exact holding
    | true =>
      cases withdrawn.written htouch with
      | replaced left write =>
        refine write.each ⟨fun h => ?_, ?_⟩ holding
        · rw [h] at left
          cases left
        · rw [withdrawn.held]
          exact takeAll_each shrinks each
      | removed _ _ write => exact write.each holding

end

end Membrane.Cdp
