import Membrane.Cdp.Proofs.OptIn
import Membrane.Cdp.Proofs.Store
import Membrane.Cdp.Proofs.Supply

/-!
# What a repayment and a debt increase write

A repayment charges interest, except to the stability pool, takes the repaid debt
off the position and off the basket, and burns what it does not pay out as
revenue. A position without collateral is removed whatever debt it has left. A
debt increase adds the borrowed amount to both and mints it.
-/

namespace Membrane.Cdp

open Outcome

/-! ## Repayment -/

theorem accrueForRepay_charged {deps : Deps} {env : Env} {info : MessageInfo} {owner : Addr}
    {position charged : Position} {s : State} {prices : PriceStore} {basket : Basket}
    (done : accrueForRepay deps env info owner position s = .ok (prices, charged, basket)) :
    ∃ interest, Charged position s.basket charged basket interest := by
  unfold accrueForRepay at done
  split at done
  case isTrue =>
    simp only [bind_eq_ok, pure_eq_ok, liftStd_eq_ok, Prod.mk.injEq] at done
    obtain ⟨out, haccrue, -, rfl, rfl⟩ := done
    exact ⟨_, accrue_charged haccrue⟩
  case isFalse =>
    obtain ⟨-, rfl, rfl⟩ := by simpa only [pure_eq_ok, Prod.mk.injEq] using done
    exact ⟨0, .zero _ _⟩

/-- The write of a repayment: what is stored decides whether the position goes. -/
inductive RepayWrite (store store' : Store) (owner : Addr) (position target : Position) : Prop
  | replaced (collateral : checkForEmptyPosition position.collateralAssets = false)
      (write : Replaced store store' owner position target)
  | removed (empty : checkForEmptyPosition position.collateralAssets = true)
      (write : Removed store store' owner position)

theorem storeRepaid_write {owner : Addr} {i : Nat} {position target : Position}
    {store store' : Store} {list : List Position} {removed : Bool}
    (stored : store.lookup owner = some list) (found : list[i]? = some position)
    (same : target.positionId = position.positionId)
    (done : storeRepaid owner i target store = .ok (store', removed)) :
    RepayWrite store store' owner position target := by
  simp only [storeRepaid, stored, Option.getD_some, bind_eq_ok, index_eq_ok] at done
  obtain ⟨position', hget, hrest⟩ := done
  obtain rfl : position = position' := Option.some.inj (found.symm.trans hget)
  split at hrest
  case isTrue hempty =>
    simp only [bind_eq_ok, removeIndex_eq_ok, pure_eq_ok, Prod.mk.injEq] at hrest
    obtain ⟨_, ⟨-, rfl⟩, rfl, -⟩ := hrest
    exact .removed hempty ⟨list, i, stored, found, .inl rfl⟩
  case isFalse hempty =>
    simp only [bind_eq_ok, setIndex_eq_ok, pure_eq_ok, Prod.mk.injEq] at hrest
    obtain ⟨_, ⟨-, rfl⟩, rfl, -⟩ := hrest
    exact .replaced (by simpa using hempty) ⟨same, list, i, stored, found, rfl⟩

/-- What a repayment of `repaid` did to the stored `position`, of which accrual made
    `charged`. Of `repaid`, `paid` went to the stakers. -/
structure Repaid (deps : Deps) (env : Env) (info : MessageInfo) (s s' : State) (owner : Addr)
    (position charged : Position) (basket : Basket) (repaid paid : Nat) : Prop where
  accrued : ∃ prices, accrueForRepay deps env info owner position s = .ok (prices, charged, basket)
  write : RepayWrite s.positions s'.positions owner position
    { charged with creditAmount := charged.creditAmount - repaid }
  credit : s'.basket.creditAsset =
    { basket.creditAsset with amount := basket.creditAsset.amount - repaid }
  pendingRevenue : s'.basket.pendingRevenue + paid = basket.pendingRevenue
  currentPositionId : s'.basket.currentPositionId = basket.currentPositionId
  debt : repaid ≤ charged.creditAmount
  liquidation : s'.liquidation = s.liquidation
  config : s'.config = s.config

theorem repay_spec {deps : Deps} {env : Env} {info : MessageInfo} {positionId : Nat}
    {positionOwner : Option String} {asset : Asset} {sendExcessTo : Option String} {s s' : State}
    {response : Response OutMsg}
    (done : repay deps env info positionId positionOwner asset sendExcessTo s =
      .ok (s', response)) :
    ∃ owner position charged basket paid,
      validatePositionOwner deps info positionOwner = .ok owner ∧
      (∃ i, getTargetPosition s owner positionId = .ok (i, position)) ∧
      Repaid deps env info s s' owner position charged basket
        (min asset.amount charged.creditAmount) paid ∧
      burned asset.info.toText response + paid = min asset.amount charged.creditAmount ∧
      ∀ denom, minted denom response = 0 := by
  simp only [repay, bind_eq_ok, pure_eq_ok, liftStd_eq_ok, Prod.mk.injEq] at done
  obtain ⟨_, _, owner, howner, ⟨i, position⟩, htarget, ⟨prices, charged, basket⟩, haccrue,
    ⟨prices₁, basket₁⟩, htally, _, _, ⟨store, removed⟩, hstore, ⟨msgs, basket₂⟩, hburn,
      recipient, _,
    excess, hexcess, _, _, rfl, rfl⟩ := done
  obtain ⟨list, stored, found, -⟩ := getTargetPosition_spec htarget
  obtain ⟨interest, hcharged⟩ := accrueForRepay_charged haccrue
  obtain ⟨paid, rfl, hpaid, hmint, hamount⟩ := creditBurnRevMsg_spec hburn
  have hbooks : SameBooks basket basket₁ := by
    split at htally
    · exact updateBasketTally_sameBooks htally
    · obtain ⟨-, rfl⟩ := Prod.mk.inj (pure_eq_ok.mp htally)
      exact .refl _
  have hrepaid : asset.amount - (asset.amount - charged.creditAmount) =
      min asset.amount charged.creditAmount := by omega
  have hleft : charged.creditAmount - asset.amount =
      charged.creditAmount - min asset.amount charged.creditAmount := by omega
  have hinert := excessMsg_inert hexcess
  rw [hrepaid] at hamount
  refine ⟨owner, position, charged, basket, paid, howner, ⟨i, htarget⟩, ?_, ?_, ?_⟩
  · refine {
      accrued := ⟨prices, haccrue⟩
      write := ?_
      credit := ?_
      pendingRevenue := ?_
      currentPositionId := hbooks.currentPositionId
      debt := Nat.min_le_right _ _
      liquidation := rfl
      config := rfl }
    · rw [← hleft]
      exact storeRepaid_write stored found hcharged.positionId hstore
    · simp [hbooks.creditAsset, hrepaid]
    · exact (Nat.sub_add_cancel hpaid).trans hbooks.pendingRevenue
  · rw [burned_addMessages, List.map_append, List.sum_append, hinert.burned]
    exact hamount
  · intro denom
    rw [minted_addMessages, List.map_append, List.sum_append, hinert.minted, hmint]

/-! ## Debt increase -/

/-- What a debt increase of `amount` did. -/
structure Increased (deps : Deps) (env : Env) (info : MessageInfo) (s s' : State)
    (position : Position) (out : Accrued) (amount : Nat) : Prop where
  accrued : accrue deps env s.config s.prices position s.basket info.sender false = .ok out
  write : Replaced s.positions s'.positions info.sender position
    { out.position with creditAmount := out.position.creditAmount + amount }
  credit : s'.basket.creditAsset =
    { out.basket.creditAsset with amount := out.basket.creditAsset.amount + amount }
  pendingRevenue : s'.basket.pendingRevenue = out.basket.pendingRevenue
  currentPositionId : s'.basket.currentPositionId = out.basket.currentPositionId

theorem creditMintMsg_amounts {config : Config} {asset : Asset} {recipient : Addr}
    {msg : CosmosMsg OutMsg} (done : creditMintMsg config asset recipient = .ok msg) :
    mintedBy asset.info.toText msg = asset.amount ∧ ∀ denom, burnedBy denom msg = 0 := by
  unfold creditMintMsg at done
  split at done
  case h_1 => simp at done
  case h_2 denom hinfo =>
    have htext : asset.info.toText = denom := by rw [hinfo]; rfl
    split at done
    case h_1 =>
      obtain rfl := Except.ok.inj done
      simp [mintedBy, burnedBy, htext]
    case h_2 => simp at done

theorem increaseDebt_spec {deps : Deps} {env : Env} {info : MessageInfo} {positionId : Nat}
    {amount? : Option Nat} {ltv : Option Decimal} {mintToAddr : Option String} {s s' : State}
    {response : Response OutMsg}
    (done : increaseDebt deps env info positionId amount? ltv mintToAddr s = .ok (s', response)) :
    ∃ position out amount,
      (∃ i, getTargetPosition s info.sender positionId = .ok (i, position)) ∧
      Increased deps env info s s' position out amount ∧
      minted s.basket.creditAsset.info.toText response = amount ∧
      ∀ denom, burned denom response = 0 := by
  simp only [increaseDebt, bind_eq_ok, pure_eq_ok, liftStd_eq_ok, setIndex_eq_ok,
    Uint128.add_eq_ok, Prod.mk.injEq] at done
  obtain ⟨_, _, ⟨i, position⟩, htarget, out, haccrue, ⟨prices, basket⟩, htally, amount, _, _,
    ⟨_, rfl⟩, _, _, _, _, _, _, _, _, ⟨insolvency, avg⟩, _, _, _, recipient, _, msg, hmint, _,
    ⟨_, rfl⟩, _, ⟨_, rfl⟩, _, _, s₁, hforce, rfl, rfl⟩ := done
  obtain ⟨optIn, rfl⟩ := forceRedemption_onlyOptIn hforce
  obtain ⟨list, stored, found, -⟩ := getTargetPosition_spec htarget
  have hcharged := accrue_charged haccrue
  have hbooks : SameBooks out.basket basket := by
    split at htally
    · exact updateBasketTally_sameBooks htally
    · obtain ⟨-, rfl⟩ := Prod.mk.inj (pure_eq_ok.mp htally)
      exact .refl _
  obtain ⟨hminted, hburned⟩ := creditMintMsg_amounts hmint
  have hinfo : basket.creditAsset.info = s.basket.creditAsset.info := by
    rw [hbooks.creditAsset, hcharged.creditInfo]
  refine ⟨position, out, amount, ⟨i, htarget⟩, ?_, ?_, ?_⟩
  · refine {
      accrued := haccrue
      write := ⟨hcharged.positionId, list, i, stored, found, ?_⟩
      credit := by simp [hbooks.creditAsset]
      pendingRevenue := hbooks.pendingRevenue
      currentPositionId := hbooks.currentPositionId }
    rw [stored, Option.getD_some]
  · rw [minted_addMessages, ← hinfo]
    simpa using hminted
  · intro denom
    rw [burned_addMessages]
    simpa using hburned denom

end Membrane.Cdp
