import Membrane.Cdp.Proofs.Conservation
import Membrane.Cdp.Proofs.Margins
import Membrane.Lib.Errors
import Membrane.Prices

/-!
# Borrowing up to a loan-to-value

An increase of debt may name a loan-to-value instead of an amount. The amount is that for
the value which the truncated loan-to-value lacks of the target. However the divisions
truncate, the increased debt is at or below the target, so the check that follows passes
wherever the increased debt has a value in 128 bits at all.
-/

namespace Membrane

open Outcome

namespace Cdp

/-! ## Collateral worth nothing -/

section

variable {deps : Deps} {env : Env} {config : Config} {prices : PriceStore} {basket : Basket}
  {assets : List CAsset} {isDeposit : Bool}

theorem getValue_nothing {price : PriceResponse} {value : Decimal}
    (done : price.getValue 0 = .ok value) : value = Decimal.zero := by
  obtain ⟨-, -, -, rfl⟩ := PriceResponse.getValue_eq_ok.mp done
  rw [PriceResponse.valueOf_zero]
  rfl

theorem getAssetValues_nothing {values : List Decimal} {assetPrices : List PriceResponse}
    (nothing : ∀ cAsset ∈ assets, cAsset.asset.amount = 0)
    (done : getAssetValues deps env config prices assets basket isDeposit =
      .ok (values, assetPrices)) : ∀ value ∈ values, value = Decimal.zero := by
  simp only [getAssetValues, bind_eq_ok] at done
  obtain ⟨_, -, hrest⟩ := done
  by_cases hasked : config.oracleContract.isSome ∧ 0 < assets.length
  · rw [if_pos hasked] at hrest
    simp only [bind_eq_ok, pure_eq_ok, Prod.mk.injEq] at hrest
    obtain ⟨_, -, values', hvalues, rfl, -⟩ := hrest
    intro value mem
    obtain ⟨hall, rfl⟩ := (mapM_eq_ok_iff Decimal.zero).mp hvalues
    obtain ⟨entry, hentry, hresult⟩ := List.mem_map.mp mem
    have hvalue := hall entry hentry
    rw [hresult] at hvalue
    obtain ⟨price, -, hvalue⟩ := bind_eq_ok.mp hvalue
    have hmem : entry.1 ∈ assets := (List.mem_zipIdx' hentry).2 ▸ List.getElem_mem _
    rw [nothing entry.1 hmem] at hvalue
    exact getValue_nothing hvalue
  · rw [if_neg hasked] at hrest
    cases hrest
    intro value mem
    cases mem

theorem sum_nothing {values : List Decimal} {total : Decimal}
    (nothing : ∀ value ∈ values, value = Decimal.zero)
    (done : (Decimal.sum values : Outcome StdError Decimal) = .ok total) :
    total = Decimal.zero := by
  refine foldlM_keeps_mem (fun acc => acc = Decimal.zero) values _ total ?_ rfl done
  rintro acc value acc' mem rfl hadd
  rw [nothing value mem, Decimal.add_eq_ok] at hadd
  exact hadd.2

theorem calculateAvgLTV_total {values : List Decimal} {assetPrices : List PriceResponse}
    {avg : AvgLTV} (done : calculateAvgLTV values assetPrices assets = .ok avg) :
    avg.totalValue = Decimal.zero ∨
      (Decimal.sum values : Outcome StdError Decimal) = .ok avg.totalValue := by
  simp only [calculateAvgLTV, bind_eq_ok] at done
  obtain ⟨total, htotal, ratios, -, hrest⟩ := done
  by_cases hempty : ratios.length = 0
  · rw [if_pos hempty] at hrest
    obtain rfl := pure_eq_ok.mp hrest
    exact .inl rfl
  · rw [if_neg hempty] at hrest
    by_cases hone : ratios.length = 1
    · rw [if_pos hone] at hrest
      obtain ⟨_, -, hpure⟩ := bind_eq_ok.mp hrest
      cases hpure
      exact .inr htotal
    · rw [if_neg hone] at hrest
      simp only [bind_eq_ok, pure_eq_ok] at hrest
      obtain ⟨_, -, _, -, rfl⟩ := hrest
      exact .inr htotal

theorem getAvgLTV_nothing {avg : AvgLTV}
    (done : getAvgLTV deps env config prices basket assets isDeposit = .ok avg)
    (nothing : ∀ cAsset ∈ assets, cAsset.asset.amount = 0) : avg.totalValue = Decimal.zero := by
  obtain ⟨⟨values, assetPrices⟩, hvalues, hcalc⟩ := bind_eq_ok.mp done
  rcases calculateAvgLTV_total hcalc with h | h
  · exact h
  · exact sum_nothing (getAssetValues_nothing nothing hvalues) h

end

/-! ## The increased debt -/

section

variable {deps : Deps} {env : Env} {config : Config} {prices : PriceStore} {position : Position}
  {basket : Basket} {targetLTV : Decimal} {amount : Nat}

structure AmountForLTV (deps : Deps) (env : Env) (config : Config) (prices : PriceStore)
    (position : Position) (basket : Basket) (targetLTV : Decimal) (amount : Nat) (avg : AvgLTV) :
    Prop where
  averaged : getAvgLTV deps env config prices basket position.collateralAssets false = .ok avg
  within : targetLTV ≤ avg.avgBorrowLTV
  valued : ∃ value, basket.creditPrice.getValue position.creditAmount = .ok value
  worth : 0 < avg.totalValue.atomics
  lacks : basket.creditPrice.valueOf position.creditAmount * Decimal.fractional /
    avg.totalValue.atomics < targetLTV.atomics
  amount : amount = basket.creditPrice.amountOf (avg.totalValue.atomics * (targetLTV.atomics -
    basket.creditPrice.valueOf position.creditAmount * Decimal.fractional /
      avg.totalValue.atomics) / Decimal.fractional)

theorem getAmountFromLTV_spec
    (done : getAmountFromLTV deps env config prices position basket targetLTV = .ok amount) :
    ∃ avg, AmountForLTV deps env config prices position basket targetLTV amount avg := by
  simp only [getAmountFromLTV, bind_eq_ok, liftStd_eq_ok, guardErr_eq_ok, decimalDivision_eq_ok,
    Decimal.sub_eq_ok, decimalMultiplication_eq_ok] at done
  obtain ⟨avg, havg, _, hwithin, value, hvalue, _, ⟨hworth, -, rfl⟩, _, hlacks, _, ⟨-, rfl⟩, _,
    ⟨-, rfl⟩, hamount⟩ := done
  obtain ⟨-, -, -, -, hamountOf⟩ := PriceResponse.getAmount_eq_ok.mp hamount
  obtain ⟨-, -, -, rfl⟩ := PriceResponse.getValue_eq_ok.mp hvalue
  exact ⟨avg, havg, Nat.not_lt.mp hwithin, ⟨_, hvalue⟩, Nat.pos_of_ne_zero hworth,
    Nat.not_le.mp hlacks, hamountOf.symm⟩

theorem AmountForLTV.below {avg : AvgLTV}
    (asked : AmountForLTV deps env config prices position basket targetLTV amount avg) :
    basket.creditPrice.valueOf (position.creditAmount + amount) * Decimal.fractional /
      avg.totalValue.atomics ≤ targetLTV.atomics := by
  refine ratio_le_target asked.worth (Nat.le_of_lt asked.lacks) ?_
  rw [asked.amount]
  exact truncValue_add_truncAmount_le _ _ (by decide) PriceResponse.unit_pos
    basket.creditPrice.unit_aligned

theorem AmountForLTV.holds {avg : AvgLTV} {total : Nat}
    (asked : AmountForLTV deps env config prices position basket targetLTV amount avg)
    (summed : (Uint128.sum (position.collateralAssets.map (·.asset.amount)) :
      Outcome StdError Nat) = .ok total) : total ≠ 0 := by
  rintro rfl
  have hnothing : ∀ cAsset ∈ position.collateralAssets, cAsset.asset.amount = 0 := by
    intro cAsset mem
    have hsum := Uint128.sum_eq summed
    exact List.sum_eq_zero_iff.mp hsum.symm _ (List.mem_map_of_mem mem)
  have hworth := asked.worth
  rw [getAvgLTV_nothing asked.averaged hnothing] at hworth
  exact absurd hworth (by decide)

/-- The increased debt, its value and the collateral amounts together fit 128 bits. -/
structure IncreaseFits (position : Position) (creditPrice : PriceResponse) (amount : Nat) :
    Prop where
  debt : position.creditAmount + amount < Uint128.limit
  collateral : ∃ total, (Uint128.sum (position.collateralAssets.map (·.asset.amount)) :
    Outcome StdError Nat) = .ok total
  value : ∃ value, creditPrice.getValue (position.creditAmount + amount) = .ok value

/-- The increased debt passes the check on the borrow limit, at or below the target. -/
def ConsistentIncrease (deps : Deps) (env : Env) (config : Config) (prices : PriceStore)
    (position : Position) (basket : Basket) (targetLTV : Decimal) (amount : Nat) : Prop :=
  ∃ debt ltv fee avg, (Uint128.add position.creditAmount amount : Outcome StdError Nat) = .ok debt ∧
    insolvencyCheck deps env config prices basket position.collateralAssets debt
      basket.creditPrice true = .ok ((false, ltv, fee), avg) ∧ ltv ≤ targetLTV

theorem AmountForLTV.fits_of_checked {avg : AvgLTV} {debt : Nat}
    {out : (Bool × Decimal × Nat) × AvgLTV}
    (asked : AmountForLTV deps env config prices position basket targetLTV amount avg)
    (added : (Uint128.add position.creditAmount amount : Outcome StdError Nat) = .ok debt)
    (checked : insolvencyCheck deps env config prices basket position.collateralAssets debt
      basket.creditPrice true = .ok out) : IncreaseFits position basket.creditPrice amount := by
  obtain ⟨hfits, rfl⟩ := Uint128.add_eq_ok.mp added
  obtain ⟨avg', -, hrest⟩ := bind_eq_ok.mp checked
  obtain ⟨res, hres, -⟩ := bind_eq_ok.mp hrest
  obtain ⟨total, htotal, hres⟩ := bind_eq_ok.mp hres
  refine ⟨hfits, ⟨total, htotal⟩, ?_⟩
  have hholds : ¬ (total = 0 ∧ position.creditAmount + amount ≠ 0) := fun h =>
    asked.holds htotal h.1
  rw [if_neg hholds] at hres
  by_cases hdebt : position.creditAmount + amount = 0
  · have hnone : position.creditAmount = 0 := (Nat.add_eq_zero_iff.mp hdebt).1
    rw [hdebt, ← hnone]
    exact asked.valued
  · rw [if_neg hdebt] at hres
    obtain ⟨value, hvalue, -⟩ := bind_eq_ok.mp hres
    exact ⟨value, hvalue⟩

theorem AmountForLTV.consistent {avg : AvgLTV}
    (asked : AmountForLTV deps env config prices position basket targetLTV amount avg)
    (bounded : targetLTV.atomics < Uint128.limit)
    (fits : IncreaseFits position basket.creditPrice amount) :
    ∃ ltv, insolvencyCheck deps env config prices basket position.collateralAssets
      (position.creditAmount + amount) basket.creditPrice true = .ok ((false, ltv, 0), avg) ∧
      ltv ≤ targetLTV := by
  obtain ⟨total, htotal⟩ := fits.collateral
  obtain ⟨value, hvalue⟩ := fits.value
  have hbelow := asked.below
  have hcheck : ∃ ltv, insolvencyCheckCalc avg position.collateralAssets
      (position.creditAmount + amount) basket.creditPrice true = .ok (false, ltv, 0) ∧
      ltv ≤ targetLTV := by
    by_cases hdebt : position.creditAmount + amount = 0
    · refine ⟨Decimal.percent 0, insolvencyCheckCalc_solvent.mpr
        ⟨rfl, total, htotal, .inl ⟨hdebt, rfl⟩⟩, Nat.zero_le _⟩
    · obtain ⟨-, -, -, hvalueOf⟩ := PriceResponse.getValue_eq_ok.mp hvalue
      have hltv : Decimal.checkedDiv value avg.totalValue =
          .ok ⟨value.atomics * Decimal.fractional / avg.totalValue.atomics⟩ := by
        rw [Decimal.checkedDiv_eq_ok, ← hvalueOf]
        exact ⟨Nat.pos_iff_ne_zero.mp asked.worth, Nat.lt_of_le_of_lt hbelow bounded, rfl⟩
      rw [← hvalueOf] at hltv hvalue
      refine ⟨_, insolvencyCheckCalc_solvent.mpr ⟨rfl, total, htotal,
        .inr ⟨hdebt, asked.holds htotal, _, hvalue, hltv, ?_⟩⟩, hbelow⟩
      exact Nat.le_trans hbelow asked.within
  obtain ⟨ltv, hcalc, hle⟩ := hcheck
  refine ⟨ltv, ?_, hle⟩
  rw [insolvencyCheck, asked.averaged]
  exact bind_eq_ok.mpr ⟨avg, rfl, bind_eq_ok.mpr ⟨_, hcalc, rfl⟩⟩

theorem AmountForLTV.consistent_iff {avg : AvgLTV}
    (asked : AmountForLTV deps env config prices position basket targetLTV amount avg)
    (bounded : targetLTV.atomics < Uint128.limit) :
    ConsistentIncrease deps env config prices position basket targetLTV amount ↔
      IncreaseFits position basket.creditPrice amount := by
  constructor
  · rintro ⟨debt, ltv, fee, avg', hadded, hchecked, -⟩
    exact asked.fits_of_checked hadded hchecked
  · intro fits
    obtain ⟨ltv, hchecked, hle⟩ := asked.consistent bounded fits
    exact ⟨_, ltv, 0, avg, Uint128.add_eq_ok.mpr ⟨fits.debt, rfl⟩, hchecked, hle⟩

end

/-! ## Who calls a position insolvent -/

def NotInsolvent (e : ContractError) : Prop := ∀ res, e ≠ .positionInsolvent res

theorem liftStd_errs {α : Type} (x : Outcome StdError α) : ErrsWithin NotInsolvent (liftStd x) := by
  apply ErrsWithin.mapErr
  intro e res h
  cases h

theorem customError_notInsolvent (val : String) : NotInsolvent (.customError val) := by
  intro res h
  cases h

theorem getTargetPosition_errs (s : State) (owner : Addr) (id : Nat) :
    ErrsWithin NotInsolvent (getTargetPosition s owner id) := by
  apply ErrsWithin.bind
  · apply ErrsWithin.ofOption
    intro res h
    cases h
  · intro positions _
    apply ErrsWithin.ofOption
    intro res h
    cases h

theorem add_errs (a b : Nat) : ErrsWithin NotInsolvent (Uint128.add a b) :=
  .of_errorless (Uint128.add_errorless a b)

theorem sub_errs (a b : Decimal) : ErrsWithin NotInsolvent (Decimal.sub a b) := by
  apply ErrsWithin.of_errorless
  exact .ite (.pure _) .abort

theorem fromRatio_errs (numerator denominator : Nat) :
    ErrsWithin NotInsolvent (Decimal.fromRatio numerator denominator) := by
  apply ErrsWithin.of_errorless
  exact .ite .abort (.unwrap _)

theorem mulUint_errs (amount : Nat) (a : Decimal) :
    ErrsWithin NotInsolvent (Decimal.mulUint amount a) :=
  .of_errorless (.ite (.pure _) (.ite (.pure _) .abort))

/-! ### The tally -/

theorem tallyAsset_errs (addToCAsset : Bool) (basket : Basket) (cAsset : CAsset) :
    ErrsWithin NotInsolvent (tallyAsset addToCAsset basket cAsset) := by
  unfold tallyAsset
  split
  · exact .pure _
  · apply ErrsWithin.bind
    · exact .ite (add_errs _ _) (.pure _)
    · intro supply _
      refine ErrsWithin.bind (.setIndex _ _ _) ?_
      intro caps _
      refine ErrsWithin.bind (.index _ _) ?_
      intro basketAsset _
      exact .bind (.setIndex _ _ _) fun _ _ => .pure _

theorem updateBasketTally_errs (deps : Deps) (env : Env) (config : Config) (prices : PriceStore)
    (basket : Basket) (collateralAssets fullPositionsAssets : List CAsset)
    (addToCAsset fromLiquidation : Bool) :
    ErrsWithin NotInsolvent (updateBasketTally deps env config prices basket collateralAssets
      fullPositionsAssets addToCAsset fromLiquidation) := by
  unfold updateBasketTally
  apply ErrsWithin.bind
  · exact .foldlM (tallyAsset_errs addToCAsset) _ _
  intro basket' _
  refine ErrsWithin.ite (.pure _) ?_
  refine ErrsWithin.bind (liftStd_errs _) ?_
  intro out _
  apply ErrsWithin.bind
  · apply ErrsWithin.forM
    intro entry
    refine ErrsWithin.bind (.index _ _) ?_
    intro cap _
    exact .guardErr fun _ => customError_notInsolvent _
  intro _ _
  apply ErrsWithin.bind
  · apply ErrsWithin.forM
    intro multiAssetCap
    refine ErrsWithin.bind (liftStd_errs _) ?_
    intro totalRatio _
    exact .guardErr fun _ => customError_notInsolvent _
  exact fun _ _ => .pure _

/-! ### The forced redemption -/

theorem ownedPosition_errs (s : State) (owner : Addr) (id : Nat) :
    ErrsWithin NotInsolvent (ownedPosition s owner id) := by
  unfold ownedPosition
  split
  · exact .pure _
  · exact .fail (customError_notInsolvent _)

theorem newPositionRedemption_errs (s : State) (owner : Addr) (edit : RedemptionEdit) (id : Nat) :
    ErrsWithin NotInsolvent (newPositionRedemption s owner edit id) := by
  refine ErrsWithin.bind (ownedPosition_errs s owner id) ?_
  intro position _
  exact .bind (mulUint_errs _ _) fun _ _ => .pure _

theorem checkRedemptionEdit_errs (s : State) (sender : Addr) (ids : List Nat)
    (edit : RedemptionEdit) (calledByContract : Bool) :
    ErrsWithin NotInsolvent (checkRedemptionEdit s sender ids edit calledByContract) := by
  refine ErrsWithin.bind (.guardErr fun _ => customError_notInsolvent _) ?_
  intro _ _
  refine ErrsWithin.bind (.guardErr fun _ => customError_notInsolvent _) ?_
  intro _ _
  refine ErrsWithin.bind (.guardErr fun _ => customError_notInsolvent _) ?_
  intro _ _
  refine ErrsWithin.bind (.guardErr fun _ => customError_notInsolvent _) ?_
  intro _ _
  apply ErrsWithin.forM
  intro id
  refine ErrsWithin.bind (getTargetPosition_errs s sender id) ?_
  intro found _
  exact .forM (fun _ => .guardErr fun _ => customError_notInsolvent _) _

theorem addRedemptions_errs (s : State) (sender : Addr) (edit : RedemptionEdit) (premium : Nat)
    (ids : List Nat) : ErrsWithin NotInsolvent (addRedemptions s sender edit premium ids) := by
  unfold addRedemptions
  dsimp only
  split
  · apply ErrsWithin.bind
    · apply ErrsWithin.foldlM
      intro user id
      refine ErrsWithin.ite (.pure _) ?_
      exact .bind (newPositionRedemption_errs s sender edit id) fun _ _ => .pure _
    · intro user _
      exact .bind (.setIndex _ _ _) fun _ _ => .pure _
  · apply ErrsWithin.bind
    · apply ErrsWithin.bind
      · apply ErrsWithin.mapErr
        intro e res h
        cases h
      · exact fun _ _ => .pure _
    · exact fun _ _ => .pure _

theorem dropEntry_errs (premium userIndex index : Nat) (loop : RedemptionEditLoop) :
    ErrsWithin NotInsolvent (dropEntry premium userIndex index loop) := by
  refine ErrsWithin.bind (.removeIndex _ _) ?_
  intro infos _
  apply ErrsWithin.ite
  · exact .bind (.removeIndex _ _) fun _ _ => .pure _
  · exact .pure _

theorem changeEntry_errs (index : Nat) (change : PositionRedemption → PositionRedemption)
    (loop : RedemptionEditLoop) : ErrsWithin NotInsolvent (changeEntry index change loop) := by
  refine ErrsWithin.bind (.index _ _) ?_
  intro info _
  exact .bind (.setIndex _ _ _) fun _ _ => .pure _

theorem editEntry_errs (sender : Addr) (edit : RedemptionEdit) (premium userIndex index id : Nat)
    (loop : RedemptionEditLoop) :
    ErrsWithin NotInsolvent (editEntry sender edit premium userIndex index id loop) := by
  apply ErrsWithin.bind
  · exact .ite (dropEntry_errs _ _ _ _) (.pure _)
  rintro ⟨loop, stop⟩ _
  dsimp only
  refine ErrsWithin.ite (.pure _) ?_
  apply ErrsWithin.bind
  · split
    · exact .pure _
    · refine ErrsWithin.bind (ownedPosition_errs _ _ _) ?_
      intro position _
      exact .bind (mulUint_errs _ _) fun _ _ => changeEntry_errs _ _ _
  intro loop _
  apply ErrsWithin.bind
  · split
    · exact .pure _
    · exact .ite (dropEntry_errs _ _ _ _) (.pure _)
  rintro ⟨loop, stop⟩ _
  dsimp only
  refine ErrsWithin.ite (.pure _) ?_
  apply ErrsWithin.bind
  · split
    · exact .pure _
    · exact .bind (.guardErr fun _ => customError_notInsolvent _) fun _ _ => changeEntry_errs _ _ _
  intro loop _
  exact .bind (.setIndex _ _ _) fun _ _ => .pure _

theorem editEntries_errs (sender : Addr) (edit : RedemptionEdit) (premium userIndex : Nat) :
    ∀ (ids : List Nat) (loop : RedemptionEditLoop),
      ErrsWithin NotInsolvent (editEntries sender edit premium userIndex ids loop) := by
  intro ids
  induction ids with
  | nil => exact fun _ => .pure _
  | cons id rest ih =>
    intro loop
    rw [editEntries]
    split
    · exact ih loop
    · refine ErrsWithin.bind (editEntry_errs _ _ _ _ _ _ _) ?_
      intro out _
      exact .ite (.pure _) (ih _)

theorem editRedemptionInfo_errs (s : State) (sender : Addr) (ids : List Nat)
    (edit : RedemptionEdit) (calledByContract : Bool) :
    ErrsWithin NotInsolvent (editRedemptionInfo s sender ids edit calledByContract) := by
  refine ErrsWithin.bind (checkRedemptionEdit_errs _ _ _ _ _) ?_
  intro _ _
  apply ErrsWithin.bind
  · refine ErrsWithin.ite (.pure _) ?_
    split
    · exact addRedemptions_errs _ _ _ _ _
    · exact .bind (.guardErr fun _ => customError_notInsolvent _) fun _ _ => .pure _
  rintro ⟨s, ids⟩ _
  apply ErrsWithin.bind
  · apply ErrsWithin.foldlM
    intro acc premium
    refine ErrsWithin.ite (.pure _) ?_
    split
    · exact .pure _
    · exact .bind (editEntries_errs _ _ _ _ _ _) fun _ _ => .pure _
  · exact fun _ _ => .pure _

theorem forceRedemption_errs (setRedemption : Bool) (info : MessageInfo) (positionId : Nat)
    (s : State) : ErrsWithin NotInsolvent (forceRedemption setRedemption info positionId s) := by
  apply ErrsWithin.ite
  · exact editRedemptionInfo_errs _ _ _ _ _
  · exact .pure _

/-! ### The increase -/

theorem increaseAmount_errs (deps : Deps) (env : Env) (config : Config) (prices : PriceStore)
    (position : Position) (basket : Basket) (amount : Option Nat) (ltv : Option Decimal) :
    ErrsWithin NotInsolvent
      (increaseAmount deps env config prices position basket amount ltv) := by
  have hltv : ∀ target, ErrsWithin NotInsolvent
      (getAmountFromLTV deps env config prices position basket target) := by
    intro target
    refine .bind (liftStd_errs _) fun _ _ => .bind (.guardErr fun _ res h => ?_) fun _ _ =>
      .bind (liftStd_errs _) fun _ _ => .bind (liftStd_errs _) fun _ _ =>
        .bind (.guardErr fun _ res h => ?_) fun _ _ => .bind (sub_errs _ _) fun _ _ =>
          .bind (liftStd_errs _) fun _ _ => liftStd_errs _
    · cases h
    · cases h
  cases amount with
  | some amount => exact .pure _
  | none =>
    cases ltv with
    | some target => exact hltv target
    | none => exact .fail (customError_notInsolvent _)

theorem checkDebtIncreaseState_errs (amount prevCreditAmount prevBasketCredit positionId : Nat)
    (owner : Addr) (s : State) :
    ErrsWithin NotInsolvent (checkDebtIncreaseState amount prevCreditAmount prevBasketCredit
      positionId owner s) := by
  refine .bind (getTargetPosition_errs _ _ _) fun _ _ => ?_
  refine .bind (add_errs _ _) fun _ _ => ?_
  refine .bind (.guardErr fun _ => customError_notInsolvent _) fun _ _ => ?_
  refine .bind (add_errs _ _) fun _ _ => ?_
  exact .guardErr fun _ => customError_notInsolvent _

theorem increaseDebt_ltv_errs {deps : Deps} {env : Env} {info : MessageInfo} {positionId : Nat}
    {targetLTV : Decimal} {mintToAddr : Option String} {s : State}
    (bounded : targetLTV.atomics < Uint128.limit) :
    ErrsWithin NotInsolvent
      (increaseDebt deps env info positionId none (some targetLTV) mintToAddr s) := by
  refine .bind (.guardErr fun _ res h => ?frozen) fun _ _ => ?_
  case frozen => cases h
  refine .bind (getTargetPosition_errs _ _ _) fun found _ => ?_
  refine .bind (liftStd_errs _) fun out _ => ?_
  refine .bind ?tally fun priced _ => ?_
  case tally =>
    apply ErrsWithin.ite
    · exact updateBasketTally_errs _ _ _ _ _ _ _ _ _
    · exact .pure _
  refine .bind (increaseAmount_errs _ _ _ _ _ _ _ _) fun amount hamount => ?_
  refine .bind (add_errs _ _) fun creditAmount hadded => ?_
  refine .bind (liftStd_errs _) fun value _ => ?_
  refine .bind (fromRatio_errs _ _) fun minimum _ => ?_
  refine .bind (.guardErr fun _ res h => ?least) fun _ _ => ?_
  case least => cases h
  refine .bind (.guardErr fun _ res h => ?oracle) fun _ _ => ?_
  case oracle => cases h
  refine .bind (liftStd_errs _) fun checked hchecked => ?_
  refine .bind (.guardErr fun hinsolvent => ?solvent) fun _ _ => ?_
  case solvent =>
    -- the check that ran says what it says wherever the increased debt fits
    obtain ⟨avg, hasked⟩ := getAmountFromLTV_spec hamount
    have hran := liftStd_eq_ok.mp hchecked
    have hsum := Uint128.add_eq_ok.mp hadded
    have hfits := hasked.fits_of_checked (Uint128.add_eq_ok.mpr hsum) hran
    obtain ⟨ltv, hsolvent, -⟩ := hasked.consistent bounded hfits
    rw [← hsum.2, hsolvent] at hran
    cases hran
    cases hinsolvent
  refine .bind (liftStd_errs _) fun recipient _ => ?_
  refine .bind (liftStd_errs _) fun message _ => ?_
  refine .bind (.setIndex _ _ _) fun updating _ => ?_
  refine .bind (add_errs _ _) fun basketCredit _ => ?_
  refine .bind (checkDebtIncreaseState_errs _ _ _ _ _ _) fun _ _ => ?_
  exact .bind (forceRedemption_errs _ _ _ _) fun _ _ => .pure _

/-! ## Minting to a target -/

/-- The amount for a target keeps the increased debt at or below it wherever the numbers of
    the check fit, and an increase to a target never fails as insolvent. -/
theorem minting_to_ltv {targetLTV : Decimal} (bounded : targetLTV.atomics < Uint128.limit) :
    (∀ deps env config prices position basket amount,
      getAmountFromLTV deps env config prices position basket targetLTV = .ok amount →
        (ConsistentIncrease deps env config prices position basket targetLTV amount ↔
          IncreaseFits position basket.creditPrice amount)) ∧
    ∀ deps env info positionId mintToAddr s res,
      increaseDebt deps env info positionId none (some targetLTV) mintToAddr s ≠
        .error (.err (.positionInsolvent res)) := by
  constructor
  · intro deps env config prices position basket amount done
    obtain ⟨avg, hasked⟩ := getAmountFromLTV_spec done
    exact hasked.consistent_iff bounded
  · intro deps env info positionId mintToAddr s res failed
    exact (increaseDebt_ltv_errs bounded).isAllowed _ failed res rfl

/-- A position of 1000 `atom` that may be borrowed against up to three fifths. -/
private def thousandAtom (creditAmount : Nat) : Position :=
  ⟨1, [⟨⟨.nativeToken "atom", 1000000000⟩, Decimal.percent 60, Decimal.percent 70, Decimal.one,
    none, none⟩], creditAmount⟩

private def thousandAtomHeld : State where
  config := sampleConfig
  basket := sampleBasket
  positions := (∅ : KeyMap Addr (List Position)).insert "user" [thousandAtom 200000000]
  prices := ⟨∅, ∅⟩
  redemptionOptIn := ∅
  ownershipTransfer := none
  withdraw := none
  liquidation := none
  freezeTimer := none

/-- A debt of 200 dollars is brought up to half of the collateral. -/
theorem minting_to_ltv_half :
    (ConsistentIncrease atPar (atTime 0) sampleConfig ⟨∅, ∅⟩ (thousandAtom 200000000) sampleBasket
        (Decimal.percent 50) 300000000 ↔
      IncreaseFits (thousandAtom 200000000) sampleBasket.creditPrice 300000000) ∧
    ∀ res, increaseDebt atPar (atTime 0) (MessageInfo.noFunds "user") 1 none
      (some (Decimal.percent 50)) none thousandAtomHeld ≠
        .error (.err (.positionInsolvent res)) := by
  have hboth := @minting_to_ltv (Decimal.percent 50) (by decide)
  exact ⟨hboth.1 _ _ _ _ _ _ _ (by decide +kernel), hboth.2 _ _ _ _ _ _⟩

private def worthless : Basket := { sampleBasket with creditPrice := ⟨⟨1⟩, 6⟩ }

/-- At that price 300 dollars are so many that the debt they are added to has no value in
    128 bits, and the check aborts. -/
theorem not_minting_to_ltv :
    getAmountFromLTV atPar (atTime 0) sampleConfig ⟨∅, ∅⟩ (thousandAtom (2 * 10 ^ 26)) worthless
        (Decimal.percent 50) = .ok (3 * 10 ^ 26) ∧
      ¬ ConsistentIncrease atPar (atTime 0) sampleConfig ⟨∅, ∅⟩ (thousandAtom (2 * 10 ^ 26))
        worthless (Decimal.percent 50) (3 * 10 ^ 26) := by
  refine ⟨by decide +kernel, ?_⟩
  rintro ⟨debt, ltv, fee, avg, hadded, hchecked, -⟩
  obtain ⟨-, rfl⟩ := Uint128.add_eq_ok.mp hadded
  have habort : insolvencyCheck atPar (atTime 0) sampleConfig ⟨∅, ∅⟩ worthless
      (thousandAtom (2 * 10 ^ 26)).collateralAssets (2 * 10 ^ 26 + 3 * 10 ^ 26)
      worthless.creditPrice true = .error .panic := by decide +kernel
  rw [show (thousandAtom (2 * 10 ^ 26)).creditAmount = 2 * 10 ^ 26 from rfl, habort] at hchecked
  cases hchecked

end Cdp

end Membrane
