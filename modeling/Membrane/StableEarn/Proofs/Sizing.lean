import Membrane.Lib.TargetRatio
import Membrane.Prices
import Membrane.StableEarn.Contract

/-!
# The sizing of loops

How far minting and withdrawing what the loop calculations return moves the LTV of the
position. The truncated LTV leaves room that the exact one does not have, so a withdrawal can
leave it two atomics over 90%; a mint cannot, as its room is cut to whole percents.
-/

namespace Membrane.StableEarn

open Outcome

def ltvOf (value debtValue : Nat) : Nat :=
  debtValue * Decimal.fractional / max value Decimal.fractional

def ninety : Nat := (Decimal.percent 90).atomics

/-- A leveraged position at fixed prices. -/
structure Leverage where
  swapSlippage : Decimal
  vtPrice : PriceResponse
  depositTokenPrice : PriceResponse
  cdtPrice : PriceResponse
  vaultTokens : Nat
  debt : Nat
  deriving DecidableEq, Repr

namespace Leverage

def value (p : Leverage) : Nat := p.vtPrice.valueOf p.vaultTokens

def debtValue (p : Leverage) : Nat := p.cdtPrice.valueOf p.debt

def ltv (p : Leverage) : Nat := ltvOf p.value p.debtValue

def room (p : Leverage) : Nat := roomOf Decimal.fractional p.value ninety p.ltv

def mintable (p : Leverage) : Outcome StdError (Nat × Decimal × Nat) :=
  calcMintable p.swapSlippage p.vtPrice p.depositTokenPrice p.cdtPrice p.vaultTokens p.debt

def withdrawable (p : Leverage) (inReply : Bool) : Outcome StdError (Nat × Decimal) :=
  calcWithdrawableCollateral p.swapSlippage p.vtPrice p.cdtPrice p.vaultTokens p.debt inReply

/-- The numbers of a position that its values are computed from fit, and its LTV is at most
    90%. -/
structure Usable (p : Leverage) : Prop where
  priced : 0 < p.vtPrice.price.atomics
  counted : p.vaultTokens < Uint128.limit
  valued : ∃ value, p.vtPrice.getValue p.vaultTokens = .ok value
  owed : ∃ debtValue, p.cdtPrice.getValue p.debt = .ok debtValue
  slipping : p.swapSlippage ≤ Decimal.one
  swapped : p.debtValue * (Decimal.fractional + p.swapSlippage.atomics) / Decimal.fractional <
    Uint128.limit
  within : p.ltv ≤ ninety

/-- What is asked of both calculations: the LTV after a mint is at most 90% and that after a
    withdrawal at most `excess` atomics more, a withdrawal is of collateral that is there, its
    value and that of `grain` units clears the debt or leaves the minimum, and a reply is
    answered where `served` holds. -/
structure SizesWithin (p : Leverage) (excess grain : Nat) (served : Prop) : Prop where
  mints : ∀ tokens least minted, p.mintable = .ok (tokens, least, minted) →
    ltvOf p.value (p.cdtPrice.valueOf (p.debt + minted)) ≤ ninety
  withdraws : ∀ inReply withdrawn least, p.withdrawable inReply = .ok (withdrawn, least) →
    ltvOf (p.vtPrice.valueOf (p.vaultTokens - withdrawn)) p.debtValue ≤ ninety + excess
  owned : ∀ inReply withdrawn least, p.withdrawable inReply = .ok (withdrawn, least) →
    withdrawn ≤ p.vaultTokens
  repays : ∀ inReply withdrawn least, p.withdrawable inReply = .ok (withdrawn, least) →
    p.debtValue ≤ p.vtPrice.valueOf (withdrawn + grain) ∨
      minimumDebtValue.atomics + p.vtPrice.valueOf withdrawn ≤ p.debtValue
  answers : served → ∃ withdrawn least, p.withdrawable true = .ok (withdrawn, least)

/-- There is no debt, or it is at least the minimum, or the room is enough to clear it. -/
def Coverable (p : Leverage) : Prop :=
  p.debt = 0 ∨ minimumDebtValue.atomics ≤ p.debtValue ∨ p.debtValue ≤ p.room

end Leverage

section Parts

variable {p : Leverage}

theorem ltvOf_eq_ok {value debtValue ltv : Decimal} :
    decimalDivision debtValue (decimalMax value Decimal.one) = .ok ltv ↔
      ltvOf value.atomics debtValue.atomics < Uint128.limit ∧
        ltv = ⟨ltvOf value.atomics debtValue.atomics⟩ := by
  have hone : Decimal.one.atomics = Decimal.fractional := rfl
  have hmax : (decimalMax value Decimal.one).atomics = max value.atomics Decimal.fractional := by
    unfold decimalMax
    split
    · rename_i hle
      exact (Nat.max_eq_right hle).symm
    · rename_i hgt
      exact (Nat.max_eq_left (Nat.le_of_not_le hgt)).symm
  have hpos : max value.atomics Decimal.fractional ≠ 0 :=
    Nat.pos_iff_ne_zero.mp (Nat.lt_of_lt_of_le (by decide) (Nat.le_max_right _ _))
  rw [decimalDivision_eq_ok, hmax]
  exact and_iff_right hpos

theorem le_min_iff {a b : Decimal} {n : Nat} :
    n ≤ (Decimal.min a b).atomics ↔ n ≤ a.atomics ∧ n ≤ b.atomics := by
  unfold Decimal.min
  split
  · rename_i hle
    exact ⟨fun h => ⟨h, Nat.le_trans h hle⟩, fun h => h.1⟩
  · rename_i hgt
    exact ⟨fun h => ⟨Nat.le_trans h (Nat.le_of_not_le hgt), h⟩, fun h => h.2⟩

theorem ltvSpace_eq_ok {ltv space : Decimal} :
    ltvSpace ltv = .ok space ↔ ltv.atomics ≤ ninety ∧ space = ⟨ninety - ltv.atomics⟩ := by
  unfold ltvSpace
  split
  · rename_i hle
    rw [pure_eq_ok]
    exact ⟨fun h => ⟨hle, h.symm⟩, fun h => h.2.symm⟩
  · rename_i hgt
    rw [fail_eq_ok]
    exact ⟨False.elim, fun h => hgt h.1⟩

theorem mintable_spec {tokens minted : Nat} {least : Decimal}
    (done : p.mintable = .ok (tokens, least, minted)) :
    p.ltv ≤ ninety ∧ ∃ percents, (Decimal.percent percents).atomics ≤ ninety - p.ltv ∧
      minted = p.cdtPrice.amountOf
        (p.value * (Decimal.percent percents).atomics / Decimal.fractional) := by
  simp only [Leverage.mintable, calcMintable, bind_eq_ok, PriceResponse.getValue_eq_ok,
    ltvOf_eq_ok, ltvSpace_eq_ok, Decimal.checkedMul, ofOption_eq_ok, Decimal.fits_eq_some,
    decimalMultiplication_eq_ok, decimalSubtraction_eq_ok, PriceResponse.getAmount_eq_ok,
    pure_eq_ok, Prod.mk.injEq] at done
  obtain ⟨_, ⟨-, -, -, rfl⟩, _, ⟨-, -, -, rfl⟩, _, ⟨-, rfl⟩, _, ⟨hltv, rfl⟩, _, ⟨-, rfl⟩, _,
    ⟨-, rfl⟩, _, ⟨-, -, -, -, rfl⟩, _, ⟨-, rfl⟩, _, ⟨-, rfl⟩, _, -, -, -, rfl⟩ := done
  refine ⟨hltv, _, ?_, rfl⟩
  have hcut : (ninety - p.ltv) * (Decimal.percent 10000).atomics / Decimal.fractional /
      Decimal.fractional * 10000000000000000 ≤ ninety - p.ltv := by
    have hscale : (Decimal.percent 10000).atomics = 100 * Decimal.fractional := by decide
    rw [hscale, ← Nat.mul_assoc, Nat.mul_div_cancel _ (by decide)]
    have hparts : Decimal.fractional = 100 * 10000000000000000 := by decide
    rw [hparts, Nat.mul_comm _ 100, Nat.mul_div_mul_left _ _ (by decide)]
    exact Nat.div_mul_le_self _ _
  exact hcut

theorem adjusted_spec {inReply underMinimum : Bool} {value debtValue adjusted : Decimal}
    {f : StdError → StdError} {error : StdError}
    (under : (if value < debtValue then do
        pure (decide ((← decimalSubtraction debtValue value) < minimumDebtValue))
      else pure false : Outcome StdError Bool) = .ok underMinimum)
    (done : (if underMinimum then Outcome.mapErr f (decimalSubtraction debtValue minimumDebtValue)
      else if inReply = false ∧ debtValue < minimumDebtValue then Outcome.fail error
      else pure value : Outcome StdError Decimal) = .ok adjusted) :
    adjusted.atomics ≤ value.atomics ∧ (debtValue.atomics ≤ adjusted.atomics ∨
      minimumDebtValue.atomics + adjusted.atomics ≤ debtValue.atomics) := by
  have hunder : underMinimum = true ↔ value.atomics < debtValue.atomics ∧
      debtValue.atomics - value.atomics < minimumDebtValue.atomics := by
    split at under
    · rename_i hlt
      simp only [bind_eq_ok, decimalSubtraction_eq_ok, pure_eq_ok] at under
      obtain ⟨_, ⟨-, rfl⟩, rfl⟩ := under
      rw [decide_eq_true_iff]
      exact (and_iff_right hlt).symm
    · rename_i hge
      rw [pure_eq_ok] at under
      subst under
      exact ⟨fun h => absurd h Bool.false_ne_true, fun h => absurd h.1 hge⟩
  split at done
  · rename_i hcut
    rw [mapErr_eq_ok, decimalSubtraction_eq_ok] at done
    obtain ⟨hle, rfl⟩ := done
    obtain ⟨hlt, hshort⟩ := hunder.mp hcut
    have hminimum : minimumDebtValue.atomics ≤ debtValue.atomics := hle
    dsimp only
    omega
  · rename_i hkeep
    split at done
    · exact (fail_eq_ok.mp done).elim
    · obtain rfl := pure_eq_ok.mp done
      have hnot : ¬(value.atomics < debtValue.atomics ∧
          debtValue.atomics - value.atomics < minimumDebtValue.atomics) :=
        fun h => hkeep (hunder.mpr h)
      omega

/-- What a run of `calc_withdrawable_collateral` says of the value it withdraws: it is within the
    room and within the debt and its slippage, and it covers the debt or leaves the minimum. -/
theorem withdrawable_spec {inReply : Bool} {withdrawn : Nat} {least : Decimal} (owing : p.debt ≠ 0)
    (done : p.withdrawable inReply = .ok (withdrawn, least)) :
    p.ltv ≤ ninety ∧ p.swapSlippage ≤ Decimal.one ∧ 0 < p.vtPrice.price.atomics ∧
      ∃ value, withdrawn = p.vtPrice.amountOf value ∧ value ≤ p.room ∧
        value ≤ p.debtValue * (Decimal.fractional + p.swapSlippage.atomics) / Decimal.fractional ∧
          (p.debtValue ≤ value ∨ minimumDebtValue.atomics + value ≤ p.debtValue) := by
  unfold Leverage.withdrawable calcWithdrawableCollateral at done
  rw [if_neg owing] at done
  simp only [bind_eq_ok, PriceResponse.getValue_eq_ok, ltvOf_eq_ok, ltvSpace_eq_ok,
    decimalMultiplication_eq_ok, Decimal.add_eq_ok, PriceResponse.getAmount_eq_ok, pure_eq_ok,
    Prod.mk.injEq] at done
  simp only [decimalDivision_eq_ok, decimalSubtraction_eq_ok] at done
  obtain ⟨_, ⟨-, -, -, rfl⟩, _, ⟨-, -, -, rfl⟩, _, ⟨-, rfl⟩, _, ⟨hltv, rfl⟩, _, ⟨-, rfl⟩, _,
    ⟨-, -, rfl⟩, _, ⟨-, rfl⟩, _, ⟨-, rfl⟩, under, hunder, adjusted, hadjusted, rest⟩ := done
  obtain ⟨hle, hclears⟩ := adjusted_spec hunder hadjusted
  obtain ⟨hroom, hslipped⟩ := le_min_iff.mp hle
  obtain ⟨_, ⟨hslippage, -⟩, _, -, _, ⟨hpriced, -, -, -, rfl⟩, rfl, -⟩ := rest
  exact ⟨hltv, hslippage, Nat.pos_iff_ne_zero.mpr hpriced, adjusted.atomics, rfl, hroom, hslipped,
    hclears⟩

theorem adjusted_exists {value debtValue : Decimal} {f : StdError → StdError} {error : StdError}
    (covers : minimumDebtValue.atomics ≤ debtValue.atomics ∨
      debtValue.atomics ≤ value.atomics) :
    ∃ underMinimum : Bool, (if value < debtValue then do
        pure (decide ((← decimalSubtraction debtValue value) < minimumDebtValue))
      else pure false : Outcome StdError Bool) = .ok underMinimum ∧
      ∃ adjusted, (if underMinimum then
          Outcome.mapErr f (decimalSubtraction debtValue minimumDebtValue)
        else if true = false ∧ debtValue < minimumDebtValue then Outcome.fail error
        else pure value : Outcome StdError Decimal) = .ok adjusted := by
  by_cases hlt : value < debtValue
  · have hle : value ≤ debtValue := Nat.le_of_lt hlt
    rw [if_pos hlt]
    refine ⟨_, bind_eq_ok.mpr ⟨_, decimalSubtraction_eq_ok.mpr ⟨hle, rfl⟩, rfl⟩, ?_⟩
    split
    · have hminimum : minimumDebtValue ≤ debtValue := by
        rcases covers with h | h
        · exact h
        · exact absurd hlt (Nat.not_lt.mpr h)
      exact ⟨_, mapErr_eq_ok.mpr (decimalSubtraction_eq_ok.mpr ⟨hminimum, rfl⟩)⟩
    · exact ⟨value, by rw [if_neg (fun h => Bool.noConfusion h.1)]; rfl⟩
  · rw [if_neg hlt]
    refine ⟨false, rfl, value, ?_⟩
    rw [if_neg Bool.false_ne_true, if_neg (fun h => Bool.noConfusion h.1)]
    rfl

theorem getAmount_within {value : Decimal} (usable : p.Usable) (le : value.atomics ≤ p.value) :
    ∃ amount, p.vtPrice.getAmount value = .ok amount := by
  obtain ⟨_, valued⟩ := usable.valued
  obtain ⟨hdecimals, hscaled, -, -⟩ := PriceResponse.getValue_eq_ok.mp valued
  have hprice : value.atomics * Decimal.fractional / p.vtPrice.price.atomics ≤
      p.vaultTokens * Decimal.fractional / p.vtPrice.unit := by
    refine Nat.div_le_of_le_mul ?_
    calc value.atomics * Decimal.fractional
        ≤ p.value * Decimal.fractional := Nat.mul_le_mul_right _ le
      _ ≤ p.vtPrice.price.atomics * (p.vaultTokens * Decimal.fractional / p.vtPrice.unit) :=
          Nat.div_mul_le_self _ _
  have hamount : p.vtPrice.amountOf value.atomics ≤ p.vaultTokens :=
    truncAmount_truncValue_le _ (by decide) usable.priced le
  exact ⟨_, PriceResponse.getAmount_eq_ok.mpr ⟨Nat.pos_iff_ne_zero.mp usable.priced,
    Nat.lt_of_le_of_lt hprice hscaled, hdecimals, Nat.lt_of_le_of_lt hamount usable.counted, rfl⟩⟩

theorem ninety_le : ninety ≤ Decimal.fractional := by decide

theorem room_le : p.room ≤ p.value := roomOf_le ninety_le

theorem withdrawable_of_parts {value debtValue ltv space product room sum slipped factor : Decimal}
    (owing : p.debt ≠ 0) (valued : p.vtPrice.getValue p.vaultTokens = .ok value)
    (owed : p.cdtPrice.getValue p.debt = .ok debtValue)
    (ratio : decimalDivision debtValue (decimalMax value Decimal.one) = .ok ltv)
    (lacks : ltvSpace ltv = .ok space) (scaled : decimalMultiplication value space = .ok product)
    (roomy : decimalDivision product (Decimal.percent 90) = .ok room)
    (summed : (Decimal.add Decimal.one p.swapSlippage : Outcome StdError Decimal) = .ok sum)
    (slips : decimalMultiplication debtValue sum = .ok slipped)
    (covers : minimumDebtValue.atomics ≤ debtValue.atomics ∨
      debtValue.atomics ≤ (Decimal.min room slipped).atomics)
    (factored : decimalSubtraction Decimal.one p.swapSlippage = .ok factor)
    (leasts : ∀ a : Decimal, a.atomics ≤ (Decimal.min room slipped).atomics →
      ∃ least, decimalMultiplication a factor = .ok least)
    (amounts : ∀ a : Decimal, a.atomics ≤ (Decimal.min room slipped).atomics →
      ∃ amount, p.vtPrice.getAmount a = .ok amount) :
    ∃ withdrawn least, p.withdrawable true = .ok (withdrawn, least) := by
  unfold Leverage.withdrawable calcWithdrawableCollateral
  rw [if_neg owing]
  obtain ⟨under, hunder, adjusted, hadjusted⟩ := adjusted_exists covers
  obtain ⟨hle, -⟩ := adjusted_spec hunder hadjusted
  obtain ⟨least, hleast⟩ := leasts adjusted hle
  obtain ⟨withdrawn, hwithdrawn⟩ := amounts adjusted hle
  refine ⟨withdrawn, least, ?_⟩
  simp only [bind_eq_ok]
  exact ⟨value, valued, debtValue, owed, ltv, ratio, space, lacks, product, scaled, room,
    roomy, sum,
    summed, slipped, slips, under, hunder, adjusted, hadjusted, factor, factored, least, hleast,
    withdrawn, hwithdrawn, rfl⟩

theorem min_le_room {room slipped : Decimal} : (Decimal.min room slipped).atomics ≤ room.atomics :=
  (le_min_iff.mp (Nat.le_refl _)).1

theorem withdrawable_answers (usable : p.Usable) (covers : p.Coverable) :
    ∃ withdrawn least, p.withdrawable true = .ok (withdrawn, least) := by
  by_cases hdebt : p.debt = 0
  · exact ⟨p.vaultTokens, Decimal.zero, if_pos hdebt⟩
  obtain ⟨value, valued⟩ := usable.valued
  obtain ⟨debtValue, owed⟩ := usable.owed
  obtain ⟨-, -, hfits, rfl⟩ := PriceResponse.getValue_eq_ok.mp valued
  obtain ⟨-, -, -, rfl⟩ := PriceResponse.getValue_eq_ok.mp owed
  have hslippage : p.swapSlippage.atomics ≤ Decimal.one.atomics := usable.slipping
  have hratio : decimalDivision ⟨p.debtValue⟩ (decimalMax ⟨p.value⟩ Decimal.one) = .ok ⟨p.ltv⟩ :=
    ltvOf_eq_ok.mpr ⟨Nat.lt_of_le_of_lt usable.within (by decide), rfl⟩
  have hlacks : ltvSpace ⟨p.ltv⟩ = .ok ⟨ninety - p.ltv⟩ :=
    ltvSpace_eq_ok.mpr ⟨usable.within, rfl⟩
  have hscaled : decimalMultiplication ⟨p.value⟩ ⟨ninety - p.ltv⟩ =
      .ok ⟨p.value * (ninety - p.ltv) / Decimal.fractional⟩ := by
    refine decimalMultiplication_eq_ok.mpr ⟨?_, rfl⟩
    refine Nat.lt_of_le_of_lt (Nat.div_le_of_le_mul ?_) hfits
    rw [Nat.mul_comm]
    exact Nat.mul_le_mul_right _ (Nat.le_trans (Nat.sub_le _ _) ninety_le)
  have hroom : decimalDivision ⟨p.value * (ninety - p.ltv) / Decimal.fractional⟩
      (Decimal.percent 90) = .ok ⟨p.room⟩ :=
    decimalDivision_eq_ok.mpr ⟨by decide, Nat.lt_of_le_of_lt room_le hfits, rfl⟩
  have hsummed : (Decimal.add Decimal.one p.swapSlippage : Outcome StdError Decimal) =
      .ok ⟨Decimal.fractional + p.swapSlippage.atomics⟩ := by
    refine Decimal.add_eq_ok.mpr ⟨?_, rfl⟩
    have hone : Decimal.one.atomics + Decimal.one.atomics < Uint128.limit := by decide
    omega
  have hslipped := decimalMultiplication_eq_ok (a := ⟨p.debtValue⟩)
    (b := ⟨Decimal.fractional + p.swapSlippage.atomics⟩).mpr ⟨usable.swapped, rfl⟩
  have hfactored := decimalSubtraction_eq_ok.mpr ⟨usable.slipping, rfl⟩
  refine withdrawable_of_parts hdebt valued owed hratio hlacks hscaled hroom hsummed hslipped ?_
    hfactored ?_ ?_
  · rcases covers with h | h | h
    · exact absurd h hdebt
    · exact .inl h
    · refine .inr (le_min_iff.mpr ⟨h, ?_⟩)
      refine (Nat.le_div_iff_mul_le (by decide)).mpr ?_
      exact Nat.mul_le_mul_left _ (Nat.le_add_right _ _)
  · intro a ha
    refine ⟨_, decimalMultiplication_eq_ok.mpr ⟨?_, rfl⟩⟩
    have hwithin : a.atomics ≤ p.value := Nat.le_trans ha (Nat.le_trans min_le_room room_le)
    refine Nat.lt_of_le_of_lt (Nat.div_le_of_le_mul ?_) (Nat.lt_of_le_of_lt hwithin hfits)
    rw [Nat.mul_comm]
    exact Nat.mul_le_mul_right _ (Nat.sub_le _ _)
  · intro a ha
    exact getAmount_within usable (Nat.le_trans ha (Nat.le_trans min_le_room room_le))

theorem valueOf_amountOf_le (price : PriceResponse) (value : Nat) :
    price.valueOf (price.amountOf value) ≤ value := by
  have h := @truncValue_add_truncAmount_le Decimal.fractional price.unit price.price.atomics 0
    value (by decide) PriceResponse.unit_pos price.unit_aligned
  simpa [PriceResponse.valueOf, PriceResponse.amountOf, truncValue] using h

theorem ltv_after_mint {tokens minted : Nat} {least : Decimal}
    (done : p.mintable = .ok (tokens, least, minted)) :
    ltvOf p.value (p.cdtPrice.valueOf (p.debt + minted)) ≤ ninety := by
  obtain ⟨hltv, percents, hpercents, rfl⟩ := mintable_spec done
  have hgrown : p.cdtPrice.valueOf (p.debt + p.cdtPrice.amountOf
      (p.value * (Decimal.percent percents).atomics / Decimal.fractional)) ≤
        p.debtValue + p.value * (Decimal.percent percents).atomics / Decimal.fractional :=
    truncValue_add_truncAmount_le _ _ (by decide) PriceResponse.unit_pos p.cdtPrice.unit_aligned
  refine ratio_le_target ?_ hltv ?_
  · exact Nat.lt_of_lt_of_le (by decide) (Nat.le_max_right _ _)
  · refine Nat.le_trans hgrown (Nat.add_le_add_left (Nat.div_le_div_right ?_) _)
    exact Nat.mul_le_mul (Nat.le_max_left _ _) hpercents

theorem ltv_after_withdrawal {inReply : Bool} {withdrawn : Nat} {least : Decimal}
    (owing : p.debt ≠ 0) (done : p.withdrawable inReply = .ok (withdrawn, least)) :
    ltvOf (p.vtPrice.valueOf (p.vaultTokens - withdrawn)) p.debtValue ≤ ninety + 2 := by
  obtain ⟨hltv, hslippage, hpriced, value, rfl, hroom, hslipped, -⟩ := withdrawable_spec owing done
  have howned : p.vtPrice.amountOf value ≤ p.vaultTokens :=
    truncAmount_truncValue_le _ (by decide) hpriced (Nat.le_trans hroom room_le)
  have hremains : p.value ≤
      p.vtPrice.valueOf (p.vaultTokens - p.vtPrice.amountOf value) + value := by
    have h := @truncValue_add_truncAmount_le Decimal.fractional p.vtPrice.unit
      p.vtPrice.price.atomics (p.vaultTokens - p.vtPrice.amountOf value) value (by decide)
      PriceResponse.unit_pos p.vtPrice.unit_aligned
    have hsum : p.vaultTokens - p.vtPrice.amountOf value + p.vtPrice.amountOf value =
        p.vaultTokens := Nat.sub_add_cancel howned
    exact Nat.le_trans (Nat.le_of_eq (congrArg p.vtPrice.valueOf hsum.symm)) h
  generalize p.vtPrice.valueOf (p.vaultTokens - p.vtPrice.amountOf value) = remaining at hremains ⊢
  rcases Nat.le_total p.value Decimal.fractional with hsmall | hlarge
  · -- a collateral worth less than one counts as one before and after
    have hsame : ltvOf remaining p.debtValue ≤ p.ltv := by
      unfold Leverage.ltv ltvOf
      rw [Nat.max_eq_right hsmall]
      exact Nat.div_le_div_left (Nat.le_max_right _ _) (by decide)
    omega
  · have hfew : value ≤ 2 * p.debtValue := by
      refine Nat.le_trans hslipped (Nat.div_le_of_le_mul ?_)
      have hdouble : Decimal.fractional + p.swapSlippage.atomics ≤ 2 * Decimal.fractional := by
        have hone : p.swapSlippage.atomics ≤ Decimal.fractional := hslippage
        omega
      calc p.debtValue * (Decimal.fractional + p.swapSlippage.atomics)
          ≤ p.debtValue * (2 * Decimal.fractional) := Nat.mul_le_mul_left _ hdouble
        _ = Decimal.fractional * (2 * p.debtValue) := by ring
    have hratio : p.ltv = p.debtValue * Decimal.fractional / p.value := by
      rw [Leverage.ltv, ltvOf, Nat.max_eq_left hlarge]
    have hlt : p.debtValue * Decimal.fractional < (ninety + 3) * remaining := by
      refine ratio_after_removal (by decide) (by decide) (by decide)
        (Nat.lt_of_lt_of_le (by decide) hlarge) ?_ ?_ hfew hremains
      · rw [← hratio]
        exact hltv
      · rw [← hratio]
        exact hroom
    refine Nat.lt_succ_iff.mp (Nat.div_lt_of_lt_mul ?_)
    calc p.debtValue * Decimal.fractional
        < (ninety + 3) * remaining := hlt
      _ ≤ (ninety + 3) * max remaining Decimal.fractional :=
          Nat.mul_le_mul_left _ (Nat.le_max_left _ _)
      _ = max remaining Decimal.fractional * (ninety + 2 + 1) := Nat.mul_comm _ _

theorem withdrawable_debtless {inReply : Bool} {withdrawn : Nat} {least : Decimal}
    (debtless : p.debt = 0) (done : p.withdrawable inReply = .ok (withdrawn, least)) :
    withdrawn = p.vaultTokens ∧ p.debtValue = 0 := by
  unfold Leverage.withdrawable calcWithdrawableCollateral at done
  rw [if_pos debtless, pure_eq_ok, Prod.mk.injEq] at done
  refine ⟨done.1.symm, ?_⟩
  rw [Leverage.debtValue, debtless]
  exact PriceResponse.valueOf_zero

theorem withdrawn_le {inReply : Bool} {withdrawn : Nat} {least : Decimal}
    (done : p.withdrawable inReply = .ok (withdrawn, least)) : withdrawn ≤ p.vaultTokens := by
  by_cases hdebt : p.debt = 0
  · exact Nat.le_of_eq (withdrawable_debtless hdebt done).1
  · obtain ⟨-, -, hpriced, value, rfl, hroom, -, -⟩ := withdrawable_spec hdebt done
    exact truncAmount_truncValue_le _ (by decide) hpriced (Nat.le_trans hroom room_le)

theorem repaid_cleanly {inReply : Bool} {withdrawn : Nat} {least : Decimal}
    (done : p.withdrawable inReply = .ok (withdrawn, least)) :
    p.debtValue ≤
        p.vtPrice.valueOf (withdrawn + grainOf Decimal.fractional p.vtPrice.unit) ∨
      minimumDebtValue.atomics + p.vtPrice.valueOf withdrawn ≤ p.debtValue := by
  by_cases hdebt : p.debt = 0
  · rw [(withdrawable_debtless hdebt done).2]
    exact .inl (Nat.zero_le _)
  · obtain ⟨-, -, hpriced, value, rfl, -, -, hclears⟩ := withdrawable_spec hdebt done
    rcases hclears with hclears | hleaves
    · exact .inl (Nat.le_trans hclears (le_truncValue_grain value (by decide)
        PriceResponse.unit_pos hpriced p.vtPrice.unit_aligned))
    · refine .inr (Nat.le_trans ?_ hleaves)
      exact Nat.add_le_add_left (valueOf_amountOf_le p.vtPrice value) _

end Parts

/-- Both calculations keep the LTV, as the contract computes it, at 90%: exactly for a mint and up
    to two atomics for a withdrawal. -/
theorem sizes_within_ninety (p : Leverage) (usable : p.Usable) :
    p.SizesWithin 2 (grainOf Decimal.fractional p.vtPrice.unit) p.Coverable where
  mints _ _ _ done := ltv_after_mint done
  withdraws inReply withdrawn least done := by
    by_cases hdebt : p.debt = 0
    · obtain ⟨rfl, hzero⟩ := withdrawable_debtless hdebt done
      rw [hzero, ltvOf, Nat.zero_mul, Nat.zero_div]
      exact Nat.zero_le _
    · exact ltv_after_withdrawal hdebt done
  owned _ _ _ done := withdrawn_le done
  repays _ _ _ done := repaid_cleanly done
  answers covers := withdrawable_answers usable covers

def sampleLeverage : Leverage where
  swapSlippage := ⟨5000000000000000⟩
  vtPrice := ⟨⟨1000000000000⟩, 6⟩
  depositTokenPrice := ⟨Decimal.one, 6⟩
  cdtPrice := ⟨Decimal.one, 6⟩
  vaultTokens := 900000000000000000
  debt := 450000000006

theorem sampleLeverage_usable : sampleLeverage.Usable where
  priced := by decide
  counted := by decide
  valued := ⟨⟨900000000000000000000000⟩, by decide +kernel⟩
  owed := ⟨⟨450000000006000000000000⟩, by decide +kernel⟩
  slipping := by decide
  swapped := by decide +kernel
  within := by decide +kernel

theorem sizes_within_ninety_half :
    sampleLeverage.SizesWithin 2 1 sampleLeverage.Coverable :=
  sizes_within_ninety sampleLeverage sampleLeverage_usable

/-- A withdrawal of all that there is room for leaves an LTV an atomic over 90%. -/
theorem not_sizes_within_ninety :
    ¬ ∀ p : Leverage, p.Usable → p.SizesWithin 0 0 True := by
  intro h
  have hpast := (h sampleLeverage sampleLeverage_usable).withdraws true 399999999993333334
    ⟨397999999993366667330000⟩ (by decide +kernel)
  exact absurd hpast (by decide +kernel)

end Membrane.StableEarn
