import Membrane.Cdp.Proofs.Conservation
import Membrane.Prices

/-!
# What a liquidation leaves of a debt

A liquidation repays the part of the loan that is above the borrow limit, at least the
minimum debt, and the whole loan where the minimum would leave less than a minimum. Only a
repayment raised to the minimum is tested for what it leaves: a larger part may leave
dust. Never is more repaid than is owed.
-/

namespace Membrane

open Outcome

namespace Cdp

/-! ## The value repaid -/

def minimumValue (config : Config) : Nat := config.debtMinimum * Decimal.fractional

def insolventValue (currentLTV borrowLTV : Decimal) (loanValue : Nat) : Nat :=
  (currentLTV.atomics - borrowLTV.atomics) * Decimal.fractional / currentLTV.atomics * loanValue /
    Decimal.fractional

def repaidValue (config : Config) (currentLTV borrowLTV : Decimal) (loanValue : Nat) : Nat :=
  if minimumValue config ≤ insolventValue currentLTV borrowLTV loanValue then
    insolventValue currentLTV borrowLTV loanValue
  else if 2 * minimumValue config ≤ loanValue then minimumValue config
  else loanValue

section

variable {config : Config} {basket : Basket} {target : Position}
  {currentLTV borrowLTV totalValue loanValue : Decimal}

theorem insolventShare_le (currentLTV borrowLTV : Decimal) :
    (currentLTV.atomics - borrowLTV.atomics) * Decimal.fractional / currentLTV.atomics ≤
      Decimal.fractional := by
  apply Nat.div_le_of_le_mul
  exact Nat.mul_le_mul_right _ (Nat.sub_le _ _)

theorem insolventValue_le (currentLTV borrowLTV : Decimal) (loan : Nat) :
    insolventValue currentLTV borrowLTV loan ≤ loan := by
  have hshare := Nat.mul_le_mul_right loan (insolventShare_le currentLTV borrowLTV)
  have hpositive : 0 < Decimal.fractional := by decide
  calc insolventValue currentLTV borrowLTV loan
      ≤ Decimal.fractional * loan / Decimal.fractional := Nat.div_le_div_right hshare
    _ = loan := Nat.mul_div_cancel_left _ hpositive

theorem repaidValue_le (config : Config) (currentLTV borrowLTV : Decimal) (loan : Nat) :
    repaidValue config currentLTV borrowLTV loan ≤ loan := by
  unfold repaidValue
  by_cases hpart : minimumValue config ≤ insolventValue currentLTV borrowLTV loan
  · rw [if_pos hpart]
    exact insolventValue_le _ _ loan
  · rw [if_neg hpart]
    by_cases hleast : 2 * minimumValue config ≤ loan
    · rw [if_pos hleast]
      omega
    · rw [if_neg hleast]

theorem insolventValue_eq (liquidatable : borrowLTV < currentLTV) (below : currentLTV < Decimal.one)
    (fits : loanValue.atomics < Uint128.limit) :
    (if Decimal.one ≤ currentLTV then pure totalValue
    else do
      let excess ← decimalSubtraction currentLTV borrowLTV
      decimalMultiplication (← decimalDivision excess currentLTV) loanValue) =
      (.ok ⟨insolventValue currentLTV borrowLTV loanValue.atomics⟩ : Outcome StdError Decimal) := by
  have hpositive : 0 < currentLTV.atomics := Nat.lt_of_le_of_lt (Nat.zero_le _) liquidatable
  have hshare := insolventShare_le currentLTV borrowLTV
  have hsmall : Decimal.fractional < Uint128.limit := by decide
  have hbelow : ¬ Decimal.one ≤ currentLTV := Nat.not_le.mpr below
  rw [if_neg hbelow]
  simp only [bind_eq_ok, decimalSubtraction_eq_ok, decimalDivision_eq_ok,
    decimalMultiplication_eq_ok]
  refine ⟨_, ⟨Nat.le_of_lt liquidatable, rfl⟩, _,
    ⟨Nat.pos_iff_ne_zero.mp hpositive, Nat.lt_of_le_of_lt hshare hsmall, rfl⟩, ?_, rfl⟩
  exact Nat.lt_of_le_of_lt (insolventValue_le currentLTV borrowLTV _) fits

theorem repayValue_eq_ok (liquidatable : borrowLTV < currentLTV) (below : currentLTV < Decimal.one)
    (fits : loanValue.atomics < Uint128.limit) {value : Decimal} :
    repayValue config currentLTV borrowLTV totalValue loanValue = .ok value ↔
      minimumValue config < Uint128.limit ∧
        value = ⟨repaidValue config currentLTV borrowLTV loanValue.atomics⟩ := by
  have hminimum : ∀ minimum : Decimal,
      (Decimal.fromRatio config.debtMinimum 1 : Result Decimal) = .ok minimum ↔
        minimumValue config < Uint128.limit ∧ minimum = ⟨minimumValue config⟩ := by
    intro minimum
    rw [Decimal.fromRatio_eq_ok, Nat.div_one]
    exact and_iff_right Nat.one_ne_zero
  have hchoice : ∀ value : Decimal,
      (if (⟨insolventValue currentLTV borrowLTV loanValue.atomics⟩ : Decimal) <
          ⟨minimumValue config⟩ then
        if loanValue < ⟨minimumValue config⟩ then pure loanValue
        else do
          let left ← Decimal.sub loanValue ⟨minimumValue config⟩
          pure (if ⟨minimumValue config⟩ ≤ left then ⟨minimumValue config⟩ else loanValue)
      else pure ⟨insolventValue currentLTV borrowLTV loanValue.atomics⟩ : Result Decimal) =
        .ok value ↔
        value = ⟨repaidValue config currentLTV borrowLTV loanValue.atomics⟩ := by
    intro value
    unfold repaidValue
    simp only [Decimal.lt_def]
    by_cases hpart : minimumValue config ≤ insolventValue currentLTV borrowLTV loanValue.atomics
    · rw [if_neg (Nat.not_lt.mpr hpart), if_pos hpart, pure_eq_ok, eq_comm]
    · rw [if_pos (Nat.not_le.mp hpart), if_neg hpart]
      by_cases hsmall : loanValue.atomics < minimumValue config
      · have hwhole : ¬ 2 * minimumValue config ≤ loanValue.atomics := by omega
        rw [if_pos hsmall, if_neg hwhole, pure_eq_ok, eq_comm]
      · rw [if_neg hsmall]
        simp only [bind_eq_ok, Decimal.sub_eq_ok, Decimal.le_def, pure_eq_ok]
        have hiff : minimumValue config ≤ loanValue.atomics - minimumValue config ↔
            2 * minimumValue config ≤ loanValue.atomics := by omega
        constructor
        · rintro ⟨_, ⟨-, rfl⟩, rfl⟩
          simp only [hiff]
          split
          · rfl
          · rfl
        · rintro rfl
          refine ⟨_, ⟨Nat.not_lt.mp hsmall, rfl⟩, ?_⟩
          simp only [hiff]
          split
          · rfl
          · rfl
  simp only [repayValue, insolventValue_eq liquidatable below fits]
  constructor
  · intro done
    obtain ⟨_, hvalue, hrest⟩ := bind_eq_ok.mp done
    cases hvalue
    obtain ⟨minimum, hmin, hrest⟩ := bind_eq_ok.mp hrest
    obtain ⟨hfits, rfl⟩ := (hminimum minimum).mp hmin
    exact ⟨hfits, (hchoice value).mp hrest⟩
  · rintro ⟨hfits, hvalue⟩
    exact bind_eq_ok.mpr ⟨_, rfl, bind_eq_ok.mpr
      ⟨_, (hminimum _).mpr ⟨hfits, rfl⟩, (hchoice value).mpr hvalue⟩⟩

/-! ## The amount repaid -/

def Convertible (creditPrice : PriceResponse) (value : Nat) : Prop :=
  ∃ amount, creditPrice.getAmount ⟨value⟩ = .ok amount ∧ amount ≠ 0 ∧
    amount * Decimal.fractional < Uint128.limit

theorem Convertible.priced {creditPrice : PriceResponse} {value : Nat}
    (convertible : Convertible creditPrice value) : creditPrice.price.atomics ≠ 0 := by
  obtain ⟨amount, hamount, -⟩ := convertible
  exact (PriceResponse.getAmount_eq_ok.mp hamount).1

def FineLeftover (config : Config) (creditPrice : PriceResponse) (left : Nat) : Prop :=
  left ≤ 1 ∨ minimumValue config ≤ creditPrice.valueOf left

/-- The call returns an amount that is at most the debt and leaves no dust. -/
def RepaysWithoutDust (config : Config) (basket : Basket) (target : Position)
    (currentLTV borrowLTV totalValue : Decimal) : Prop :=
  ∃ value amount, getRepayQuantities config basket target currentLTV borrowLTV totalValue =
      .ok (value, ⟨amount * Decimal.fractional⟩) ∧ amount ≤ target.creditAmount ∧
    FineLeftover config basket.creditPrice (target.creditAmount - amount)

theorem amountOf_le {price : PriceResponse} {debt value : Nat} (priced : price.price.atomics ≠ 0)
    (within : value ≤ price.valueOf debt) : price.amountOf value ≤ debt :=
  truncAmount_truncValue_le debt (by decide) (Nat.pos_of_ne_zero priced) within

theorem getRepayQuantities_eq_ok
    (valued : basket.creditPrice.getValue target.creditAmount = .ok loanValue)
    (liquidatable : borrowLTV < currentLTV) (below : currentLTV < Decimal.one)
    {out : Decimal × Decimal} :
    getRepayQuantities config basket target currentLTV borrowLTV totalValue = .ok out ↔
      minimumValue config < Uint128.limit ∧
        Convertible basket.creditPrice (repaidValue config currentLTV borrowLTV loanValue.atomics) ∧
        out = (⟨repaidValue config currentLTV borrowLTV loanValue.atomics⟩,
          ⟨basket.creditPrice.amountOf (repaidValue config currentLTV borrowLTV loanValue.atomics) *
            Decimal.fractional⟩) := by
  obtain ⟨_, _, hfits, hloan⟩ := PriceResponse.getValue_eq_ok.mp valued
  have hloanValue : loanValue.atomics = basket.creditPrice.valueOf target.creditAmount := by
    rw [← hloan]
  rw [← hloanValue] at hfits
  have hwithin := repaidValue_le config currentLTV borrowLTV loanValue.atomics
  simp only [getRepayQuantities, bind_eq_ok, liftStd_eq_ok, guardErr_eq_ok, pure_eq_ok,
    Decimal.fromRatio_eq_ok, Nat.div_one]
  constructor
  · rintro ⟨loanValue', hloan', value, hvalue, amount, hamount, _, hpositive, _, -, _,
      ⟨-, hrepay, rfl⟩, rfl⟩
    cases valued.symm.trans hloan'
    obtain ⟨hminimum, rfl⟩ := (repayValue_eq_ok liquidatable below hfits).mp hvalue
    have hamountOf := (PriceResponse.getAmount_eq_ok.mp hamount).2.2.2.2
    refine ⟨hminimum, ⟨amount, hamount, hpositive, hrepay⟩, ?_⟩
    rw [← hamountOf]
  · rintro ⟨hminimum, ⟨amount, hamount, hpositive, hrepay⟩, rfl⟩
    obtain ⟨hpriced, -, -, -, hamountOf⟩ := PriceResponse.getAmount_eq_ok.mp hamount
    dsimp only at hamountOf
    have hle : amount ≤ target.creditAmount := by
      rw [← hamountOf]
      exact amountOf_le hpriced (hloanValue ▸ hwithin)
    rw [hamountOf]
    exact ⟨loanValue, valued, _, (repayValue_eq_ok liquidatable below hfits).mpr ⟨hminimum, rfl⟩,
      amount, hamount, ⟨⟩, hpositive, ⟨⟩, Nat.not_lt.mpr hle, _,
        ⟨Nat.one_ne_zero, hrepay, rfl⟩, rfl⟩

theorem valueOf_leftover {price : PriceResponse} {debt value : Nat}
    (priced : price.price.atomics ≠ 0)
    (within : value ≤ price.valueOf debt) :
    price.valueOf debt ≤ price.valueOf (debt - price.amountOf value) + value := by
  have hback : debt - price.amountOf value + price.amountOf value = debt :=
    Nat.sub_add_cancel (amountOf_le priced within)
  have hadd : price.valueOf (debt - price.amountOf value + price.amountOf value) ≤
      price.valueOf (debt - price.amountOf value) + value :=
    truncValue_add_truncAmount_le _ value (by decide) PriceResponse.unit_pos price.unit_aligned
  rw [hback] at hadd
  exact hadd

/-- A value pays for a unit of debt at least, and for so little that it fits as a decimal. -/
structure Repayable (creditPrice : PriceResponse) (value : Nat) : Prop where
  priced : creditPrice.price.atomics ≠ 0
  some : creditPrice.valueUp 1 ≤ value
  fits : value < creditPrice.valueUp (Uint128.limit ⌈/⌉ Decimal.fractional)

/-- A value pays for all of a debt but one unit, or for so little of it that what is left is
    worth the minimum. -/
def LeavesNoDust (creditPrice : PriceResponse) (minimum debt value : Nat) : Prop :=
  creditPrice.valueUp (debt - 1) ≤ value ∨ creditPrice.amountUp minimum ≤ debt ∧
    value < creditPrice.valueUp (debt - creditPrice.amountUp minimum + 1)

theorem convertible_iff {price : PriceResponse} {debt value : Nat} {loanValue : Decimal}
    (valued : price.getValue debt = .ok loanValue) (within : value ≤ price.valueOf debt) :
    Convertible price value ↔ Repayable price value := by
  obtain ⟨hdecimals, hscaled, -, -⟩ := PriceResponse.getValue_eq_ok.mp valued
  have hunit : 0 < Decimal.fractional := by decide
  have hfits :
      price.price.atomics ≠ 0 → (price.amountOf value * Decimal.fractional < Uint128.limit ↔
      value < price.valueUp (Uint128.limit ⌈/⌉ Decimal.fractional)) := by
    intro hpriced
    rw [← not_le, ← not_le, ← PriceResponse.le_amountOf_iff hpriced, ceilDiv_le_iff_le_mul hunit,
      Nat.mul_comm]
  constructor
  · rintro ⟨amount, hamount, hsome, hlimit⟩
    obtain ⟨hpriced, -, -, -, rfl⟩ := PriceResponse.getAmount_eq_ok.mp hamount
    exact ⟨hpriced, (PriceResponse.le_amountOf_iff hpriced).mp (Nat.one_le_iff_ne_zero.mpr hsome),
      (hfits hpriced).mp hlimit⟩
  · rintro ⟨hpriced, hsome, hlimit⟩
    have hamount := (hfits hpriced).mpr hlimit
    have hparts : value * Decimal.fractional ≤ price.price.atomics *
        (debt * Decimal.fractional / price.unit) :=
      Nat.le_trans (Nat.mul_le_mul_right _ within) (Nat.div_mul_le_self _ _)
    refine ⟨_, PriceResponse.getAmount_eq_ok.mpr ⟨hpriced, ?_, hdecimals, ?_, rfl⟩, ?_, hamount⟩
    · exact Nat.lt_of_le_of_lt (Nat.div_le_of_le_mul hparts) hscaled
    · exact Nat.lt_of_le_of_lt (Nat.le_mul_of_pos_right _ hunit) hamount
    · exact Nat.one_le_iff_ne_zero.mp ((PriceResponse.le_amountOf_iff hpriced).mpr hsome)

theorem fineLeftover_iff {price : PriceResponse} {debt value : Nat}
    (priced : price.price.atomics ≠ 0) (within : value ≤ price.valueOf debt) :
    FineLeftover config price (debt - price.amountOf value) ↔
      LeavesNoDust price (minimumValue config) debt value := by
  have hle := amountOf_le priced within
  unfold FineLeftover LeavesNoDust
  rw [PriceResponse.le_valueOf_iff priced, ← PriceResponse.le_amountOf_iff priced, ← not_le,
    ← PriceResponse.le_amountOf_iff priced]
  omega

theorem repayValue_iff {price : PriceResponse} {debt value : Nat} {loanValue : Decimal}
    (valued : price.getValue debt = .ok loanValue) (within : value ≤ price.valueOf debt) :
    Convertible price value ∧ FineLeftover config price (debt - price.amountOf value) ↔
      Repayable price value ∧ LeavesNoDust price (minimumValue config) debt value := by
  rw [convertible_iff valued within]
  refine and_congr_right fun repayable => ?_
  exact fineLeftover_iff repayable.priced within

/-- What the loan-to-values, the value of the loan and the minimum debt come to is repayable,
    and leaves no dust: the insolvent part where it reaches the minimum, the minimum where two
    of them are owed, else the whole loan. -/
structure RepaysWell (config : Config) (creditPrice : PriceResponse) (debt : Nat)
    (currentLTV borrowLTV loanValue : Decimal) : Prop where
  minimum : minimumValue config < Uint128.limit
  part : minimumValue config ≤ insolventValue currentLTV borrowLTV loanValue.atomics →
    Repayable creditPrice (insolventValue currentLTV borrowLTV loanValue.atomics) ∧
      LeavesNoDust creditPrice (minimumValue config) debt
        (insolventValue currentLTV borrowLTV loanValue.atomics)
  least : insolventValue currentLTV borrowLTV loanValue.atomics < minimumValue config →
    2 * minimumValue config ≤ loanValue.atomics → Repayable creditPrice (minimumValue config)
  whole : insolventValue currentLTV borrowLTV loanValue.atomics < minimumValue config →
    loanValue.atomics < 2 * minimumValue config →
      Repayable creditPrice loanValue.atomics ∧
        LeavesNoDust creditPrice (minimumValue config) debt loanValue.atomics

theorem liftStd_std {α : Type} {x : Outcome StdError α} {e : ContractError}
    (failed : liftStd x = .error (.err e)) : ∃ error, e = .std error := by
  rcases x with (error | _) | _
  · cases failed
    exact ⟨error, rfl⟩
  · cases failed
  · cases failed

theorem repayValue_errorless (liquidatable : borrowLTV < currentLTV)
    (below : currentLTV < Decimal.one) (fits : loanValue.atomics < Uint128.limit) :
    Errorless (repayValue config currentLTV borrowLTV totalValue loanValue) := by
  simp only [repayValue, insolventValue_eq liquidatable below fits]
  apply Errorless.bind (Errorless.pure _)
  intro value
  apply Errorless.bind (Errorless.ite .abort (.unwrap _))
  intro minimum
  apply Errorless.ite
  · apply Errorless.ite (.pure _)
    exact .bind (.ite (.pure _) .abort) fun left => .pure _
  · exact .pure _

theorem getRepayQuantities_not_faulty
    (valued : basket.creditPrice.getValue target.creditAmount = .ok loanValue)
    (liquidatable : borrowLTV < currentLTV) (below : currentLTV < Decimal.one) (msg : String) :
    getRepayQuantities config basket target currentLTV borrowLTV totalValue ≠
      .error (.err (.faultyCalc msg)) := by
  intro failed
  obtain ⟨_, _, hfits, hloan⟩ := PriceResponse.getValue_eq_ok.mp valued
  have hloanValue : loanValue.atomics = basket.creditPrice.valueOf target.creditAmount := by
    rw [← hloan]
  rw [← hloanValue] at hfits
  have hnotStd : ¬ ∃ error, ContractError.faultyCalc msg = .std error := by
    rintro ⟨_, h⟩
    cases h
  rw [getRepayQuantities] at failed
  rcases bind_eq_err.mp failed with h | ⟨loanValue', hloan', failed⟩
  · exact hnotStd (liftStd_std h)
  cases valued.symm.trans (liftStd_eq_ok.mp hloan')
  rcases bind_eq_err.mp failed with h | ⟨value, hvalue, failed⟩
  · exact repayValue_errorless liquidatable below hfits _ h
  obtain ⟨-, rfl⟩ := (repayValue_eq_ok liquidatable below hfits).mp hvalue
  rcases bind_eq_err.mp failed with h | ⟨amount, hamount, failed⟩
  · exact hnotStd (liftStd_std h)
  rcases bind_eq_err.mp failed with h | ⟨_, -, failed⟩
  · cases (guardErr_eq_err.mp h).2
  rcases bind_eq_err.mp failed with h | ⟨_, -, failed⟩
  · -- the amount of a value within the loan's is within the debt
    obtain ⟨hpriced, -, -, -, hamountOf⟩ :=
      PriceResponse.getAmount_eq_ok.mp (liftStd_eq_ok.mp hamount)
    dsimp only at hamountOf
    have hwithin := repaidValue_le config currentLTV borrowLTV loanValue.atomics
    rw [hloanValue] at hwithin hamountOf
    have hle := amountOf_le hpriced hwithin
    have hlt := (guardErr_eq_err.mp h).1
    omega
  · rcases bind_eq_err.mp failed with h | ⟨_, -, failed⟩
    · have herrorless : Errorless (Decimal.fromRatio amount 1 : Result Decimal) :=
        .ite .abort (.unwrap _)
      exact herrorless _ h
    · exact absurd failed (by simp [pure_eq_err])

/-- A liquidation below full loan-to-value repays an amount that is at most the debt and
    leaves no dust exactly where it repays well, and never asks for more than the debt. -/
theorem repays_without_dust_iff
    (valued : basket.creditPrice.getValue target.creditAmount = .ok loanValue)
    (liquidatable : borrowLTV < currentLTV) (below : currentLTV < Decimal.one) :
    (RepaysWithoutDust config basket target currentLTV borrowLTV totalValue ↔
      RepaysWell config basket.creditPrice target.creditAmount currentLTV borrowLTV loanValue) ∧
    ∀ msg, getRepayQuantities config basket target currentLTV borrowLTV totalValue ≠
      .error (.err (.faultyCalc msg)) := by
  refine ⟨?_, getRepayQuantities_not_faulty valued liquidatable below⟩
  obtain ⟨_, _, _, hloan⟩ := PriceResponse.getValue_eq_ok.mp valued
  have hloanValue : loanValue.atomics = basket.creditPrice.valueOf target.creditAmount := by
    rw [← hloan]
  have hok : RepaysWithoutDust config basket target currentLTV borrowLTV totalValue ↔
      minimumValue config < Uint128.limit ∧
        Convertible basket.creditPrice (repaidValue config currentLTV borrowLTV loanValue.atomics) ∧
          FineLeftover config basket.creditPrice (target.creditAmount -
            basket.creditPrice.amountOf
              (repaidValue config currentLTV borrowLTV loanValue.atomics)) := by
    constructor
    · rintro ⟨value, amount, done, -, hfine⟩
      obtain ⟨hminimum, hconvertible, hout⟩ :=
        (getRepayQuantities_eq_ok valued liquidatable below).mp done
      have hamount := congrArg (fun out : Decimal × Decimal => out.2.atomics) hout
      rw [Nat.eq_of_mul_eq_mul_right (by decide) hamount] at hfine
      exact ⟨hminimum, hconvertible, hfine⟩
    · rintro ⟨hminimum, hconvertible, hfine⟩
      have hwithin := repaidValue_le config currentLTV borrowLTV loanValue.atomics
      rw [hloanValue] at hwithin
      refine ⟨_, _, (getRepayQuantities_eq_ok valued liquidatable below).mpr
        ⟨hminimum, hconvertible, rfl⟩, ?_, hfine⟩
      rw [hloanValue]
      exact amountOf_le hconvertible.priced hwithin
  have hwithin := repaidValue_le config currentLTV borrowLTV loanValue.atomics
  rw [hloanValue] at hwithin
  rw [hok, repayValue_iff valued (hloanValue ▸ hwithin)]
  unfold repaidValue
  by_cases hpart : minimumValue config ≤ insolventValue currentLTV borrowLTV loanValue.atomics
  · rw [if_pos hpart]
    constructor
    · rintro ⟨hminimum, hrepaid⟩
      exact ⟨hminimum, fun _ => hrepaid, fun h => absurd hpart (Nat.not_le.mpr h),
        fun h => absurd hpart (Nat.not_le.mpr h)⟩
    · intro well
      exact ⟨well.minimum, well.part hpart⟩
  · rw [if_neg hpart]
    have hsmall := Nat.not_le.mp hpart
    by_cases hleast : 2 * minimumValue config ≤ loanValue.atomics
    · rw [if_pos hleast]
      constructor
      · rintro ⟨hminimum, hrepayable, -⟩
        exact ⟨hminimum, fun h => absurd h hpart, fun _ _ => hrepayable,
          fun _ h => absurd hleast (Nat.not_le.mpr h)⟩
      · intro well
        have hrepayable := well.least hsmall hleast
        have hleast' : minimumValue config ≤ basket.creditPrice.valueOf target.creditAmount := by
          omega
        have hleft := valueOf_leftover hrepayable.priced hleast'
        exact ⟨well.minimum, hrepayable, (fineLeftover_iff hrepayable.priced hleast').mp
          (.inr (by omega))⟩
    · rw [if_neg hleast]
      constructor
      · rintro ⟨hminimum, hrepaid⟩
        exact ⟨hminimum, fun h => absurd h hpart, fun _ h => absurd h hleast, fun _ _ => hrepaid⟩
      · intro well
        exact ⟨well.minimum, well.whole hsmall (Nat.not_le.mp hleast)⟩

end

/-! ## A loan of 2,000 -/

private def thousandMinimum : Config := { sampleConfig with debtMinimum := 1000 }

private def twoThousand : Position := ⟨1, [], 2000000000⟩

/-- At 80% against a borrow limit of 50% the insolvent part is below the minimum, which is
    repaid instead and leaves as much. -/
theorem repays_without_dust_iff_minimum :
    (RepaysWithoutDust thousandMinimum sampleBasket twoThousand (Decimal.percent 80)
        (Decimal.percent 50) (Decimal.ofNat 2500) ↔
      RepaysWell thousandMinimum sampleBasket.creditPrice 2000000000 (Decimal.percent 80)
        (Decimal.percent 50) (Decimal.ofNat 2000)) ∧
    ∀ msg, getRepayQuantities thousandMinimum sampleBasket twoThousand (Decimal.percent 80)
      (Decimal.percent 50) (Decimal.ofNat 2500) ≠ .error (.err (.faultyCalc msg)) :=
  repays_without_dust_iff (by decide +kernel) (by decide) (by decide)

/-- At 80% against a borrow limit of 30% the insolvent part is 1,250, and the 750 left are
    below the minimum of 1,000. -/
theorem repays_with_dust :
    sampleBasket.creditPrice.getValue twoThousand.creditAmount = .ok (Decimal.ofNat 2000) ∧
      Decimal.percent 30 < Decimal.percent 80 ∧ Decimal.percent 80 < Decimal.one ∧
      ¬ RepaysWithoutDust thousandMinimum sampleBasket twoThousand (Decimal.percent 80)
        (Decimal.percent 30) (Decimal.ofNat 2500) := by
  have hvalued : sampleBasket.creditPrice.getValue twoThousand.creditAmount =
      .ok (Decimal.ofNat 2000) := by decide +kernel
  refine ⟨hvalued, by decide, by decide, ?_⟩
  rintro ⟨value, amount, done, -, hfine⟩
  have hresult : getRepayQuantities thousandMinimum sampleBasket twoThousand (Decimal.percent 80)
      (Decimal.percent 30) (Decimal.ofNat 2500) =
        .ok (Decimal.ofNat 1250, Decimal.ofNat 1250000000) := by decide +kernel
  rw [hresult] at done
  have hamount := congrArg (fun out : Decimal × Decimal => out.2.atomics) (Except.ok.inj done)
  rw [← Nat.eq_of_mul_eq_mul_right (by decide) hamount] at hfine
  rcases hfine with h | h
  · exact absurd h (by decide)
  · exact absurd h (by decide +kernel)

end Cdp

end Membrane
