import Membrane.LiqQueue.Slots

/-!
# What the calculations of a bid give

`calculate_remaining_bid` and `calculate_liquidated_collateral` as numbers: the first is
the bid's share of the slot by the product, the second its share of what the sums have
gained since its snapshot, each split into a whole part and a residue.
-/

namespace Membrane.LiqQueue

open Outcome

/-- The sums of one slot, by epoch and scale. -/
abbrev SlotSums := Nat → Nat → Option Decimal256

/-- The sums that are stored for a premium of a queue. -/
def slotSums (sums : EpochScaleSums) (bidFor : String) (premium : Nat) : SlotSums :=
  fun epoch scale => readEpochScaleSum sums bidFor premium epoch scale

def Bid.remainingAtomics (bid : Bid) (slot : PremiumSlot) : Nat :=
  if slot.currentEpoch ≠ bid.epochSnapshot then 0
  else if slot.currentScale = bid.scaleSnapshot then
    bid.amount * slot.productSnapshot.atomics * Decimal256.fractional / bid.productSnapshot.atomics
  else if slot.currentScale = bid.scaleSnapshot + 1 then
    bid.amount * slot.productSnapshot.atomics * Decimal256.fractional /
      bid.productSnapshot.atomics / 1000000000
  else 0

def Bid.gained (bid : Bid) (sums : SlotSums) : Nat :=
  let reference := (sums bid.epochSnapshot bid.scaleSnapshot).getD Decimal256.zero
  if reference.isZero ∨ reference < bid.sumSnapshot then 0
  else (reference.atomics - bid.sumSnapshot.atomics) +
    (secondPortion (sums bid.epochSnapshot (bid.scaleSnapshot + 1)) reference).atomics

def Bid.liquidatedAtomics (bid : Bid) (sums : SlotSums) : Nat :=
  bid.amount * bid.gained sums * Decimal256.fractional / bid.productSnapshot.atomics

theorem splitResidue_ok {dec : Decimal256} (fits : dec.atomics < Uint256.limit) :
    splitResidue dec =
      .ok (dec.atomics / Decimal256.fractional, ⟨dec.atomics % Decimal256.fractional⟩) := by
  have hdiv := Nat.div_mul_le_self dec.atomics Decimal256.fractional
  have hwhole : (Decimal256.fromUint256 (dec.atomics / Decimal256.fractional) :
      Outcome StdError Decimal256) =
      .ok ⟨dec.atomics / Decimal256.fractional * Decimal256.fractional⟩ := by
    rw [Decimal256.fromUint256_eq_ok]
    exact ⟨Nat.lt_of_le_of_lt hdiv fits, rfl⟩
  have hle : ¬ dec < ⟨dec.atomics / Decimal256.fractional * Decimal256.fractional⟩ := by
    rw [Decimal256.lt_def]
    exact Nat.not_lt.mpr hdiv
  simp only [splitResidue, bind_eq_ok]
  refine ⟨_, Decimal256.mulUint_one fits, _, hwhole, ?_⟩
  rw [if_neg hle]
  simp only [bind_eq_ok, pure_eq_ok, Decimal256.sub_eq_ok]
  refine ⟨_, ⟨hdiv, rfl⟩, ?_⟩
  rw [Nat.mod_eq_sub_div_mul]

theorem splitResidue_eq {dec : Decimal256} {whole : Nat} {residue : Decimal256}
    (done : splitResidue dec = .ok (whole, residue)) :
    whole * Decimal256.fractional + residue.atomics = dec.atomics := by
  simp only [splitResidue, bind_eq_ok, Decimal256.fromUint256_eq_ok] at done
  obtain ⟨whole', hwhole, _, ⟨-, rfl⟩, hrest⟩ := done
  obtain rfl : whole' = dec.atomics / Decimal256.fractional := by
    rw [Decimal256.mulUint_eq hwhole, Nat.one_mul]
  split at hrest
  case isTrue hlt =>
    exact absurd (Nat.div_mul_le_self dec.atomics Decimal256.fractional) (Nat.not_le.mpr hlt)
  case isFalse =>
    simp only [bind_eq_ok, pure_eq_ok, Decimal256.sub_eq_ok, Prod.mk.injEq] at hrest
    obtain ⟨_, ⟨hle, rfl⟩, rfl, rfl⟩ := hrest
    exact Nat.add_sub_cancel' hle

private theorem whole_mul_div (n m : Nat) :
    n * Decimal256.fractional * m / Decimal256.fractional = n * m := by
  rw [Nat.mul_right_comm]
  exact Nat.mul_div_cancel _ Decimal256.fractional_pos

@[simp]
theorem checkedSubUint128_eq_ok {a b c : Nat} :
    checkedSubUint128 a b = .ok c ↔ b ≤ a ∧ a - b = c := by
  simp [checkedSubUint128]

theorem calculateRemainingBid_eq {bid : Bid} {slot : PremiumSlot} {remaining : Nat}
    {residue : Decimal256} (done : calculateRemainingBid bid slot = .ok (remaining, residue)) :
    bid.scaleSnapshot ≤ slot.currentScale ∧ bid.epochSnapshot ≤ slot.currentEpoch ∧
      remaining * Decimal256.fractional + residue.atomics = bid.remainingAtomics slot := by
  simp only [calculateRemainingBid, bind_eq_ok, checkedSubUint128_eq_ok] at done
  obtain ⟨_, ⟨hscale, rfl⟩, _, ⟨hepoch, rfl⟩, dec, hdec, hsplit⟩ := done
  refine ⟨hscale, hepoch, ?_⟩
  rw [splitResidue_eq hsplit]
  unfold Bid.remainingAtomics
  split at hdec
  case isTrue hdiff =>
    obtain rfl : Decimal256.zero = dec := by simpa using hdec
    rw [if_pos (by omega)]
    rfl
  case isFalse hsame =>
    rw [if_neg (by omega)]
    split at hdec
    case isTrue hdiff =>
      simp only [bind_eq_ok, pure_eq_ok, Decimal256.fromUint256_eq_ok, Decimal256.mul_eq_ok,
        Decimal256.div_eq_ok] at hdec
      obtain ⟨_, ⟨-, rfl⟩, _, ⟨-, rfl⟩, _, ⟨-, -, rfl⟩, rfl⟩ := hdec
      by_cases hzero : slot.currentScale - bid.scaleSnapshot = 0
      · rw [if_pos hzero, if_pos (by omega), whole_mul_div]
      · rw [if_neg hzero, if_neg (by omega), if_pos (by omega), whole_mul_div]
    case isFalse hdiff =>
      obtain rfl : Decimal256.zero = dec := by simpa using hdec
      rw [if_neg (by omega), if_neg (by omega)]
      rfl

theorem calculateRemainingBid_ok {bid : Bid} {slot : PremiumSlot}
    (scale : bid.scaleSnapshot ≤ slot.currentScale) (epoch : bid.epochSnapshot ≤ slot.currentEpoch)
    (product : bid.productSnapshot.atomics ≠ 0)
    (fits : bid.amount * slot.productSnapshot.atomics * Decimal256.fractional < Uint256.limit)
    (fitsAmount : bid.amount * Decimal256.fractional < Uint256.limit) :
    ∃ remaining residue, calculateRemainingBid bid slot = .ok (remaining, residue) := by
  have hdiv : bid.amount * slot.productSnapshot.atomics * Decimal256.fractional /
      bid.productSnapshot.atomics < Uint256.limit :=
    Nat.lt_of_le_of_lt (Nat.div_le_self _ _) fits
  have hzero : Decimal256.zero.atomics < Uint256.limit := by decide
  simp only [calculateRemainingBid, bind_eq_ok, checkedSubUint128_eq_ok]
  by_cases hepoch : slot.currentEpoch - bid.epochSnapshot = 0
  · by_cases hscale : slot.currentScale - bid.scaleSnapshot = 0 ∨
        slot.currentScale - bid.scaleSnapshot = 1
    · have hdec : ∃ dec : Decimal256, dec.atomics < Uint256.limit ∧
          (do
            let amount ← Decimal256.fromUint256 bid.amount
            let scaled ← Decimal256.div (← Decimal256.mul amount slot.productSnapshot)
              bid.productSnapshot
            pure (if slot.currentScale - bid.scaleSnapshot = 0 then scaled
              else ⟨scaled.atomics / 1000000000⟩) : Outcome StdError Decimal256) = .ok dec := by
        simp only [bind_eq_ok, pure_eq_ok, Decimal256.fromUint256_eq_ok, Decimal256.mul_eq_ok,
          Decimal256.div_eq_ok]
        refine ⟨_, ?_, _, ⟨fitsAmount, rfl⟩, _, ⟨?_, rfl⟩, _, ⟨product, ?_, rfl⟩, rfl⟩
        · rw [whole_mul_div]
          split
          · exact hdiv
          · exact Nat.lt_of_le_of_lt (Nat.div_le_self _ _) hdiv
        · rw [Nat.mul_right_comm]
          exact fits
        · rw [whole_mul_div]
          exact fits
      obtain ⟨dec, hfits, hdec⟩ := hdec
      refine ⟨_, _, _, ⟨scale, rfl⟩, _, ⟨epoch, rfl⟩, dec, ?_, splitResidue_ok hfits⟩
      rw [if_neg (by omega), if_pos hscale]
      exact hdec
    · refine ⟨_, _, _, ⟨scale, rfl⟩, _, ⟨epoch, rfl⟩, _, ?_, splitResidue_ok hzero⟩
      rw [if_neg (by omega), if_neg hscale]
      rfl
  · refine ⟨_, _, _, ⟨scale, rfl⟩, _, ⟨epoch, rfl⟩, _, ?_, splitResidue_ok hzero⟩
    rw [if_pos hepoch]
    rfl

theorem calculateLiquidatedCollateral_eq {sums : EpochScaleSums} {bid : Bid} {bidFor : String}
    {liquidated : Nat} {residue : Decimal256}
    (done : calculateLiquidatedCollateral sums bid bidFor = .ok (liquidated, residue)) :
    liquidated * Decimal256.fractional + residue.atomics =
      bid.liquidatedAtomics (slotSums sums bidFor bid.liqPremium) := by
  unfold Bid.liquidatedAtomics Bid.gained slotSums
  simp only [calculateLiquidatedCollateral] at done
  split at done
  case isTrue hnothing =>
    obtain ⟨rfl, rfl⟩ : 0 = liquidated ∧ Decimal256.zero = residue := by simpa using done
    rw [if_pos hnothing]
    simp [Decimal256.zero]
  case isFalse hsome =>
    simp only [bind_eq_ok, Decimal256.sub_eq_ok, Uint128.add_eq_ok, Decimal256.fromUint256_eq_ok,
      Decimal256.add_eq_ok, Decimal256.mul_eq_ok, Decimal256.div_eq_ok] at done
    obtain ⟨_, ⟨-, rfl⟩, _, ⟨-, rfl⟩, _, ⟨-, rfl⟩, _, ⟨-, rfl⟩, _, ⟨-, rfl⟩, _, ⟨-, -, rfl⟩,
      hsplit⟩ := done
    rw [splitResidue_eq hsplit, if_neg hsome, whole_mul_div]

theorem calculateLiquidatedCollateral_ok {sums : EpochScaleSums} {bid : Bid} {bidFor : String}
    (product : bid.productSnapshot.atomics ≠ 0) (scale : bid.scaleSnapshot + 1 < Uint128.limit)
    (fitsAmount : bid.amount * Decimal256.fractional < Uint256.limit)
    (fitsGained : bid.gained (slotSums sums bidFor bid.liqPremium) < Uint256.limit)
    (fits : bid.amount * bid.gained (slotSums sums bidFor bid.liqPremium) *
      Decimal256.fractional < Uint256.limit) :
    ∃ liquidated residue,
      calculateLiquidatedCollateral sums bid bidFor = .ok (liquidated, residue) := by
  unfold Bid.gained slotSums at fitsGained fits
  simp only [calculateLiquidatedCollateral]
  by_cases hnothing : ((readEpochScaleSum sums bidFor bid.liqPremium bid.epochSnapshot
      bid.scaleSnapshot).getD Decimal256.zero).isZero = true ∨
      (readEpochScaleSum sums bidFor bid.liqPremium bid.epochSnapshot
        bid.scaleSnapshot).getD Decimal256.zero < bid.sumSnapshot
  · rw [if_pos hnothing]
    exact ⟨0, Decimal256.zero, rfl⟩
  · rw [if_neg hnothing] at fitsGained fits ⊢
    simp only [bind_eq_ok, Decimal256.sub_eq_ok, Uint128.add_eq_ok, Decimal256.fromUint256_eq_ok,
      Decimal256.add_eq_ok, Decimal256.mul_eq_ok, Decimal256.div_eq_ok]
    have hle : bid.sumSnapshot ≤ (readEpochScaleSum sums bidFor bid.liqPremium bid.epochSnapshot
        bid.scaleSnapshot).getD Decimal256.zero := by
      rw [Decimal256.le_def]
      rw [Decimal256.lt_def] at hnothing
      omega
    refine ⟨_, _, _, ⟨hle, rfl⟩, _, ⟨scale, rfl⟩, _, ⟨fitsAmount, rfl⟩, _, ⟨fitsGained, rfl⟩, _,
      ⟨?_, rfl⟩, _, ⟨product, ?_, rfl⟩, splitResidue_ok ?_⟩
    · rw [Nat.mul_right_comm]
      exact fits
    · rw [whole_mul_div]
      exact fits
    · rw [whole_mul_div]
      exact Nat.lt_of_le_of_lt (Nat.div_le_self _ _) fits

end Membrane.LiqQueue
