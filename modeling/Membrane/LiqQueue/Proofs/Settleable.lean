import Mathlib.Algebra.Order.BigOperators.Group.List
import Membrane.LiqQueue.Proofs.Prices

/-!
# Bids that can be settled

What a bid has left and what it has liquidated can be calculated in every state, as long
as no slot is emptied while a bid in it was settled at a later scale, and no product is
rounded down to nothing.
-/

namespace Membrane.LiqQueue

open Outcome

structure Bid.Settleable (bid : Bid) (slot : PremiumSlot) : Prop where
  scale : bid.scaleSnapshot ≤ slot.currentScale
  product : bid.productSnapshot.atomics ≠ 0
  fits : bid.amount < Uint128.limit

structure PremiumSlot.Settleable (slot : PremiumSlot) : Prop where
  priced : slot.Priced
  product : slot.productSnapshot.atomics ≠ 0
  scale : slot.currentScale + 1 < Uint128.limit
  bids : ∀ bid ∈ slot.allBids, bid.Settleable slot

/-- What a slot repays leaves its bids behind: it does not empty the slot while a bid was
    settled at a scale above the first, it leaves a product, and the scales go on. -/
structure PoolFill.Leaves (slot : PremiumSlot) (fill : PoolFill) : Prop where
  empties : fill.required = slot.totalBidAmount → ∀ bid ∈ slot.allBids, bid.scaleSnapshot = 0
  product : fill.required ≠ slot.totalBidAmount →
    Decimal256.fractional ≤ slot.productSnapshot.atomics * 1000000000 *
      (Decimal256.fractional - fill.required * Decimal256.fractional / slot.totalBidAmount)
  scale : slot.currentScale + 2 < Uint128.limit

/-- A move whose liquidation leaves the bids of its slot behind. -/
def Move.Leaves (b : Book) : Move → Prop
  | .slot premium (.liquidate fill) =>
    ∀ slot, b.queue.findSlot premium = some slot → fill.Leaves slot
  | _ => True

theorem PremiumSlot.Spent.expense_eq_one {slot spent : PremiumSlot} {fill : PoolFill}
    (h : slot.Spent fill spent) :
    fill.required * Decimal256.fractional / slot.totalBidAmount = Decimal256.fractional ↔
      fill.required = slot.totalBidAmount := by
  have hpos : 0 < slot.totalBidAmount := Nat.pos_of_ne_zero h.nonzero
  have htotal := h.total
  constructor
  · intro heq
    have hle : Decimal256.fractional * slot.totalBidAmount ≤
        fill.required * Decimal256.fractional := by
      have hdiv := Nat.div_mul_le_self (fill.required * Decimal256.fractional) slot.totalBidAmount
      rwa [heq] at hdiv
    rw [Nat.mul_comm] at hle
    have hge := Nat.le_of_mul_le_mul_right hle Decimal256.fractional_pos
    omega
  · intro heq
    rw [heq]
    exact Nat.mul_div_cancel_left _ hpos

def SumsFit (sums : Nat → SlotSums) : Prop :=
  ∀ premium epoch scale sum, sums premium epoch scale = some sum → sum.atomics < Uint256.limit

/-- What a bid is due fits at the sums stored for its scale and the next. -/
def Bid.GainsFit (bid : Bid) (sums : SlotSums) : Prop :=
  ∀ scale sum, scale = bid.scaleSnapshot ∨ scale = bid.scaleSnapshot + 1 →
    sums bid.epochSnapshot scale = some sum →
    bid.amount * sum.atomics * Decimal256.fractional < Uint256.limit

theorem Bid.gained_le (bid : Bid) (sums : SlotSums) :
    bid.gained sums = 0 ∨ ∃ scale sum, (scale = bid.scaleSnapshot ∨ scale = bid.scaleSnapshot + 1) ∧
      sums bid.epochSnapshot scale = some sum ∧ bid.gained sums ≤ sum.atomics := by
  cases hown : sums bid.epochSnapshot bid.scaleSnapshot with
  | none =>
    left
    unfold gained
    rw [hown]
    exact if_pos (Or.inl rfl)
  | some own =>
    by_cases hnothing : own.isZero = true ∨ own < bid.sumSnapshot
    · left
      unfold gained
      rw [hown]
      exact if_pos hnothing
    · right
      have hgained : bid.gained sums = (own.atomics - bid.sumSnapshot.atomics) +
          (secondPortion (sums bid.epochSnapshot (bid.scaleSnapshot + 1)) own).atomics := by
        unfold gained
        rw [hown]
        exact if_neg hnothing
      cases hnext : sums bid.epochSnapshot (bid.scaleSnapshot + 1) with
      | none =>
        refine ⟨_, own, Or.inl rfl, hown, ?_⟩
        rw [hgained, hnext]
        exact Nat.sub_le _ _
      | some next =>
        rw [hnext] at hgained
        by_cases hless : next < own
        · refine ⟨_, own, Or.inl rfl, hown, ?_⟩
          have hzero : secondPortion (some next) own = Decimal256.zero := if_pos hless
          rw [hgained, hzero]
          exact Nat.sub_le _ _
        · refine ⟨_, next, Or.inr rfl, hnext, ?_⟩
          have hsecond : secondPortion (some next) own =
              ⟨(next.atomics - own.atomics) / 1000000000⟩ := if_neg hless
          have hle := Nat.div_le_self (next.atomics - own.atomics) 1000000000
          rw [Decimal256.lt_def] at hless
          rw [hgained, hsecond]
          show own.atomics - bid.sumSnapshot.atomics +
            (next.atomics - own.atomics) / 1000000000 ≤ next.atomics
          omega

/-! ## Settling -/

theorem Bid.Settleable.remaining {bid : Bid} {slot : PremiumSlot} (h : bid.Settleable slot)
    (priced : slot.Priced) (mem : bid ∈ slot.allBids) :
    ∃ remaining residue, calculateRemainingBid bid slot = .ok (remaining, residue) := by
  have hamount := Nat.le_of_lt h.fits
  refine calculateRemainingBid_ok h.scale (priced.bids bid mem).epoch h.product ?_ ?_
  · calc bid.amount * slot.productSnapshot.atomics * Decimal256.fractional
        ≤ Uint128.limit * Decimal256.fractional * Decimal256.fractional :=
          Nat.mul_le_mul_right _ (Nat.mul_le_mul hamount priced.product)
      _ < Uint256.limit := by decide
  · calc bid.amount * Decimal256.fractional
        ≤ Uint128.limit * Decimal256.fractional := Nat.mul_le_mul_right _ hamount
      _ < Uint256.limit := by decide

theorem Bid.Settleable.liquidated {bid : Bid} {slot : PremiumSlot} {sums : EpochScaleSums}
    {bidFor : String} (h : bid.Settleable slot) (scale : slot.currentScale + 1 < Uint128.limit)
    (stored : SumsFit (slotSums sums bidFor))
    (gains : bid.GainsFit (slotSums sums bidFor bid.liqPremium)) :
    ∃ liquidated residue,
      calculateLiquidatedCollateral sums bid bidFor = .ok (liquidated, residue) := by
  have hscale := h.scale
  have hfits : bid.gained (slotSums sums bidFor bid.liqPremium) < Uint256.limit ∧
      bid.amount * bid.gained (slotSums sums bidFor bid.liqPremium) * Decimal256.fractional <
        Uint256.limit := by
    rcases bid.gained_le (slotSums sums bidFor bid.liqPremium) with hzero | hsum
    · rw [hzero]
      exact ⟨by decide, show 0 * Decimal256.fractional < Uint256.limit from by decide⟩
    · obtain ⟨scale, sum, hscale, hsum, hle⟩ := hsum
      refine ⟨Nat.lt_of_le_of_lt hle (stored _ _ _ _ hsum), ?_⟩
      exact Nat.lt_of_le_of_lt (Nat.mul_le_mul_right _ (Nat.mul_le_mul_left _ hle))
        (gains scale sum hscale hsum)
  refine calculateLiquidatedCollateral_ok h.product (by omega) ?_ hfits.1 hfits.2
  calc bid.amount * Decimal256.fractional
      ≤ Uint128.limit * Decimal256.fractional := Nat.mul_le_mul_right _ (Nat.le_of_lt h.fits)
    _ < Uint256.limit := by decide

/-! ## Runs -/

structure Book.Settleable (b : Book) : Prop where
  slots : ∀ slot ∈ b.queue.slots, slot.Settleable
  sums : SumsFit b.sums

theorem splitResidue_lt {dec : Decimal256} {whole : Nat} {residue : Decimal256}
    (done : splitResidue dec = .ok (whole, residue)) : residue.atomics < Decimal256.fractional := by
  simp only [splitResidue, bind_eq_ok, Decimal256.fromUint256_eq_ok] at done
  obtain ⟨whole', hwhole, _, ⟨-, rfl⟩, hrest⟩ := done
  obtain rfl : whole' = dec.atomics / Decimal256.fractional := by
    rw [Decimal256.mulUint_eq hwhole, Nat.one_mul]
  split at hrest
  case isTrue =>
    obtain ⟨-, rfl⟩ := Prod.mk.inj (pure_eq_ok.mp hrest)
    exact Decimal256.fractional_pos
  case isFalse =>
    simp only [bind_eq_ok, pure_eq_ok, Decimal256.sub_eq_ok, Prod.mk.injEq] at hrest
    obtain ⟨_, ⟨-, rfl⟩, -, rfl⟩ := hrest
    show dec.atomics - dec.atomics / Decimal256.fractional * Decimal256.fractional < _
    rw [← Nat.mod_eq_sub_div_mul]
    exact Nat.mod_lt _ Decimal256.fractional_pos

theorem calculateRemainingBid_residue {bid : Bid} {slot : PremiumSlot} {remaining : Nat}
    {residue : Decimal256} (done : calculateRemainingBid bid slot = .ok (remaining, residue)) :
    residue.atomics < Decimal256.fractional := by
  simp only [calculateRemainingBid, bind_eq_ok] at done
  obtain ⟨_, -, _, -, dec, -, hsplit⟩ := done
  exact splitResidue_lt hsplit

def Bid.due (bid : Bid) (sums : Nat → SlotSums) : Nat :=
  bid.pendingLiquidatedCollateral * Decimal256.fractional +
    bid.liquidatedAtomics (sums bid.liqPremium)

def Queue.residues (queue : Queue) : Nat :=
  (queue.slots.map fun slot => slot.residueCollateral.atomics).sum

/-- What is claimed, with what is due to the bids still to go over and the residues of the
    slots, fits a coin, and the residues of the bids fit their type. -/
structure ClaimFits (queue : Queue) (sums : Nat → SlotSums) (bids : List Bid) (claimed : Nat) :
    Prop where
  gains : ∀ bid ∈ bids, bid.GainsFit (sums bid.liqPremium)
  paid : claimed * Decimal256.fractional + queue.residues + (bids.map (Bid.due · sums)).sum <
    Uint128.limit * Decimal256.fractional
  residues : ∀ slot ∈ queue.slots,
    slot.residueBid.atomics + bids.length * Decimal256.fractional ≤ Uint256.limit

theorem SlotMoves.claims {sums sums' : SlotSums} {slot slot' : PremiumSlot} {bid : Bid} {got : Nat}
    (moves : SlotMoves sums slot (.claim bid got) slot' sums') :
    got * Decimal256.fractional + slot'.residueCollateral.atomics =
        slot.residueCollateral.atomics + (bid.pendingLiquidatedCollateral * Decimal256.fractional +
          bid.liquidatedAtomics sums) ∧
      slot'.residueBid.atomics ≤ slot.residueBid.atomics + Decimal256.fractional := by
  obtain ⟨found, residue, rfl, settles, claims⟩ : ∃ (found : Settlement) (residue : Nat),
      got = bid.pendingLiquidatedCollateral + found.liquidated + residue ∧
        found.Of sums slot bid ∧ slot.Claimed found residue slot' := by
    cases moves with
    | claim _ settles claims => exact ⟨_, _, rfl, settles, claims⟩
    | claimWaiting _ settles claims => exact ⟨_, _, rfl, settles, claims⟩
  have hgained := settles.gained
  have hcollateral := claims.collateral
  have hbid := claims.bid
  have hresidue := calculateRemainingBid_residue settles.left
  constructor
  · simp only [Nat.add_mul]
    omega
  · omega

theorem ClaimFits.rest {b b' : Book} {bid : Bid} {rest : List Bid} {claimed got : Nat}
    (fits : ClaimFits b.queue b.sums (bid :: rest) claimed) (sound : b.queue.Sound)
    (moves : b.Moves (.slot bid.liqPremium (.claim bid got)) b') :
    ClaimFits b'.queue b.sums rest (claimed + got) := by
  have hpaid := fits.paid
  rw [List.map_cons, List.sum_cons] at hpaid
  cases moves with
  | @slot _ slot _ slot' sums' found ready moves =>
    obtain ⟨hcollateral, hbid⟩ := moves.claims
    have hresidues : (b.queue.replaceSlots (Decimal256.percent bid.liqPremium) slot').residues +
        slot.residueCollateral.atomics = b.queue.residues + slot'.residueCollateral.atomics :=
      sound.shadowed.sum_push (fun _ ⟨_, blank⟩ => by rw [blank]; rfl) slot' found
    refine ⟨fun other hother => fits.gains other (List.mem_cons_of_mem _ hother), ?_,
      fun other hother => ?_⟩
    · show (claimed + got) * Decimal256.fractional + (b.queue.replaceSlots _ slot').residues + _ < _
      simp only [Bid.due] at hpaid hcollateral ⊢
      rw [Nat.add_mul]
      omega
    · have hroom := fits.residues
      simp only [List.length_cons, Nat.succ_mul] at hroom
      rcases Queue.mem_replaceSlots hother with ⟨hmem, -⟩ | rfl
      · have hslot := hroom other hmem
        omega
      · have hslot := hroom slot (Queue.findSlot_mem found)
        omega

/-- What is taken out of a bid and its slot fits: a waiting bid is within the amount of the
    queue, an active one within the total of its slot, with the residue of the slot within the
    amount of the queue, and the collateral that is due to it fits a coin. -/
structure RetractFits (queue : Queue) (slot : PremiumSlot) (sums : Nat → SlotSums) (bid : Bid) :
    Prop where
  native : ∃ denom, queue.bidAsset.info = .nativeToken denom
  amount : queue.bidAsset.amount < Uint128.limit
  waiting : bid.waitEnd.isSome = true → bid.amount ≤ queue.bidAsset.amount
  gains : bid.waitEnd = none → bid.GainsFit (sums bid.liqPremium)
  collateral : bid.waitEnd = none →
    slot.residueCollateral.atomics + bid.due sums < Uint128.limit * Decimal256.fractional
  held : bid.waitEnd = none →
    bid.remainingAtomics slot / Decimal256.fractional ≤ slot.totalBidAmount
  covered : bid.waitEnd = none → (slot.residueBid.atomics + bid.remainingAtomics slot) /
    Decimal256.fractional ≤ queue.bidAsset.amount

instance PoolFill.leaves_decidable (slot : PremiumSlot) (fill : PoolFill) :
    Decidable (fill.Leaves slot) :=
  decidable_of_iff
    ((fill.required = slot.totalBidAmount → ∀ bid ∈ slot.allBids, bid.scaleSnapshot = 0) ∧
      (fill.required ≠ slot.totalBidAmount →
        Decimal256.fractional ≤ slot.productSnapshot.atomics * 1000000000 *
          (Decimal256.fractional - fill.required * Decimal256.fractional / slot.totalBidAmount)) ∧
      slot.currentScale + 2 < Uint128.limit)
    ⟨fun h => ⟨h.1, h.2.1, h.2.2⟩, fun h => ⟨h.empties, h.product, h.scale⟩⟩

def Call.TakenLeaves (s : State) (call : Call) : Prop :=
  ∀ taken ∈ call.taken s, taken.2.2.Leaves taken.2.1

instance Call.takenLeaves_decidable (s : State) (call : Call) : Decidable (call.TakenLeaves s) :=
  List.decidableBAll _ _

def Bid.storedFit (bid : Bid) (sums : SlotSums) : Bool :=
  [bid.scaleSnapshot, bid.scaleSnapshot + 1].all fun scale =>
    (sums bid.epochSnapshot scale).all fun sum =>
      bid.amount * sum.atomics * Decimal256.fractional < Uint256.limit

theorem Bid.gainsFit_of_storedFit {bid : Bid} {sums : SlotSums} (fit : bid.storedFit sums = true) :
    bid.GainsFit sums := by
  simp only [storedFit, List.all_cons, List.all_nil, Bool.and_true, Bool.and_eq_true,
    Option.all_eq_true, decide_eq_true_eq] at fit
  intro scale sum hscale hsum
  rcases hscale with rfl | rfl
  · exact fit.1 sum hsum
  · exact fit.2 sum hsum

instance Bid.gainsFit_decidable (bid : Bid) (sums : SlotSums) : Decidable (bid.GainsFit sums) :=
  decidable_of_iff (bid.storedFit sums = true) ⟨Bid.gainsFit_of_storedFit, fun gains => by
    simp only [storedFit, List.all_cons, List.all_nil, Bool.and_true, Bool.and_eq_true,
      Option.all_eq_true, decide_eq_true_eq]
    exact ⟨fun sum => gains _ sum (.inl rfl), fun sum => gains _ sum (.inr rfl)⟩⟩

instance claimFits_decidable (queue : Queue) (sums : Nat → SlotSums) (bids : List Bid)
    (claimed : Nat) : Decidable (ClaimFits queue sums bids claimed) :=
  decidable_of_iff
    ((∀ bid ∈ bids, bid.GainsFit (sums bid.liqPremium)) ∧
      claimed * Decimal256.fractional + queue.residues + (bids.map (Bid.due · sums)).sum <
        Uint128.limit * Decimal256.fractional ∧
      ∀ slot ∈ queue.slots,
        slot.residueBid.atomics + bids.length * Decimal256.fractional ≤ Uint256.limit)
    ⟨fun h => ⟨h.1, h.2.1, h.2.2⟩, fun h => ⟨h.gains, h.paid, h.residues⟩⟩

instance retractFits_decidable (queue : Queue) (slot : PremiumSlot) (sums : Nat → SlotSums)
    (bid : Bid) : Decidable (RetractFits queue slot sums bid) :=
  decidable_of_iff
    (queue.bidAsset.info = .nativeToken queue.bidAsset.info.toText ∧
      queue.bidAsset.amount < Uint128.limit ∧
      (bid.waitEnd.isSome = true → bid.amount ≤ queue.bidAsset.amount) ∧
      (bid.waitEnd = none → bid.GainsFit (sums bid.liqPremium)) ∧
      (bid.waitEnd = none →
        slot.residueCollateral.atomics + bid.due sums < Uint128.limit * Decimal256.fractional) ∧
      (bid.waitEnd = none →
        bid.remainingAtomics slot / Decimal256.fractional ≤ slot.totalBidAmount) ∧
      (bid.waitEnd = none → (slot.residueBid.atomics + bid.remainingAtomics slot) /
        Decimal256.fractional ≤ queue.bidAsset.amount))
    ⟨fun ⟨native, amount, waiting, gains, collateral, held, covered⟩ =>
      ⟨⟨_, native⟩, amount, waiting, gains, collateral, held, covered⟩,
      fun h => by
        obtain ⟨denom, hnative⟩ := h.native
        exact ⟨by rw [hnative]; rfl, h.amount, h.waiting, h.gains, h.collateral, h.held, h.covered⟩⟩

/-- A queue with a bid of ann's, a liquidation of most of it, and a bid of bob's after that,
    which is settled at the scale the liquidation went on to. -/
def sampleScaled : List Call :=
  [sampleQueue 10 100000000000, sampleBid 1 "ann" 0 10000000000,
    sampleLiquidation 2 9999999999, sampleBid 3 "bob" 0 5000]

end Membrane.LiqQueue
