import Membrane.LiqQueue.Proofs.Prices
import Membrane.LiqQueue.Proofs.Structure

/-!
# What a bid is entitled to

Between two settlements a bid is stored as it is, and only liquidations change what it is
worth: what is left of it falls, and what it has liquidated grows. For the second, the sums
stored for a slot never fall, and none is stored beyond the scale of the slot.
-/

namespace Membrane.LiqQueue

open Outcome

/-! ## The sums of a slot -/

/-- The sums stored for a slot are of its epochs and scales so far, and those of its epoch are
    at most the one it has. -/
structure PremiumSlot.Summed (slot : PremiumSlot) (sums : SlotSums) : Prop where
  epoch : ∀ epoch scale sum, sums epoch scale = some sum → epoch ≤ slot.currentEpoch
  scale : ∀ scale sum, sums slot.currentEpoch scale = some sum →
    scale ≤ slot.currentScale ∧ sum.atomics ≤ slot.sumSnapshot.atomics

/-- The sums of every slot of a queue are in order, and none are stored where there is no
    slot. -/
structure Book.Summed (b : Book) : Prop where
  found : ∀ premium slot, b.queue.findSlot premium = some slot → slot.Summed (b.sums premium)
  absent : ∀ premium, b.queue.findSlot premium = none → b.sums premium = fun _ _ => none

def SumsGrow (sums sums' : SlotSums) : Prop :=
  ∀ epoch scale sum, sums epoch scale = some sum →
    ∃ sum', sums' epoch scale = some sum' ∧ sum.atomics ≤ sum'.atomics

theorem summed_blank {slot : PremiumSlot} : slot.Summed fun _ _ => none :=
  ⟨fun _ _ _ hsum => (nomatch hsum), fun _ _ hsum => (nomatch hsum)⟩

theorem PremiumSlot.Summed.congr {slot slot' : PremiumSlot} {sums : SlotSums}
    (h : slot.Summed sums) (epoch : slot'.currentEpoch = slot.currentEpoch)
    (scale : slot'.currentScale = slot.currentScale)
    (sum : slot'.sumSnapshot = slot.sumSnapshot) : slot'.Summed sums := by
  constructor
  · rw [epoch]
    exact h.epoch
  · rw [epoch, scale, sum]
    exact h.scale

/-! ## What a bid gains from growing sums -/

section

variable {sums sums' : SlotSums} {bid : Bid}

theorem secondPortion_mono {second second' : Option Decimal256} {reference : Decimal256}
    (grows : ∀ sum, second = some sum → ∃ sum', second' = some sum' ∧ sum.atomics ≤ sum'.atomics) :
    (secondPortion second reference).atomics ≤ (secondPortion second' reference).atomics := by
  cases second with
  | none => exact Nat.zero_le _
  | some sum =>
    obtain ⟨sum', rfl, hle⟩ := grows sum rfl
    unfold secondPortion
    by_cases hlt : sum < reference
    · simp only [if_pos hlt]
      exact Nat.zero_le _
    · have hlt' : ¬ sum' < reference := by
        rw [Decimal256.lt_def] at hlt ⊢
        omega
      simp only [if_neg hlt, if_neg hlt']
      exact Nat.div_le_div_right (Nat.sub_le_sub_right hle _)

theorem gained_mono_next (grow : SumsGrow sums sums')
    (same : sums' bid.epochSnapshot bid.scaleSnapshot =
      sums bid.epochSnapshot bid.scaleSnapshot) : bid.gained sums ≤ bid.gained sums' := by
  simp only [Bid.gained, same]
  split
  case isTrue => exact Nat.le_refl _
  case isFalse =>
    exact Nat.add_le_add_left (secondPortion_mono fun sum hsum => grow _ _ sum hsum) _

theorem gained_mono_reference (grow : SumsGrow sums sums')
    (next : sums bid.epochSnapshot (bid.scaleSnapshot + 1) = none)
    (next' : sums' bid.epochSnapshot (bid.scaleSnapshot + 1) = none) :
    bid.gained sums ≤ bid.gained sums' := by
  unfold Bid.gained
  rw [next, next']
  cases hsum : sums bid.epochSnapshot bid.scaleSnapshot with
  | none => simp [Decimal256.zero, Decimal256.isZero]
  | some sum =>
    obtain ⟨sum', hsum', hle⟩ := grow _ _ sum hsum
    simp only [hsum', Option.getD_some]
    split
    case isTrue => exact Nat.zero_le _
    case isFalse hsome =>
      have hsome' : ¬ (sum'.isZero = true ∨ sum' < bid.sumSnapshot) := by
        simp only [Decimal256.isZero, Decimal256.lt_def, beq_iff_eq] at hsome ⊢
        omega
      rw [if_neg hsome']
      exact Nat.add_le_add_right (Nat.sub_le_sub_right hle _) _

end

/-! ## Liquidating a slot -/

def liquidatedSums (sums : SlotSums) (slot spent : PremiumSlot) : SlotSums := fun epoch scale =>
  if epoch = slot.currentEpoch ∧ scale = slot.currentScale then some spent.sumSnapshot
  else sums epoch scale

section

variable {sums sums' : SlotSums} {slot spent slot' : PremiumSlot} {fill : PoolFill}

theorem liquidatedSums_here :
    liquidatedSums sums slot spent slot.currentEpoch slot.currentScale = some spent.sumSnapshot :=
  if_pos ⟨rfl, rfl⟩

theorem liquidatedSums_elsewhere {epoch scale : Nat}
    (ne : ¬ (epoch = slot.currentEpoch ∧ scale = slot.currentScale)) :
    liquidatedSums sums slot spent epoch scale = sums epoch scale := if_neg ne

theorem PremiumSlot.Spent.sum_le (spends : slot.Spent fill spent) :
    slot.sumSnapshot.atomics ≤ spent.sumSnapshot.atomics := by
  rw [spends.sum]
  exact Nat.le_add_right _ _

theorem liquidatedSums_grow (h : slot.Summed sums) (spends : slot.Spent fill spent) :
    SumsGrow sums (liquidatedSums sums slot spent) := by
  intro epoch scale sum hsum
  by_cases hhere : epoch = slot.currentEpoch ∧ scale = slot.currentScale
  · obtain ⟨rfl, rfl⟩ := hhere
    exact ⟨_, liquidatedSums_here, (h.scale _ _ hsum).2.trans spends.sum_le⟩
  · exact ⟨sum, (liquidatedSums_elsewhere hhere).trans hsum, Nat.le_refl _⟩

theorem summed_spent (h : slot.Summed sums) (spends : slot.Spent fill spent) :
    spent.Summed (liquidatedSums sums slot spent) := by
  have hepoch : spent.currentEpoch = slot.currentEpoch := by rw [spends.frame]
  have hscale : spent.currentScale = slot.currentScale := by rw [spends.frame]
  constructor
  · intro epoch scale sum hsum
    rw [hepoch]
    by_cases hhere : epoch = slot.currentEpoch ∧ scale = slot.currentScale
    · exact hhere.1.le
    · rw [liquidatedSums_elsewhere hhere] at hsum
      exact h.epoch epoch scale sum hsum
  · intro scale sum hsum
    rw [hepoch] at hsum
    rw [hscale]
    by_cases hhere : slot.currentEpoch = slot.currentEpoch ∧ scale = slot.currentScale
    · obtain ⟨-, rfl⟩ := hhere
      rw [liquidatedSums_here] at hsum
      obtain rfl := Option.some.inj hsum
      exact ⟨Nat.le_refl _, Nat.le_refl _⟩
    · rw [liquidatedSums_elsewhere hhere] at hsum
      obtain ⟨hle, hsum⟩ := h.scale scale sum hsum
      exact ⟨hle, hsum.trans spends.sum_le⟩

theorem Updated.summed {expense : Decimal256} (updated : Updated slot slot' expense)
    (h : slot.Summed sums) : slot'.Summed sums := by
  cases updated with
  | restarted _ hepoch _ _ _ =>
    -- No sum of the new epoch is stored yet.
    have hnone : ∀ scale sum, sums slot'.currentEpoch scale ≠ some sum := by
      intro scale sum hsum
      have hle := h.epoch _ scale sum hsum
      omega
    refine ⟨fun epoch scale sum hsum => ?_, fun scale sum hsum => absurd hsum (hnone scale sum)⟩
    have hle := h.epoch epoch scale sum hsum
    omega
  | scaled _ hepoch hscale _ _ hsum =>
    refine ⟨?_, fun scale sum hstored => ?_⟩
    · rw [hepoch]
      exact h.epoch
    · rw [hepoch] at hstored
      rw [hscale, hsum]
      exact (h.scale scale sum hstored).imp_left fun hle => hle.trans (Nat.le_succ _)
  | lowered _ hepoch hscale _ _ hsum => exact h.congr hepoch hscale hsum

theorem gained_liquidated (h : slot.Summed sums) (spends : slot.Spent fill spent) (bid : Bid) :
    bid.gained sums ≤ bid.gained (liquidatedSums sums slot spent) := by
  have hgrow := liquidatedSums_grow h spends
  by_cases hhere : bid.epochSnapshot = slot.currentEpoch ∧ bid.scaleSnapshot = slot.currentScale
  · have hnext : sums bid.epochSnapshot (bid.scaleSnapshot + 1) = none := by
      cases hsum : sums bid.epochSnapshot (bid.scaleSnapshot + 1) with
      | none => rfl
      | some sum =>
        rw [hhere.1] at hsum
        have hle := (h.scale _ sum hsum).1
        omega
    have hnext' : liquidatedSums sums slot spent bid.epochSnapshot (bid.scaleSnapshot + 1) =
        none := by
      rw [liquidatedSums_elsewhere (by omega)]
      exact hnext
    exact gained_mono_reference hgrow hnext hnext'
  · exact gained_mono_next hgrow (liquidatedSums_elsewhere hhere)

theorem Updated.remaining_le {expense : Decimal256} (updated : Updated slot slot' expense)
    {bid : Bid} (priced : bid.Priced slot) :
    bid.remainingAtomics slot' ≤ bid.remainingAtomics slot := by
  have hepochs := priced.epoch
  unfold Bid.remainingAtomics
  cases updated with
  | restarted _ hepoch _ _ _ =>
    rw [if_pos (show slot'.currentEpoch ≠ bid.epochSnapshot by omega)]
    exact Nat.zero_le _
  | scaled _ hepoch hscale _ hproduct _ =>
    rw [hepoch, hscale]
    by_cases hsame : slot.currentEpoch ≠ bid.epochSnapshot
    · simp only [if_pos hsame, Nat.le_refl]
    · have hscales := priced.scale (not_not.mp hsame).symm
      rw [if_neg hsame, if_neg hsame, if_neg (by omega : ¬ slot.currentScale + 1 = _)]
      by_cases hhere : slot.currentScale = bid.scaleSnapshot
      · rw [if_pos (by omega : slot.currentScale + 1 = _), if_pos hhere, Nat.div_div_eq_div_mul]
        have hle : slot'.productSnapshot.atomics ≤ slot.productSnapshot.atomics * 1000000000 := by
          rw [hproduct]
          refine Nat.div_le_of_le_mul ?_
          rw [Nat.mul_comm Decimal256.fractional]
          exact Nat.mul_le_mul_left _ (Nat.sub_le _ _)
        calc bid.amount * slot'.productSnapshot.atomics * Decimal256.fractional /
              (bid.productSnapshot.atomics * 1000000000)
            ≤ bid.amount * (slot.productSnapshot.atomics * 1000000000) * Decimal256.fractional /
              (bid.productSnapshot.atomics * 1000000000) :=
              Nat.div_le_div_right (Nat.mul_le_mul_right _ (Nat.mul_le_mul_left _ hle))
          _ = bid.amount * slot.productSnapshot.atomics * Decimal256.fractional * 1000000000 /
              (bid.productSnapshot.atomics * 1000000000) := by
              rw [← Nat.mul_assoc, Nat.mul_right_comm _ 1000000000]
          _ = bid.amount * slot.productSnapshot.atomics * Decimal256.fractional /
              bid.productSnapshot.atomics := Nat.mul_div_mul_right _ _ (by decide)
      · rw [if_neg (by omega : ¬ slot.currentScale + 1 = _)]
        exact Nat.zero_le _
  | lowered _ hepoch hscale _ hproduct _ =>
    have hle : slot'.productSnapshot.atomics ≤ slot.productSnapshot.atomics := by
      rw [hproduct]
      refine Nat.div_le_of_le_mul ?_
      rw [Nat.mul_comm Decimal256.fractional]
      exact Nat.mul_le_mul_left _ (Nat.sub_le _ _)
    have hshare : bid.amount * slot'.productSnapshot.atomics * Decimal256.fractional /
        bid.productSnapshot.atomics ≤ bid.amount * slot.productSnapshot.atomics *
          Decimal256.fractional / bid.productSnapshot.atomics :=
      Nat.div_le_div_right (Nat.mul_le_mul_right _ (Nat.mul_le_mul_left _ hle))
    rw [hepoch, hscale]
    split
    case isTrue => exact Nat.le_refl _
    case isFalse =>
      split
      case isTrue => exact hshare
      case isFalse =>
        split
        case isTrue => exact Nat.div_le_div_right hshare
        case isFalse => exact Nat.le_refl _

end

/-! ## Moves -/

structure PremiumSlot.SamePrice (slot slot' : PremiumSlot) : Prop where
  product : slot'.productSnapshot = slot.productSnapshot
  epoch : slot'.currentEpoch = slot.currentEpoch
  scale : slot'.currentScale = slot.currentScale

theorem PremiumSlot.SamePrice.remaining {slot slot' : PremiumSlot} (h : slot.SamePrice slot')
    (bid : Bid) : bid.remainingAtomics slot' = bid.remainingAtomics slot := by
  unfold Bid.remainingAtomics
  rw [h.product, h.epoch, h.scale]

/-- A move that liquidates a slot. -/
inductive Move.Liquidation : Move → Prop where
  | slot (premium : Nat) (fill : PoolFill) : Move.Liquidation (.slot premium (.liquidate fill))

namespace SlotMoves

variable {sums sums' : SlotSums} {slot slot' : PremiumSlot} {move : SlotMove}

theorem summed (moves : SlotMoves sums slot move slot' sums') (h : slot.Summed sums) :
    slot'.Summed sums' := by
  rcases moves.frame with ⟨fill, rfl⟩ | ⟨-, hsum, hepoch, hscale, rfl⟩
  · cases moves with
    | liquidate spends update => exact (updateProduct_updated update).summed (summed_spent h spends)
  · exact h.congr hepoch hscale hsum

theorem gained_le (moves : SlotMoves sums slot move slot' sums') (h : slot.Summed sums)
    (bid : Bid) : bid.gained sums ≤ bid.gained sums' := by
  rcases moves.frame with ⟨fill, rfl⟩ | ⟨-, -, -, -, rfl⟩
  · cases moves with
    | liquidate spends => exact gained_liquidated h spends bid
  · exact Nat.le_refl _

theorem remaining_le (moves : SlotMoves sums slot move slot' sums') {bid : Bid}
    (priced : bid.Priced slot) : bid.remainingAtomics slot' ≤ bid.remainingAtomics slot := by
  rcases moves.frame with ⟨fill, rfl⟩ | ⟨hproduct, -, hepoch, hscale, -⟩
  · cases moves with
    | @liquidate _ spent _ spends update =>
      have hspent : slot.SamePrice spent := by
        rw [spends.frame]
        exact ⟨rfl, rfl, rfl⟩
      rw [← hspent.remaining bid]
      exact (updateProduct_updated update).remaining_le
        (priced.congr hspent.product hspent.epoch hspent.scale)
  · exact (PremiumSlot.SamePrice.remaining ⟨hproduct, hepoch, hscale⟩ bid).le

end SlotMoves

namespace Book

variable {b b' : Book} {m : Move}

theorem findSlot_after (b : Book) {premium other : Nat} {slot slot' : PremiumSlot}
    {move : SlotMove} {sums' : SlotSums} (same : slot'.liqPremium = Decimal256.percent premium) :
    (b.after premium slot move slot' sums').queue.findSlot other =
      if premium = other then some slot' else b.queue.findSlot other := by
  have hcount : (move.count b.queue).findSlot other = b.queue.findSlot other := by
    unfold Queue.findSlot
    rw [Queue.count_slots]
  by_cases hother : premium = other
  · subst hother
    rw [if_pos rfl]
    exact Queue.findSlot_replaceSlots_self _ same
  · rw [if_neg hother, ← hcount]
    exact Queue.findSlot_replaceSlots_ne _ same hother

theorem findSlot_setMaxPremium {maxPremium premium : Nat} {queue queue' : Queue}
    (done : setMaxPremium maxPremium queue = .ok queue') :
    (queue.findSlot premium).isSome = true → queue'.findSlot premium = queue.findSlot premium := by
  intro hfound
  unfold Queue.findSlot at hfound ⊢
  rw [(setMaxPremium_slots done).2, List.find?_append]
  exact Option.or_of_isSome hfound

theorem Moves.summed (moves : b.Moves m b') (h : b.Summed) : b'.Summed := by
  cases moves with
  | @slot premium slot move slot' sums' found ready moves =>
    have hhome : slot'.liqPremium = Decimal256.percent premium :=
      moves.liqPremium_eq.trans (Queue.findSlot_premium found)
    have hsums : ∀ other, premium ≠ other →
        (b.after premium slot move slot' sums').sums other = b.sums other :=
      fun other hne => Function.update_of_ne (Ne.symm hne) _ _
    constructor
    · intro other slot₁ hslot₁
      rw [findSlot_after b hhome] at hslot₁
      by_cases hother : premium = other
      · subst hother
        rw [if_pos rfl] at hslot₁
        obtain rfl := Option.some.inj hslot₁
        have hhere : (b.after premium slot move slot' sums').sums premium = sums' :=
          Function.update_self _ _ _
        rw [hhere]
        exact moves.summed (h.found premium slot found)
      · rw [if_neg hother] at hslot₁
        rw [hsums other hother]
        exact h.found other slot₁ hslot₁
    · intro other hnone
      rw [findSlot_after b hhome] at hnone
      by_cases hother : premium = other
      · rw [if_pos hother] at hnone
        cases hnone
      · rw [if_neg hother] at hnone
        rw [hsums other hother]
        exact h.absent other hnone
  | skipBidId | burn | setBidThreshold => exact ⟨h.found, h.absent⟩
  | @setMaxPremium maxPremium queue' done =>
    constructor
    · intro premium slot hslot
      show slot.Summed (b.sums premium)
      cases hfound : b.queue.findSlot premium with
      | some slot₀ =>
        have hkept : queue'.findSlot premium = b.queue.findSlot premium :=
          findSlot_setMaxPremium done (by rw [hfound]; rfl)
        rw [hkept] at hslot
        exact h.found premium slot hslot
      | none =>
        rw [h.absent premium hfound]
        exact summed_blank
    · intro premium hnone
      refine h.absent premium ?_
      cases hfound : b.queue.findSlot premium with
      | none => rfl
      | some slot₀ =>
        have hkept : queue'.findSlot premium = b.queue.findSlot premium :=
          findSlot_setMaxPremium done (by rw [hfound]; rfl)
        rw [hkept, hfound] at hnone
        cases hnone

end Book

/-! ## A bid between two books -/

/-- Between two books a bid stays as it is, no more of it is left and it has gained no less;
    neither changes when nothing is liquidated. -/
structure Bid.Stays (bid : Bid) (liquidated : Prop) (b b' : Book) : Prop where
  mem : bid ∈ b'.queue.allBids
  left : ∀ slot slot', b.queue.findSlot bid.liqPremium = some slot →
    b'.queue.findSlot bid.liqPremium = some slot' →
    bid.remainingAtomics slot' ≤ bid.remainingAtomics slot ∧ (¬ liquidated → slot.SamePrice slot')
  gained : bid.gained (b.sums bid.liqPremium) ≤ bid.gained (b'.sums bid.liqPremium) ∧
    (¬ liquidated → b'.sums bid.liqPremium = b.sums bid.liqPremium)

namespace Bid.Stays

variable {bid : Bid} {liquidated : Prop} {b mid b' : Book}

theorem refl (mem : bid ∈ b.queue.allBids) : bid.Stays liquidated b b := by
  refine ⟨mem, fun slot slot' hslot hslot' => ?_, Nat.le_refl _, fun _ => rfl⟩
  obtain rfl := Option.some.inj (hslot.symm.trans hslot')
  exact ⟨Nat.le_refl _, fun _ => ⟨rfl, rfl, rfl⟩⟩

theorem trans (first : bid.Stays liquidated b mid) (sound : mid.queue.Sound)
    (second : bid.Stays liquidated mid b') : bid.Stays liquidated b b' := by
  obtain ⟨between, hbetween, -⟩ := sound.home first.mem
  refine ⟨second.mem, fun slot slot' hslot hslot' => ?_, ?_, fun hnone => ?_⟩
  · obtain ⟨hfirst, hsame⟩ := first.left slot between hslot hbetween
    obtain ⟨hsecond, hsame'⟩ := second.left between slot' hbetween hslot'
    refine ⟨hsecond.trans hfirst, fun hnone => ?_⟩
    have hprice := hsame hnone
    have hprice' := hsame' hnone
    exact ⟨hprice'.product.trans hprice.product, hprice'.epoch.trans hprice.epoch,
      hprice'.scale.trans hprice.scale⟩
  · exact first.gained.1.trans second.gained.1
  · exact (second.gained.2 hnone).trans (first.gained.2 hnone)

end Bid.Stays

/-- A queue whose bids and sums are in order. -/
structure Book.Ordered (b : Book) : Prop where
  priced : b.queue.Priced
  summed : b.Summed

theorem Book.Moves.ordered {b b' : Book} {m : Move} (moves : b.Moves m b') (h : b.Ordered) :
    b'.Ordered := ⟨moves.priced h.priced, moves.summed h.summed⟩

theorem Book.Moves.stays {b b' : Book} {m : Move} (moves : b.Moves m b') (sound : b.queue.Sound)
    (ordered : b.Ordered) {bid : Bid} (mem : bid ∈ b.queue.allBids) (spared : bid.id ∉ m.settled)
    {liquidated : Prop} (told : m.Liquidation → liquidated) : bid.Stays liquidated b b' := by
  have hmem := moves.keeps_bid sound mem spared
  cases moves with
  | @slot premium slot move slot' sums' found ready moves =>
    have hhome : slot'.liqPremium = Decimal256.percent premium :=
      moves.liqPremium_eq.trans (Queue.findSlot_premium found)
    by_cases hpremium : premium = bid.liqPremium
    · have hhere : (b.after premium slot move slot' sums').sums bid.liqPremium = sums' := by
        rw [← hpremium]
        exact Function.update_self _ _ _
      subst hpremium
      have hbid : bid ∈ slot.allBids := by
        obtain ⟨slot₀, hslot₀, hmem₀⟩ := sound.home mem
        obtain rfl := Option.some.inj (hslot₀.symm.trans found)
        exact hmem₀
      have hquiet : ¬ liquidated → ∀ fill, move ≠ .liquidate fill := by
        rintro hnone fill rfl
        exact hnone (told (.slot _ _))
      refine ⟨hmem, fun slot₁ slot₂ hslot₁ hslot₂ => ?_, ?_, fun hnone => ?_⟩
      · obtain rfl := Option.some.inj (found.symm.trans hslot₁)
        rw [findSlot_after b hhome, if_pos rfl] at hslot₂
        obtain rfl := Option.some.inj hslot₂
        refine ⟨moves.remaining_le
          ((ordered.priced slot (Queue.findSlot_mem found)).bids bid hbid), fun hnone => ?_⟩
        rcases moves.frame with ⟨fill, hfill⟩ | ⟨hproduct, -, hepoch, hscale, -⟩
        · exact absurd hfill (hquiet hnone fill)
        · exact ⟨hproduct, hepoch, hscale⟩
      · rw [hhere]
        exact moves.gained_le (ordered.summed.found _ slot found) bid
      · rw [hhere]
        rcases moves.frame with ⟨fill, hfill⟩ | ⟨-, -, -, -, hsums⟩
        · exact absurd hfill (hquiet hnone fill)
        · exact hsums
    · have hthere : (b.after premium slot move slot' sums').sums bid.liqPremium =
          b.sums bid.liqPremium := Function.update_of_ne (Ne.symm hpremium) _ _
      refine ⟨hmem, fun slot₁ slot₂ hslot₁ hslot₂ => ?_, by rw [hthere], fun _ => hthere⟩
      rw [findSlot_after b hhome, if_neg hpremium] at hslot₂
      obtain rfl := Option.some.inj (hslot₁.symm.trans hslot₂)
      exact ⟨Nat.le_refl _, fun _ => ⟨rfl, rfl, rfl⟩⟩
  | skipBidId | burn | setBidThreshold =>
    refine ⟨hmem, fun slot₁ slot₂ hslot₁ hslot₂ => ?_, Nat.le_refl _, fun _ => rfl⟩
    obtain rfl := Option.some.inj (hslot₁.symm.trans hslot₂)
    exact ⟨Nat.le_refl _, fun _ => ⟨rfl, rfl, rfl⟩⟩
  | setMaxPremium done =>
    refine ⟨hmem, fun slot₁ slot₂ hslot₁ hslot₂ => ?_, Nat.le_refl _, fun _ => rfl⟩
    rw [findSlot_setMaxPremium done (by rw [hslot₁]; rfl)] at hslot₂
    obtain rfl := Option.some.inj (hslot₁.symm.trans hslot₂)
    exact ⟨Nat.le_refl _, fun _ => ⟨rfl, rfl, rfl⟩⟩

/-! ## Calls -/

/-- A call by which a user settles bids on a collateral: it retracts one or claims. -/
inductive Call.Settles (call : Call) (user : Addr) (text : String) : Prop where
  | retracts {bidId bidFor amount} (msg : call.msg = .retractBid bidId bidFor amount)
      (about : bidFor.toText = text) (sender : call.info.sender = user) :
        Call.Settles call user text
  | claims {bidFor bidIds} (msg : call.msg = .claimLiquidations bidFor bidIds)
      (about : bidFor.toText = text) (sender : call.info.sender = user) :
        Call.Settles call user text

/-- A call that liquidates a collateral. -/
def Call.LiquidatesFrom (call : Call) (text : String) : Prop :=
  ∃ creditPrice collateralPrice collateralAmount bidFor,
    call.msg = .liquidate creditPrice collateralPrice collateralAmount bidFor ∧
      bidFor.toText = text

def State.bookAt (s : State) (text : String) (queue : Queue) : Book :=
  ⟨queue, slotSums s.epochScaleSums text, Ledger.blank⟩

section

variable {s s' : State} {call : Call} {text : String} {bid : Bid}

theorem Call.Makes.spares {start b b' : Book} {m : Move} (makes : call.Makes s start b m)
    (moves : b.Moves m b') (about : call.msg.about = some text) (sound : b.queue.Sound)
    (mem : bid ∈ b.queue.allBids) (active : bid.waitEnd = none)
    (unsettled : ¬ call.Settles bid.user text) : bid.id ∉ m.settled := by
  intro hid
  -- A move names the bid it settles by its id, which no other bid of the queue has.
  have hsame : ∀ {other : Bid}, other ∈ b.queue.allBids → bid.id ∈ [other.id] → bid = other :=
    fun hother hid => sound.eq_of_id mem hother (List.mem_singleton.mp hid)
  cases makes with
  | submit _ _ made => cases made <;> cases hid
  | @retract bidId bidFor amount other slot move refund retracts _ _ owner found hother
    retraction =>
    have hid' : bid.id ∈ [other.id] := by cases retraction <;> exact hid
    obtain rfl := hsame (Queue.Sound.mem_allBids_of_slot found hother) hid'
    rw [retracts] at about
    exact unsettled (.retracts retracts (Option.some.inj about) owner.symm)
  | liquidate _ made =>
    cases made with
    | activate premium other =>
      cases moves with
      | @slot _ slot _ slot' sums' found _ moves =>
        cases moves with
        | @activate other before behind waits =>
          have hother : other ∈ slot.waitingBids := by
            rw [waits]
            exact List.mem_append_right _ List.mem_cons_self
          obtain rfl := hsame (Queue.Sound.mem_allBids_of_slot found
            (mem_allBids.mpr (Or.inr hother))) hid
          have hwaits := ((sound.slots slot (Queue.findSlot_mem found)).waiting bid hother).1
          rw [active] at hwaits
          cases hwaits
    | touch | liquidate | burn => cases hid
  | @claim bidFor bidIds bids _ claims _ made =>
    obtain ⟨other, -, owner, -, got, rfl⟩ := made
    cases moves with
    | @slot _ slot _ slot' sums' found _ moves =>
      have hother : other ∈ slot.allBids := by
        cases moves with
        | claim active => exact mem_allBids.mpr (Or.inl active)
        | claimWaiting waits => exact mem_allBids.mpr (Or.inr waits)
      obtain rfl := hsame (Queue.Sound.mem_allBids_of_slot found hother) hid
      rw [claims] at about
      exact unsettled (.claims claims (Option.some.inj about) owner.symm)
  | setMaxPremium | setBidThreshold => cases hid

theorem Call.Makes.tells {start b : Book} {m : Move} (makes : call.Makes s start b m)
    (about : call.msg.about = some text) (liquidation : m.Liquidation) :
    call.LiquidatesFrom text := by
  cases makes with
  | submit _ _ made => cases made <;> cases liquidation
  | retract _ _ _ _ _ _ retraction => cases retraction <;> cases liquidation
  | liquidate liquidates =>
    rw [liquidates] at about
    exact ⟨_, _, _, _, liquidates, Option.some.inj about⟩
  | claim _ _ made =>
    obtain ⟨other, -, -, -, got, rfl⟩ := made
    cases liquidation
  | setMaxPremium | setBidThreshold => cases liquidation

theorem Steps.stays {queue : Queue} {liquidated : Prop} (sound : s.Sound)
    (stored : s.queues.lookup text = some queue) (ordered : (s.bookAt text queue).Ordered)
    (mem : bid ∈ queue.allBids) (active : bid.waitEnd = none)
    (unsettled : ¬ call.Settles bid.user text) (told : call.LiquidatesFrom text → liquidated)
    (steps : Steps s call s') :
    ∃ queue', s'.queues.lookup text = some queue' ∧
      bid.Stays liquidated (s.bookAt text queue) (s'.bookAt text queue') := by
  unfold Steps Call.exec at steps
  split at steps
  case h_2 => cases steps
  case h_1 s₁ response hexecute =>
    obtain rfl := Option.some.inj steps
    have hidle : slotSums s₁.epochScaleSums text = slotSums s.epochScaleSums text →
        bid.Stays liquidated (s.bookAt text queue) (s₁.bookAt text queue) := by
      intro hsums
      unfold State.bookAt
      rw [hsums]
      exact Bid.Stays.refl mem
    cases Call.does sound hexecute with
    | nothing _ queues sums =>
      rw [queues]
      exact ⟨queue, stored, hidle (by rw [sums])⟩
    | @adds bidFor _ _ _ absent queues sums =>
      have hne : text ≠ bidFor.toText := by
        rintro rfl
        rw [stored] at absent
        cases absent
      rw [queues, AList.lookup_insert_ne hne]
      exact ⟨queue, stored, hidle (by rw [sums])⟩
    | @moves other queue₁ queue₁' about found queues sums runs =>
      by_cases htext : text = other
      · subst htext
        obtain rfl := Option.some.inj (stored.symm.trans found)
        have hkeeps : ∀ b m b', (b.queue.Sound ∧ b.Ordered ∧
            bid.Stays liquidated (s.bookAt text queue) b) →
            call.Makes s (s.bookAt text queue) b m → b.Moves m b' →
            (b'.queue.Sound ∧ b'.Ordered ∧
              bid.Stays liquidated (s.bookAt text queue) b') := by
          rintro b m b' ⟨hsound, hordered, hstays⟩ hmakes hmoves
          have hspared := hmakes.spares hmoves about hsound hstays.mem active unsettled
          exact ⟨hmoves.sound hsound, hmoves.ordered hordered,
            hstays.trans hsound (hmoves.stays hsound hordered hstays.mem hspared
              fun hliquidation => told (hmakes.tells about hliquidation))⟩
        obtain ⟨-, -, hstays⟩ := RunWhere.keeps hkeeps (runs Ledger.blank)
          ⟨sound text queue stored, ordered, Bid.Stays.refl mem⟩
        rw [queues]
        exact ⟨queue₁', AList.lookup_insert _, hstays.mem, hstays.left, hstays.gained⟩
      · rw [queues, AList.lookup_insert_ne htext]
        exact ⟨queue, stored, hidle (sums text htext)⟩

end

/-! ## Runs -/

theorem ordered_reachable {allowed : State → Call → Prop} {start s : State} (fresh : Fresh start)
    (run : RunWhere Steps allowed start s) :
    s.Sound ∧ ∀ text queue, s.queues.lookup text = some queue → (s.bookAt text queue).Ordered := by
  obtain ⟨ledgers', hrun⟩ := Tracked.of_run run fun _ => Ledger.blank
  have hrule := Tracked.runs_keep (P := Book.Ordered)
    (fun _ _ _ _ _ _ _ => ⟨addedQueue_slots Book.newSlot_priced _ _ _,
      ⟨fun _ _ _ => summed_blank, fun _ _ => rfl⟩⟩)
    (fun _ _ _ _ _ _ _ _ _ _ _ hordered _ hmoves => hmoves.ordered hordered)
    hrun (Tracked.tidy_start fresh) (Tracked.every_start _ fresh)
  refine ⟨hrule.1.sound, fun text queue hqueue => ?_⟩
  have hordered := hrule.2 text queue hqueue
  exact ⟨hordered.priced, hordered.summed.found, hordered.summed.absent⟩

theorem runs_stay {start s s' : State} {text : String} {queue : Queue} {bid : Bid}
    (liquidated : Prop) (fresh : Fresh start) (reached : RunWhere Steps (fun _ _ => True) start s)
    (stored : s.queues.lookup text = some queue) (mem : bid ∈ queue.allBids)
    (active : bid.waitEnd = none)
    (run : RunWhere Steps (fun _ call => ¬ call.Settles bid.user text ∧
      (call.LiquidatesFrom text → liquidated)) s s') :
    s'.Sound ∧ ∃ queue', s'.queues.lookup text = some queue' ∧
      bid.Stays liquidated (s.bookAt text queue) (s'.bookAt text queue') := by
  have hkeeps : ∀ mid call mid', (RunWhere Steps (fun _ _ => True) start mid ∧
      ∃ queue', mid.queues.lookup text = some queue' ∧
        bid.Stays liquidated (s.bookAt text queue) (mid.bookAt text queue')) →
      (¬ call.Settles bid.user text ∧ (call.LiquidatesFrom text → liquidated)) →
      Steps mid call mid' → (RunWhere Steps (fun _ _ => True) start mid' ∧
        ∃ queue', mid'.queues.lookup text = some queue' ∧
          bid.Stays liquidated (s.bookAt text queue) (mid'.bookAt text queue')) := by
    rintro mid call mid' ⟨hreach, queue', hqueue', hstays⟩ ⟨hunsettled, htold⟩ hstep
    obtain ⟨hsound, hordered⟩ := ordered_reachable fresh hreach
    obtain ⟨queue'', hqueue'', hnext⟩ := Steps.stays hsound hqueue' (hordered text queue' hqueue')
      hstays.mem active hunsettled htold hstep
    exact ⟨hreach.tail ⟨call, trivial, hstep⟩, queue'', hqueue'',
      hstays.trans (hsound text queue' hqueue') hnext⟩
  obtain ⟨hreach, hstays⟩ := RunWhere.keeps hkeeps run
    ⟨reached, queue, stored, Bid.Stays.refl mem⟩
  exact ⟨(ordered_reachable fresh hreach).1, hstays⟩

def settledAtomics (found : Nat × Decimal256) : Nat :=
  found.1 * Decimal256.fractional + found.2.atomics

/-- What a bid is worth in a later state: what is calculated to be left of it has not grown, and
    the collateral it is calculated to have liquidated has not fallen. -/
structure Bid.KeepsWorth (bid : Bid) (text : String) (s s' : State) (slot slot' : PremiumSlot) :
    Prop where
  left : ∀ found found', calculateRemainingBid bid slot = .ok found →
    calculateRemainingBid bid slot' = .ok found' → settledAtomics found' ≤ settledAtomics found
  liquidated : ∀ found found',
    calculateLiquidatedCollateral s.epochScaleSums bid text = .ok found →
    calculateLiquidatedCollateral s'.epochScaleSums bid text = .ok found' →
    settledAtomics found ≤ settledAtomics found'

theorem Bid.Stays.keepsWorth {bid : Bid} {liquidated : Prop} {s s' : State} {text : String}
    {queue queue' : Queue} {slot slot' : PremiumSlot}
    (stays : bid.Stays liquidated (s.bookAt text queue) (s'.bookAt text queue'))
    (found : queue.findSlot bid.liqPremium = some slot)
    (found' : queue'.findSlot bid.liqPremium = some slot') :
    bid.KeepsWorth text s s' slot slot' := by
  constructor
  · rintro ⟨left, residue⟩ ⟨left', residue'⟩ hleft hleft'
    unfold settledAtomics
    rw [(calculateRemainingBid_eq hleft).2.2, (calculateRemainingBid_eq hleft').2.2]
    exact (stays.left slot slot' found found').1
  · rintro ⟨got, residue⟩ ⟨got', residue'⟩ hgot hgot'
    unfold settledAtomics
    rw [calculateLiquidatedCollateral_eq hgot, calculateLiquidatedCollateral_eq hgot']
    exact Nat.div_le_div_right (Nat.mul_le_mul_right _ (Nat.mul_le_mul_left _ stays.gained.1))

theorem calculateLiquidatedCollateral_congr {sums sums' : EpochScaleSums} {bid : Bid}
    {text : String}
    (same : slotSums sums' text bid.liqPremium = slotSums sums text bid.liqPremium) :
    calculateLiquidatedCollateral sums' bid text = calculateLiquidatedCollateral sums bid text := by
  have hread : ∀ epoch scale, readEpochScaleSum sums' text bid.liqPremium epoch scale =
      readEpochScaleSum sums text bid.liqPremium epoch scale :=
    fun epoch scale => congrFun (congrFun same epoch) scale
  simp only [calculateLiquidatedCollateral, hread]

/-- An active bid is its bidder's: from any state that is reached, over any calls with which
    its user settles nothing on the collateral, it stays in its slot as it is, what is left of it
    never grows and what it has liquidated never falls. Without a liquidation of the collateral
    both stay. -/
theorem bid_entitled {start s : State} (fresh : Fresh start)
    (reached : RunWhere Steps (fun _ _ => True) start s) {text : String} {queue : Queue}
    (stored : s.queues.lookup text = some queue) {slot : PremiumSlot} {bid : Bid}
    (found : queue.findSlot bid.liqPremium = some slot) (active : bid ∈ slot.bids) :
    (∀ s', RunWhere Steps (fun _ call => ¬ call.Settles bid.user text) s s' →
      ∃ queue' slot', s'.queues.lookup text = some queue' ∧
        queue'.findSlot bid.liqPremium = some slot' ∧ bid ∈ slot'.bids ∧
        bid.KeepsWorth text s s' slot slot') ∧
    ∀ s', RunWhere Steps (fun _ call => ¬ call.Settles bid.user text ∧
        ¬ call.LiquidatesFrom text) s s' →
      ∃ queue' slot', s'.queues.lookup text = some queue' ∧
        queue'.findSlot bid.liqPremium = some slot' ∧ bid ∈ slot'.bids ∧
        calculateRemainingBid bid slot' = calculateRemainingBid bid slot ∧
        calculateLiquidatedCollateral s'.epochScaleSums bid text =
          calculateLiquidatedCollateral s.epochScaleSums bid text := by
  have hsound := (ordered_reachable fresh reached).1 text queue stored
  have hmem : bid ∈ queue.allBids :=
    Queue.Sound.mem_allBids_of_slot found (mem_allBids.mpr (Or.inl active))
  have hactive := (hsound.slots slot (Queue.findSlot_mem found)).active bid active
  -- The slot of the bid in a later state, in which it does not wait.
  have hplace : ∀ {s' : State} {queue' : Queue}, s'.Sound → s'.queues.lookup text = some queue' →
      bid ∈ queue'.allBids →
      ∃ slot', queue'.findSlot bid.liqPremium = some slot' ∧ bid ∈ slot'.bids := by
    intro s' queue' hsound' hqueue' hmem'
    obtain ⟨slot', hslot', hbid⟩ := (hsound' text queue' hqueue').home hmem'
    refine ⟨slot', hslot', (mem_allBids.mp hbid).resolve_right fun hwaits => ?_⟩
    have hsome := (((hsound' text queue' hqueue').slots slot'
      (Queue.findSlot_mem hslot')).waiting bid hwaits).1
    rw [hactive] at hsome
    cases hsome
  constructor
  · intro s' run
    obtain ⟨hsound', queue', hqueue', hstays⟩ := runs_stay True fresh reached stored hmem hactive
      (RunWhere.mono (fun _ _ _ hspares _ => ⟨hspares, fun _ => trivial⟩) run)
    obtain ⟨slot', hslot', hbid⟩ := hplace hsound' hqueue' hstays.mem
    exact ⟨queue', slot', hqueue', hslot', hbid, hstays.keepsWorth found hslot'⟩
  · intro s' run
    obtain ⟨hsound', queue', hqueue', hstays⟩ :=
      runs_stay False fresh reached stored hmem hactive run
    obtain ⟨slot', hslot', hbid⟩ := hplace hsound' hqueue' hstays.mem
    have hprice := (hstays.left slot slot' found hslot').2 not_false
    exact ⟨queue', slot', hqueue', hslot', hbid,
      calculateRemainingBid_congr bid hprice.product hprice.epoch hprice.scale,
      calculateLiquidatedCollateral_congr (hstays.gained.2 not_false)⟩

/-! ## A sample run -/

theorem Call.unsettled_of_sender {call : Call} {user : Addr} {text : String}
    (other : call.info.sender ≠ user) : ¬ call.Settles user text := by
  intro hsettles
  cases hsettles with
  | retracts _ _ sender | claims _ _ sender => exact other sender

def sampleShared : List Call :=
  [sampleQueue 10 100000000000, sampleBid 1 "ann" 0 5000, sampleBid 2 "bob" 0 5000]

def sampleBobClaims : List Call :=
  [sampleLiquidation 3 1000,
    sampleCall 4 "bob" 0 (.claimLiquidations (.nativeToken "atom") none)]

/-- On the sample chain ann's bid stays while the slot is liquidated and bob claims. -/
theorem bid_entitled_shared :
    ∃ s s' queue queue' slot slot' bid, execAll Call.exec sampleShared sampleStart = some s ∧
      execAll Call.exec sampleBobClaims s = some s' ∧ s.queues.lookup "atom" = some queue ∧
      queue.findSlot 0 = some slot ∧ bid ∈ slot.bids ∧ bid.user = "ann" ∧
      s'.queues.lookup "atom" = some queue' ∧ queue'.findSlot 0 = some slot' ∧
      bid ∈ slot'.bids ∧ bid.KeepsWorth "atom" s s' slot slot' := by
  have hreads : sampleReads sampleShared (fun queue => (queue.findSlot 0).bind fun slot =>
      (slot.bids.head?).map fun bid => (bid.user, bid.liqPremium)) = some (some ("ann", 0)) := by
    decide +kernel
  have hboth : sampleReads (sampleShared ++ sampleBobClaims) (fun _ => ()) = some () := by
    decide +kernel
  obtain ⟨s, queue, hfirst, hqueue, hread⟩ := sampleReads_eq hreads
  obtain ⟨slot, hslot, hread⟩ := Option.bind_eq_some_iff.mp hread
  obtain ⟨bid, hbid, hread⟩ := Option.map_eq_some_iff.mp hread
  obtain ⟨huser, hpremium⟩ := Prod.mk.inj hread
  obtain ⟨s', -, hall, -⟩ := sampleReads_eq hboth
  have hlater : execAll Call.exec sampleBobClaims s = some s' := by
    rw [execAll_append, hfirst] at hall
    exact hall
  have hrun : RunWhere Steps (fun _ call => ¬ call.Settles bid.user "atom") s s' := by
    refine execAll_run (fun _ _ _ h => h) (fun call hcall _ => ?_) hlater
    refine Call.unsettled_of_sender ?_
    rw [huser]
    simp only [sampleBobClaims, List.mem_cons, List.not_mem_nil, or_false] at hcall
    rcases hcall with rfl | rfl <;> decide
  rw [← hpremium] at hslot
  obtain ⟨queue', slot', hqueue', hslot', hmem, hworth⟩ := (bid_entitled sampleStart_fresh
    (execAll_run (fun _ _ _ h => h) (fun _ _ _ => trivial) hfirst) hqueue hslot
    (List.mem_of_mem_head? hbid)).1 s' hrun
  rw [hpremium] at hslot hslot'
  exact ⟨s, s', queue, queue', slot, slot', bid, hfirst, hlater, hqueue, hslot,
    List.mem_of_mem_head? hbid, huser, hqueue', hslot', hmem, hworth⟩

end Membrane.LiqQueue
