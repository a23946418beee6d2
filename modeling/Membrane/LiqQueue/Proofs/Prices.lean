import Membrane.LiqQueue.Proofs.Reach

/-!
# Products and snapshots

The product of a slot only falls while its epoch lasts, by a factor for each scale, so no
bid is ever worth more than it was settled at.
-/

namespace Membrane.LiqQueue

open Outcome

structure Bid.Priced (bid : Bid) (slot : PremiumSlot) : Prop where
  epoch : bid.epochSnapshot ≤ slot.currentEpoch
  scale : bid.epochSnapshot = slot.currentEpoch → bid.scaleSnapshot ≤ slot.currentScale
  same : bid.epochSnapshot = slot.currentEpoch → bid.scaleSnapshot = slot.currentScale →
    slot.productSnapshot.atomics ≤ bid.productSnapshot.atomics
  next : bid.epochSnapshot = slot.currentEpoch → bid.scaleSnapshot + 1 = slot.currentScale →
    slot.productSnapshot.atomics ≤ bid.productSnapshot.atomics * 1000000000

/-- A slot whose product is at most one and not above those of its bids. -/
structure PremiumSlot.Priced (slot : PremiumSlot) : Prop where
  product : slot.productSnapshot.atomics ≤ Decimal256.fractional
  bids : ∀ bid ∈ slot.allBids, bid.Priced slot

def Queue.Priced (queue : Queue) : Prop := ∀ slot ∈ queue.slots, slot.Priced

namespace Bid

variable {bid : Bid} {slot slot' : PremiumSlot}

theorem Priced.remainingAtomics_le (h : bid.Priced slot) :
    bid.remainingAtomics slot ≤ bid.amount * Decimal256.fractional := by
  unfold remainingAtomics
  split
  case isTrue => exact Nat.zero_le _
  case isFalse hepoch =>
    have hepoch' : bid.epochSnapshot = slot.currentEpoch := (not_not.mp hepoch).symm
    have hratio : ∀ product, product ≤ bid.productSnapshot.atomics →
        bid.amount * product * Decimal256.fractional / bid.productSnapshot.atomics ≤
          bid.amount * Decimal256.fractional := by
      intro product hle
      have hmul : bid.amount * product * Decimal256.fractional ≤
          bid.amount * Decimal256.fractional * bid.productSnapshot.atomics := by
        rw [Nat.mul_right_comm]
        exact Nat.mul_le_mul_left _ hle
      exact Nat.div_le_of_le_mul (hmul.trans_eq (Nat.mul_comm _ _))
    split
    case isTrue hscale => exact hratio _ (h.same hepoch' hscale.symm)
    case isFalse =>
      split
      case isTrue hscale =>
        have hle := h.next hepoch' hscale.symm
        rw [Nat.div_div_eq_div_mul]
        have hmul : bid.amount * slot.productSnapshot.atomics * Decimal256.fractional ≤
            bid.amount * Decimal256.fractional * (bid.productSnapshot.atomics * 1000000000) := by
          rw [Nat.mul_right_comm]
          exact Nat.mul_le_mul_left _ hle
        exact Nat.div_le_of_le_mul (hmul.trans_eq (Nat.mul_comm _ _))
      case isFalse => exact Nat.zero_le _

theorem Priced.remaining_le (h : bid.Priced slot) {remaining : Nat} {residue : Decimal256}
    (done : calculateRemainingBid bid slot = .ok (remaining, residue)) :
    remaining ≤ bid.amount := by
  have heq := (calculateRemainingBid_eq done).2.2
  have hle := h.remainingAtomics_le
  have hmul : remaining * Decimal256.fractional ≤ bid.amount * Decimal256.fractional := by omega
  exact Nat.le_of_mul_le_mul_right hmul Decimal256.fractional_pos

theorem priced_of_current {kept : Bid} (epoch : kept.epochSnapshot ≤ slot.currentEpoch)
    (scale : kept.scaleSnapshot = slot.currentScale)
    (product : kept.productSnapshot = slot.productSnapshot) : kept.Priced slot := by
  refine ⟨epoch, fun _ => ?_, fun _ _ => ?_, fun _ hnext => ?_⟩
  · rw [scale]
  · rw [product]
  · omega

theorem Priced.congr (h : bid.Priced slot) (product : slot'.productSnapshot = slot.productSnapshot)
    (epoch : slot'.currentEpoch = slot.currentEpoch)
    (scale : slot'.currentScale = slot.currentScale) : bid.Priced slot' := by
  refine ⟨?_, ?_, ?_, ?_⟩
  · rw [epoch]
    exact h.epoch
  · rw [epoch, scale]
    exact h.scale
  · rw [epoch, scale, product]
    exact h.same
  · rw [epoch, scale, product]
    exact h.next

end Bid

/-! ## The product of a liquidation -/

/-- What an update of the product does: the epoch ends, or the product falls, in the same
    scale or in the next. -/
inductive Updated (slot slot' : PremiumSlot) (expense : Decimal256) : Prop where
  | restarted (whole : expense = Decimal256.one)
      (epoch : slot'.currentEpoch = slot.currentEpoch + 1) (scale : slot'.currentScale = 0)
      (product : slot'.productSnapshot = Decimal256.one)
      (sum : slot'.sumSnapshot = Decimal256.zero)
  | scaled (part : expense.atomics < Decimal256.fractional)
      (epoch : slot'.currentEpoch = slot.currentEpoch)
      (scale : slot'.currentScale = slot.currentScale + 1)
      (small : slot.productSnapshot.atomics * (Decimal256.fractional - expense.atomics) /
        Decimal256.fractional < 1000000000)
      (product : slot'.productSnapshot.atomics = slot.productSnapshot.atomics * 1000000000 *
        (Decimal256.fractional - expense.atomics) / Decimal256.fractional)
      (sum : slot'.sumSnapshot = slot.sumSnapshot)
  | lowered (part : expense.atomics < Decimal256.fractional)
      (epoch : slot'.currentEpoch = slot.currentEpoch)
      (scale : slot'.currentScale = slot.currentScale)
      (large : 1000000000 ≤ slot.productSnapshot.atomics *
        (Decimal256.fractional - expense.atomics) / Decimal256.fractional)
      (product : slot'.productSnapshot.atomics = slot.productSnapshot.atomics *
        (Decimal256.fractional - expense.atomics) / Decimal256.fractional)
      (sum : slot'.sumSnapshot = slot.sumSnapshot)

theorem updateProduct_updated {slot slot' : PremiumSlot} {expense : Decimal256}
    (done : updateProduct slot expense = .ok slot') : Updated slot slot' expense := by
  unfold updateProduct at done
  split at done
  case isTrue hwhole =>
    simp only [bind_eq_ok, pure_eq_ok, Uint128.add_eq_ok] at done
    obtain ⟨_, ⟨-, rfl⟩, rfl⟩ := done
    exact .restarted hwhole rfl rfl rfl rfl
  case isFalse hpart =>
    simp only [bind_eq_ok, Decimal256.sub_eq_ok, Decimal256.mul_eq_ok] at done
    obtain ⟨_, ⟨hle, rfl⟩, _, ⟨-, rfl⟩, done⟩ := done
    have hlt : expense.atomics < Decimal256.fractional := by
      refine Nat.lt_of_le_of_ne hle fun heq => hpart ?_
      cases expense
      exact congrArg Decimal256.mk heq
    split at done
    case isTrue hsmall =>
      simp only [bind_eq_ok, pure_eq_ok, Uint128.add_eq_ok, Uint256.mul_eq_ok,
        Decimal256.mul_eq_ok] at done
      obtain ⟨_, ⟨-, rfl⟩, _, ⟨-, rfl⟩, _, ⟨-, rfl⟩, rfl⟩ := done
      exact .scaled hlt rfl rfl hsmall rfl rfl
    case isFalse hlarge =>
      simp only [pure_eq_ok] at done
      subst done
      exact .lowered hlt rfl rfl (Nat.le_of_not_lt hlarge) rfl rfl

theorem Updated.product_le {slot slot' : PremiumSlot} {expense : Decimal256}
    (h : Updated slot slot' expense)
    (product : slot.productSnapshot.atomics ≤ Decimal256.fractional) :
    slot'.productSnapshot.atomics ≤ Decimal256.fractional := by
  cases h with
  | restarted _ _ _ hproduct => rw [hproduct]; exact Nat.le_refl _
  | scaled hpart _ _ hsmall hproduct =>
    rw [hproduct]
    have hlt := (Nat.div_lt_iff_lt_mul Decimal256.fractional_pos).mp hsmall
    refine Nat.div_le_of_le_mul ?_
    have hmul := Nat.mul_le_mul_right 1000000000 (Nat.le_of_lt hlt)
    calc slot.productSnapshot.atomics * 1000000000 * (Decimal256.fractional - expense.atomics)
        = slot.productSnapshot.atomics * (Decimal256.fractional - expense.atomics) *
            1000000000 := Nat.mul_right_comm _ _ _
      _ ≤ 1000000000 * Decimal256.fractional * 1000000000 := hmul
      _ = Decimal256.fractional * Decimal256.fractional := by decide
  | lowered hpart _ _ _ hproduct =>
    rw [hproduct]
    refine Nat.div_le_of_le_mul ?_
    calc slot.productSnapshot.atomics * (Decimal256.fractional - expense.atomics)
        ≤ Decimal256.fractional * Decimal256.fractional :=
      Nat.mul_le_mul product (Nat.sub_le _ _)

theorem Updated.priced {slot slot' : PremiumSlot} {expense : Decimal256} {bid : Bid}
    (h : Updated slot slot' expense) (priced : bid.Priced slot) : bid.Priced slot' := by
  have hepoch := priced.epoch
  cases h with
  | restarted _ hepoch' _ _ =>
    refine ⟨by omega, fun heq => by omega, fun heq => by omega, fun heq => by omega⟩
  | scaled hpart hepoch' hscale' _ hproduct =>
    have hle : slot'.productSnapshot.atomics ≤ slot.productSnapshot.atomics * 1000000000 := by
      rw [hproduct]
      refine Nat.div_le_of_le_mul ?_
      rw [Nat.mul_comm Decimal256.fractional]
      exact Nat.mul_le_mul_left _ (Nat.sub_le _ _)
    refine ⟨by omega, fun heq => ?_, fun heq hscale => ?_, fun heq hscale => ?_⟩
    · have := priced.scale (by omega)
      omega
    · have := priced.scale (by omega)
      omega
    · have hsame := priced.same (by omega) (by omega)
      exact hle.trans (Nat.mul_le_mul_right _ hsame)
  | lowered hpart hepoch' hscale' _ hproduct =>
    have hle : slot'.productSnapshot.atomics ≤ slot.productSnapshot.atomics := by
      rw [hproduct]
      refine Nat.div_le_of_le_mul ?_
      rw [Nat.mul_comm Decimal256.fractional]
      exact Nat.mul_le_mul_left _ (Nat.sub_le _ _)
    refine ⟨by omega, fun heq => ?_, fun heq hscale => ?_, fun heq hscale => ?_⟩
    · have := priced.scale (by omega)
      omega
    · exact hle.trans (priced.same (by omega) (by omega))
    · exact hle.trans (priced.next (by omega) (by omega))

/-! ## Moves -/

theorem newBid_priced {slot : PremiumSlot} (user : Addr) (id amount liqPremium waitEnd : Nat)
    (product : slot.productSnapshot.atomics ≤ Decimal256.fractional) :
    (waitingBid user id amount liqPremium waitEnd).Priced slot := by
  refine ⟨Nat.zero_le _, fun _ => Nat.zero_le _, fun _ _ => product, fun _ _ => ?_⟩
  exact product.trans (Nat.le_mul_of_pos_right _ (by decide))

namespace SlotMoves

variable {sums sums' : SlotSums} {slot slot' : PremiumSlot} {move : SlotMove}

theorem priced (moves : SlotMoves sums slot move slot' sums') (h : slot.Priced) : slot'.Priced := by
  have hbefore : ∀ bid ∈ slot'.allBids, bid.Priced slot := by
    intro bid hbid
    cases moves.arises hbid with
    | same mem => exact h.bids bid mem
    | made | activated => exact Bid.priced_of_current (Nat.le_refl _) rfl rfl
    | waits => exact newBid_priced _ _ _ _ _ h.product
    | settled mem => exact Bid.priced_of_current (h.bids _ mem).epoch rfl rfl
    | reduced mem =>
      have hbid := h.bids _ (mem_allBids.mpr (Or.inr mem))
      exact ⟨hbid.epoch, hbid.scale, hbid.same, hbid.next⟩
  rcases moves.frame with ⟨fill, rfl⟩ | ⟨hproduct, -, hepoch, hscale, -⟩
  · cases moves with
    | @liquidate _ spent _ spends update =>
      have hspent : spent.productSnapshot = slot.productSnapshot ∧
          spent.currentEpoch = slot.currentEpoch ∧ spent.currentScale = slot.currentScale := by
        rw [spends.frame]
        exact ⟨rfl, rfl, rfl⟩
      obtain ⟨hproduct, hepoch, hscale⟩ := hspent
      have hupdated := updateProduct_updated update
      refine ⟨hupdated.product_le (by rw [hproduct]; exact h.product), fun bid hbid => ?_⟩
      exact hupdated.priced ((hbefore bid hbid).congr hproduct hepoch hscale)
  · refine ⟨by rw [hproduct]; exact h.product, fun bid hbid => ?_⟩
    exact (hbefore bid hbid).congr hproduct hepoch hscale

end SlotMoves

namespace Book

variable {b b' : Book}

theorem newSlot_priced (premium : Nat) : (newSlot premium).Priced := by
  refine ⟨Nat.le_refl _, fun bid hbid => ?_⟩
  cases hbid

theorem Moves.every_slot {Q : PremiumSlot → Prop} {m : Move} (moves : b.Moves m b')
    (h : ∀ slot ∈ b.queue.slots, Q slot) (made : ∀ premium, Q (newSlot premium))
    (moved : ∀ premium slot move slot' sums', m = .slot premium move →
      b.queue.findSlot premium = some slot →
      SlotMoves (b.sums premium) slot move slot' sums' → Q slot → Q slot') :
    ∀ slot ∈ b'.queue.slots, Q slot := by
  cases moves with
  | @slot premium slot move slot' sums' found ready moves =>
    intro other hother
    rcases Queue.mem_replaceSlots hother with ⟨hmem, -⟩ | rfl
    · have hmem' : other ∈ (move.count b.queue).slots := hmem
      rw [Queue.count_slots] at hmem'
      exact h other hmem'
    · exact moved premium slot move other sums' rfl found moves
        (h slot (Queue.findSlot_mem found))
  | skipBidId | burn | setBidThreshold => exact h
  | setMaxPremium done =>
    intro other hother
    rw [(setMaxPremium_slots done).2] at hother
    rcases List.mem_append.mp hother with hmem | hmem
    · exact h other hmem
    · obtain ⟨premium, -, rfl⟩ := List.mem_map.mp hmem
      exact made premium

theorem Moves.priced {m : Move} (moves : b.Moves m b') (h : b.queue.Priced) : b'.queue.Priced :=
  moves.every_slot h newSlot_priced fun _ _ _ _ _ _ _ hmoves hslot => hmoves.priced hslot

end Book

theorem addedQueue_slots {Q : PremiumSlot → Prop} (made : ∀ premium, Q (newSlot premium))
    (config : Config) (maxPremium bidThreshold : Nat) :
    ∀ slot ∈ (addedQueue config maxPremium bidThreshold).slots, Q slot := by
  intro slot hslot
  obtain ⟨premium, -, rfl⟩ := List.mem_map.mp hslot
  exact made premium

end Membrane.LiqQueue
