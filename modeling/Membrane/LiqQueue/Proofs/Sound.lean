import Membrane.LiqQueue.Proofs.Moves
import Mathlib.Data.List.Perm.Subperm

/-!
# What every move keeps of a queue

The bids of a slot are of its premium, active ones do not wait and waiting ones do, and
no two bids of a queue share an id. Behind the first slot of a premium there may be
others, which are as they were made.
-/

namespace Membrane.LiqQueue

open Outcome

/-- A slot whose bids are of its premium and in the right list. -/
structure PremiumSlot.Sound (slot : PremiumSlot) : Prop where
  home : ∃ premium, slot.liqPremium = Decimal256.percent premium
  placed : ∀ bid ∈ slot.allBids, slot.liqPremium = Decimal256.percent bid.liqPremium
  active : ∀ bid ∈ slot.bids, bid.waitEnd = none
  waiting : ∀ bid ∈ slot.waitingBids, bid.waitEnd.isSome = true ∧ bid.amount ≠ 0

def Blank (slot : PremiumSlot) : Prop := ∃ premium, slot = newSlot premium

/-- A queue with sound slots and distinct bids. -/
structure Queue.Sound (queue : Queue) : Prop where
  shadowed : KeyedList.Shadowed PremiumSlot.liqPremium Blank queue.slots
  slots : ∀ slot ∈ queue.slots, slot.Sound
  distinct : (queue.allBids.map Bid.id).Nodup
  below : ∀ bid ∈ queue.allBids, 0 < bid.id ∧ bid.id < queue.currentBidId
  next : 0 < queue.currentBidId

/-! ## Lists of bids -/

@[simp]
theorem mem_allBids {slot : PremiumSlot} {bid : Bid} :
    bid ∈ slot.allBids ↔ bid ∈ slot.bids ∨ bid ∈ slot.waitingBids := List.mem_append

theorem ids_allBids (slot : PremiumSlot) :
    slot.allBids.map Bid.id = slot.bids.map Bid.id ++ slot.waitingBids.map Bid.id :=
  List.map_append

@[simp]
theorem mem_withoutBid {id : Nat} {bids : List Bid} {bid : Bid} :
    bid ∈ withoutBid id bids ↔ bid ∈ bids ∧ bid.id ≠ id := by
  simp [withoutBid]

@[simp]
theorem allBids_newSlot (premium : Nat) : (newSlot premium).allBids = [] := rfl

theorem allBids_of_blank {slot : PremiumSlot} (blank : Blank slot) : slot.allBids = [] := by
  obtain ⟨premium, rfl⟩ := blank
  rfl

theorem withoutBid_of_absent {id : Nat} {bids : List Bid} (absent : id ∉ bids.map Bid.id) :
    withoutBid id bids = bids := by
  refine List.filter_eq_self.mpr fun bid hbid => ?_
  simpa using fun heq : bid.id = id => absent (heq ▸ List.mem_map_of_mem hbid)

theorem mem_keptWaiting {bid kept : Bid} {amount : Nat} (h : kept ∈ keptWaiting bid amount) :
    amount ≠ bid.amount ∧ kept = { bid with amount := bid.amount - amount } := by
  unfold keptWaiting at h
  split at h
  case isTrue => cases h
  case isFalse hne => exact ⟨hne, List.mem_singleton.mp h⟩

theorem mem_keptActive {slot : PremiumSlot} {bid kept : Bid} {found : Settlement} {amount : Nat}
    (h : kept ∈ keptActive slot bid found amount) :
    kept = bid.settledAt slot (found.remaining - amount)
      (bid.pendingLiquidatedCollateral + found.liquidated) := by
  unfold keptActive at h
  split at h
  case isTrue => cases h
  case isFalse => exact List.mem_singleton.mp h

theorem mem_keptClaimed {slot : PremiumSlot} {bid kept : Bid} {found : Settlement}
    (h : kept ∈ keptClaimed slot bid found) :
    1 < found.remaining ∧ kept = bid.settledAt slot found.remaining 0 := by
  unfold keptClaimed at h
  split at h
  case isTrue => cases h
  case isFalse hle => exact ⟨by omega, List.mem_singleton.mp h⟩

theorem ids_rewrite {bids kept : List Bid} {bid : Bid} (mem : bid ∈ bids)
    (same : kept.map Bid.id = [] ∨ kept.map Bid.id = [bid.id]) :
    ((withoutBid bid.id bids ++ kept).map Bid.id).Subperm (bids.map Bid.id) := by
  have hperm := List.perm_cons_erase mem
  have hrest : (withoutBid bid.id bids).Perm (withoutBid bid.id (bids.erase bid)) := by
    have hfiltered := hperm.filter fun other => other.id ≠ bid.id
    rwa [List.filter_cons_of_neg (by simp)] at hfiltered
  have hkept : (kept.map Bid.id).Subperm [bid.id] := by
    rcases same with h | h
    · rw [h]
      exact List.nil_subperm
    · rw [h]
  have hsub : ((withoutBid bid.id bids).map Bid.id).Subperm ((bids.erase bid).map Bid.id) :=
    ((hrest.map Bid.id).subperm).trans
      ((List.filter_sublist.map Bid.id).subperm)
  have hall : ((withoutBid bid.id bids ++ kept).map Bid.id).Subperm
      ((bids.erase bid).map Bid.id ++ [bid.id]) := by
    rw [List.map_append]
    exact List.Subperm.append hsub hkept
  exact hall.trans (List.perm_append_singleton _ _ |>.trans (hperm.map Bid.id).symm).subperm

theorem ids_keptWaiting (bid : Bid) (amount : Nat) :
    (keptWaiting bid amount).map Bid.id = [] ∨ (keptWaiting bid amount).map Bid.id = [bid.id] := by
  unfold keptWaiting
  split
  · exact Or.inl rfl
  · exact Or.inr rfl

theorem ids_keptActive (slot : PremiumSlot) (bid : Bid) (found : Settlement) (amount : Nat) :
    (keptActive slot bid found amount).map Bid.id = [] ∨
      (keptActive slot bid found amount).map Bid.id = [bid.id] := by
  unfold keptActive
  split
  · exact Or.inl rfl
  · exact Or.inr rfl

theorem ids_keptClaimed (slot : PremiumSlot) (bid : Bid) (found : Settlement) :
    (keptClaimed slot bid found).map Bid.id = [] ∨
      (keptClaimed slot bid found).map Bid.id = [bid.id] := by
  unfold keptClaimed
  split
  · exact Or.inl rfl
  · exact Or.inr rfl

/-! ## Slots -/

theorem updateProduct_frame {slot slot' : PremiumSlot} {expense : Decimal256}
    (done : updateProduct slot expense = .ok slot') :
    slot'.bids = slot.bids ∧ slot'.waitingBids = slot.waitingBids ∧
      slot'.liqPremium = slot.liqPremium ∧ slot'.totalBidAmount = slot.totalBidAmount ∧
      slot'.residueCollateral = slot.residueCollateral ∧ slot'.residueBid = slot.residueBid := by
  unfold updateProduct at done
  split at done
  case isTrue =>
    simp only [bind_eq_ok, pure_eq_ok] at done
    obtain ⟨_, -, rfl⟩ := done
    exact ⟨rfl, rfl, rfl, rfl, rfl, rfl⟩
  case isFalse =>
    simp only [bind_eq_ok] at done
    obtain ⟨_, -, _, -, done⟩ := done
    split at done
    case isTrue =>
      simp only [bind_eq_ok, pure_eq_ok] at done
      obtain ⟨_, -, _, -, _, -, rfl⟩ := done
      exact ⟨rfl, rfl, rfl, rfl, rfl, rfl⟩
    case isFalse =>
      simp only [pure_eq_ok] at done
      subst done
      exact ⟨rfl, rfl, rfl, rfl, rfl, rfl⟩

def SlotMove.newIds : SlotMove → List Nat
  | .join bid => [bid.id]
  | .wait bid => [bid.id]
  | _ => []

def SlotMove.settled : SlotMove → List Nat
  | .activate bid => [bid.id]
  | .unqueue bid _ => [bid.id]
  | .withdraw bid _ _ => [bid.id]
  | .claim bid _ => [bid.id]
  | _ => []

def Move.settled : Move → List Nat
  | .slot _ move => move.settled
  | _ => []

/-- Where a bid of a slot can come from in a move: it was there, it was activated or made,
    or it is what is left of one that was there. -/
inductive Bid.Arises (slot : PremiumSlot) : Bid → Prop where
  | same {bid : Bid} (mem : bid ∈ slot.allBids) : Bid.Arises slot bid
  | made {user id amount liqPremium} (fits : amount < Uint128.limit) :
      Bid.Arises slot (processBidActivation (newBid user id amount liqPremium) slot)
  | activated {bid : Bid} (mem : bid ∈ slot.waitingBids) :
      Bid.Arises slot (processBidActivation bid slot)
  | waits {user id amount liqPremium waitEnd} (fits : amount < Uint128.limit) :
      Bid.Arises slot (waitingBid user id amount liqPremium waitEnd)
  | settled {bid : Bid} {remaining amount pending residue} (mem : bid ∈ slot.allBids)
      (left : calculateRemainingBid bid slot = .ok (remaining, residue))
      (most : amount ≤ remaining) : Bid.Arises slot (bid.settledAt slot amount pending)
  | reduced {bid : Bid} {amount} (mem : bid ∈ slot.waitingBids) (most : amount ≤ bid.amount) :
      Bid.Arises slot { bid with amount := amount }

namespace PremiumSlot

variable {slot slot' : PremiumSlot}

theorem Spent.bids_eq {fill : PoolFill} (h : slot.Spent fill slot') :
    slot'.bids = slot.bids ∧ slot'.waitingBids = slot.waitingBids ∧
      slot'.liqPremium = slot.liqPremium := by
  rw [h.frame]
  exact ⟨rfl, rfl, rfl⟩

theorem Spent.updated {fill : PoolFill} {spent : PremiumSlot} {expense : Decimal256}
    (h : slot.Spent fill spent) (update : updateProduct spent expense = .ok slot') :
    slot'.bids = slot.bids ∧ slot'.waitingBids = slot.waitingBids ∧
      slot'.liqPremium = slot.liqPremium := by
  obtain ⟨hbids, hwaiting, hpremium, -⟩ := updateProduct_frame update
  obtain ⟨hbids', hwaiting', hpremium'⟩ := h.bids_eq
  exact ⟨hbids.trans hbids', hwaiting.trans hwaiting', hpremium.trans hpremium'⟩

theorem Claimed.liqPremium_eq {found : Settlement} {residue : Nat}
    (h : slot.Claimed found residue slot') : slot'.liqPremium = slot.liqPremium := by
  rw [h.frame]

theorem Withdrawn.liqPremium_eq {found : Settlement} {amount residue : Nat}
    (h : slot.Withdrawn found amount residue slot') :
    slot'.liqPremium = slot.liqPremium ∧ slot'.waitingBids = slot.waitingBids := by
  rw [h.frame]
  exact ⟨rfl, rfl⟩

end PremiumSlot

namespace SlotMoves

variable {sums sums' : SlotSums} {slot slot' : PremiumSlot} {move : SlotMove}

theorem liqPremium_eq (moves : SlotMoves sums slot move slot' sums') :
    slot'.liqPremium = slot.liqPremium := by
  cases moves with
  | join | wait | activate | touch | unqueue => rfl
  | liquidate spends update => exact (spends.updated update).2.2
  | withdraw _ _ _ withdraws => exact withdraws.liqPremium_eq.1
  | claim _ _ claims => exact claims.liqPremium_eq
  | claimWaiting _ _ claims => exact claims.liqPremium_eq

theorem ids (moves : SlotMoves sums slot move slot' sums') :
    (slot'.allBids.map Bid.id).Subperm (move.newIds ++ slot.allBids.map Bid.id) := by
  rw [ids_allBids, ids_allBids]
  cases moves with
  | join =>
    simp only [PremiumSlot.join, SlotMove.newIds, List.map_append, List.append_assoc]
    exact List.perm_middle.subperm
  | wait =>
    simp only [SlotMove.newIds, List.map_append, ← List.append_assoc]
    exact List.perm_append_comm.subperm
  | activate waits =>
    rw [waits]
    simp only [PremiumSlot.join, SlotMove.newIds, List.map_append, List.map_cons, List.map_nil,
      List.nil_append, List.append_assoc, List.cons_append]
    exact (List.perm_middle.symm.append_left _).subperm
  | touch => exact List.Subperm.refl _
  | liquidate spends update =>
    obtain ⟨hbids, hwaiting, -⟩ := spends.updated update
    rw [hbids, hwaiting]
    exact List.Subperm.refl _
  | unqueue waits =>
    exact (List.Subperm.refl _).append (ids_rewrite waits (ids_keptWaiting _ _))
  | withdraw active _ _ withdraws bids =>
    rw [bids, withdraws.liqPremium_eq.2]
    exact (ids_rewrite active (ids_keptActive _ _ _ _)).append (List.Subperm.refl _)
  | claim active _ _ bids waiting =>
    rw [bids, waiting]
    exact (ids_rewrite active (ids_keptClaimed _ _ _)).append (List.Subperm.refl _)
  | claimWaiting waits _ _ bids waiting =>
    rw [bids, waiting]
    exact (List.Subperm.refl _).append (ids_rewrite waits (ids_keptClaimed _ _ _))

theorem keeps_bid (moves : SlotMoves sums slot move slot' sums') {other : Bid}
    (mem : other ∈ slot.allBids) (ne : other.id ∉ move.settled) : other ∈ slot'.allBids := by
  rw [mem_allBids] at mem ⊢
  cases moves with
  | join => exact mem.imp_left (List.mem_append_left _)
  | wait => exact mem.imp_right (List.mem_append_left _)
  | activate waits =>
    have hne : other.id ≠ _ := fun h => ne (List.mem_singleton.mpr h)
    rw [waits] at mem
    refine mem.imp (List.mem_append_left _) fun hwaits => ?_
    rcases List.mem_append.mp hwaits with h | h
    · exact List.mem_append_left _ h
    · rcases List.mem_cons.mp h with rfl | h
      · exact absurd rfl hne
      · exact List.mem_append_right _ h
  | touch => exact mem
  | liquidate spends update =>
    obtain ⟨hbids, hwaiting, -⟩ := spends.updated update
    rw [hbids, hwaiting]
    exact mem
  | unqueue =>
    have hne : other.id ≠ _ := fun h => ne (List.mem_singleton.mpr h)
    exact mem.imp_right fun h => List.mem_append_left _ (mem_withoutBid.mpr ⟨h, hne⟩)
  | withdraw _ _ _ withdraws bids =>
    have hne : other.id ≠ _ := fun h => ne (List.mem_singleton.mpr h)
    rw [bids, withdraws.liqPremium_eq.2]
    exact mem.imp_left fun h => List.mem_append_left _ (mem_withoutBid.mpr ⟨h, hne⟩)
  | claim _ _ _ bids waiting =>
    have hne : other.id ≠ _ := fun h => ne (List.mem_singleton.mpr h)
    rw [bids, waiting]
    exact mem.imp_left fun h => List.mem_append_left _ (mem_withoutBid.mpr ⟨h, hne⟩)
  | claimWaiting _ _ _ bids waiting =>
    have hne : other.id ≠ _ := fun h => ne (List.mem_singleton.mpr h)
    rw [bids, waiting]
    exact mem.imp_right fun h => List.mem_append_left _ (mem_withoutBid.mpr ⟨h, hne⟩)

theorem frame (moves : SlotMoves sums slot move slot' sums') :
    (∃ fill, move = .liquidate fill) ∨
      (slot'.productSnapshot = slot.productSnapshot ∧ slot'.sumSnapshot = slot.sumSnapshot ∧
        slot'.currentEpoch = slot.currentEpoch ∧ slot'.currentScale = slot.currentScale ∧
        sums' = sums) := by
  cases moves with
  | join | wait | activate | touch | unqueue => exact Or.inr ⟨rfl, rfl, rfl, rfl, rfl⟩
  | liquidate => exact Or.inl ⟨_, rfl⟩
  | withdraw _ _ _ withdraws =>
    refine Or.inr ?_
    rw [withdraws.frame]
    exact ⟨rfl, rfl, rfl, rfl, rfl⟩
  | claim _ _ claims | claimWaiting _ _ claims =>
    refine Or.inr ?_
    rw [claims.frame]
    exact ⟨rfl, rfl, rfl, rfl, rfl⟩

theorem arises (moves : SlotMoves sums slot move slot' sums') {other : Bid}
    (mem : other ∈ slot'.allBids) : other.Arises slot := by
  rw [mem_allBids] at mem
  have hsame : ∀ {bid}, bid ∈ slot.bids ∨ bid ∈ slot.waitingBids → bid.Arises slot :=
    fun h => .same (mem_allBids.mpr h)
  cases moves with
  | join _ fits =>
    rcases mem with mem | mem
    · rcases List.mem_append.mp mem with h | h
      · exact hsame (Or.inl h)
      · obtain rfl := List.mem_singleton.mp h
        exact .made fits
    · exact hsame (Or.inr mem)
  | wait _ _ fits =>
    rcases mem with mem | mem
    · exact hsame (Or.inl mem)
    · rcases List.mem_append.mp mem with h | h
      · exact hsame (Or.inr h)
      · obtain rfl := List.mem_singleton.mp h
        exact .waits fits
  | activate waits =>
    rcases mem with mem | mem
    · rcases List.mem_append.mp mem with h | h
      · exact hsame (Or.inl h)
      · obtain rfl := List.mem_singleton.mp h
        exact .activated (waits ▸ List.mem_append_right _ List.mem_cons_self)
    · refine hsame (Or.inr ?_)
      rw [waits]
      rcases List.mem_append.mp mem with h | h
      · exact List.mem_append_left _ h
      · exact List.mem_append_right _ (List.mem_cons_of_mem _ h)
  | touch => exact hsame mem
  | liquidate spends update =>
    obtain ⟨hbids, hwaiting, -⟩ := spends.updated update
    rw [hbids, hwaiting] at mem
    exact hsame mem
  | unqueue waits =>
    rcases mem with mem | mem
    · exact hsame (Or.inl mem)
    · rcases List.mem_append.mp mem with h | h
      · exact hsame (Or.inr (mem_withoutBid.mp h).1)
      · obtain ⟨-, rfl⟩ := mem_keptWaiting h
        exact .reduced waits (Nat.sub_le _ _)
  | withdraw active settles _ withdraws bids =>
    rw [bids, withdraws.liqPremium_eq.2] at mem
    rcases mem with mem | mem
    · rcases List.mem_append.mp mem with h | h
      · exact hsame (Or.inl (mem_withoutBid.mp h).1)
      · obtain rfl := mem_keptActive h
        exact .settled (mem_allBids.mpr (Or.inl active)) settles.left (Nat.sub_le _ _)
    · exact hsame (Or.inr mem)
  | claim active settles _ bids waiting =>
    rw [bids, waiting] at mem
    rcases mem with mem | mem
    · rcases List.mem_append.mp mem with h | h
      · exact hsame (Or.inl (mem_withoutBid.mp h).1)
      · obtain ⟨-, rfl⟩ := mem_keptClaimed h
        exact .settled (mem_allBids.mpr (Or.inl active)) settles.left (Nat.le_refl _)
    · exact hsame (Or.inr mem)
  | claimWaiting waits settles _ bids waiting =>
    rw [bids, waiting] at mem
    rcases mem with mem | mem
    · exact hsame (Or.inl mem)
    · rcases List.mem_append.mp mem with h | h
      · exact hsame (Or.inr (mem_withoutBid.mp h).1)
      · obtain ⟨-, rfl⟩ := mem_keptClaimed h
        exact .settled (mem_allBids.mpr (Or.inr waits)) settles.left (Nat.le_refl _)

theorem mem_bids (moves : SlotMoves sums slot move slot' sums') {other : Bid}
    (mem : other ∈ slot'.bids) :
    other ∈ slot.bids ∨ (other.waitEnd = none ∧
      (slot.liqPremium = Decimal256.percent other.liqPremium ∨
        ∃ bid ∈ slot.waitingBids, other.liqPremium = bid.liqPremium)) ∨
      ∃ bid ∈ slot.bids, other.liqPremium = bid.liqPremium ∧ other.waitEnd = bid.waitEnd := by
  cases moves with
  | join home =>
    rcases List.mem_append.mp mem with h | h
    · exact Or.inl h
    · obtain rfl := List.mem_singleton.mp h
      exact Or.inr (Or.inl ⟨rfl, Or.inl home⟩)
  | wait | touch | unqueue => exact Or.inl mem
  | @activate bid before behind waits =>
    rcases List.mem_append.mp mem with h | h
    · exact Or.inl h
    · obtain rfl := List.mem_singleton.mp h
      refine Or.inr (Or.inl ⟨rfl, Or.inr ⟨bid, ?_, rfl⟩⟩)
      rw [waits]
      exact List.mem_append_right _ List.mem_cons_self
  | liquidate spends update =>
    rw [(spends.updated update).1] at mem
    exact Or.inl mem
  | @withdraw bid _ _ _ _ active _ _ _ bids =>
    rw [bids] at mem
    rcases List.mem_append.mp mem with h | h
    · exact Or.inl (mem_withoutBid.mp h).1
    · obtain rfl := mem_keptActive h
      exact Or.inr (Or.inr ⟨bid, active, rfl, rfl⟩)
  | @claim bid _ _ _ active _ _ bids =>
    rw [bids] at mem
    rcases List.mem_append.mp mem with h | h
    · exact Or.inl (mem_withoutBid.mp h).1
    · obtain ⟨-, rfl⟩ := mem_keptClaimed h
      exact Or.inr (Or.inr ⟨bid, active, rfl, rfl⟩)
  | claimWaiting _ _ _ bids =>
    rw [bids] at mem
    exact Or.inl mem

theorem mem_waitingBids (moves : SlotMoves sums slot move slot' sums') {other : Bid}
    (mem : other ∈ slot'.waitingBids) :
    other ∈ slot.waitingBids ∨ (other.amount ≠ 0 ∧ (other.waitEnd.isSome = true ∧
      slot.liqPremium = Decimal256.percent other.liqPremium ∨
      ∃ bid ∈ slot.waitingBids, other.liqPremium = bid.liqPremium ∧
        other.waitEnd = bid.waitEnd)) := by
  cases moves with
  | join | touch => exact Or.inl mem
  | wait home nonzero =>
    rcases List.mem_append.mp mem with h | h
    · exact Or.inl h
    · obtain rfl := List.mem_singleton.mp h
      exact Or.inr ⟨nonzero, Or.inl ⟨rfl, home⟩⟩
  | activate waits =>
    rw [waits]
    rcases List.mem_append.mp mem with h | h
    · exact Or.inl (List.mem_append_left _ h)
    · exact Or.inl (List.mem_append_right _ (List.mem_cons_of_mem _ h))
  | liquidate spends update =>
    rw [(spends.updated update).2.1] at mem
    exact Or.inl mem
  | @unqueue bid amount waits most =>
    rcases List.mem_append.mp mem with h | h
    · exact Or.inl (mem_withoutBid.mp h).1
    · obtain ⟨hne, rfl⟩ := mem_keptWaiting h
      refine Or.inr ⟨?_, Or.inr ⟨bid, waits, rfl, rfl⟩⟩
      simp only
      omega
  | withdraw _ _ _ withdraws =>
    rw [withdraws.liqPremium_eq.2] at mem
    exact Or.inl mem
  | claim _ _ _ _ waiting =>
    rw [waiting] at mem
    exact Or.inl mem
  | @claimWaiting bid _ _ _ waits _ _ _ waiting =>
    rw [waiting] at mem
    rcases List.mem_append.mp mem with h | h
    · exact Or.inl (mem_withoutBid.mp h).1
    · obtain ⟨hmore, rfl⟩ := mem_keptClaimed h
      refine Or.inr ⟨?_, Or.inr ⟨bid, waits, rfl, rfl⟩⟩
      simp only [Bid.settledAt]
      omega

theorem sound (moves : SlotMoves sums slot move slot' sums') (h : slot.Sound) : slot'.Sound := by
  have hpremium := moves.liqPremium_eq
  refine ⟨?_, fun other mem => ?_, fun other mem => ?_, fun other mem => ?_⟩
  · rw [hpremium]
    exact h.home
  · rw [hpremium]
    rcases mem_allBids.mp mem with mem | mem
    · rcases moves.mem_bids mem with mem | ⟨-, home | ⟨bid, waits, heq⟩⟩ | ⟨bid, active, heq, -⟩
      · exact h.placed other (mem_allBids.mpr (Or.inl mem))
      · exact home
      · rw [heq]
        exact h.placed bid (mem_allBids.mpr (Or.inr waits))
      · rw [heq]
        exact h.placed bid (mem_allBids.mpr (Or.inl active))
    · rcases moves.mem_waitingBids mem with mem | ⟨-, ⟨-, home⟩ | ⟨bid, waits, heq, -⟩⟩
      · exact h.placed other (mem_allBids.mpr (Or.inr mem))
      · exact home
      · rw [heq]
        exact h.placed bid (mem_allBids.mpr (Or.inr waits))
  · rcases moves.mem_bids mem with mem | ⟨hnone, -⟩ | ⟨bid, active, -, heq⟩
    · exact h.active other mem
    · exact hnone
    · rw [heq]
      exact h.active bid active
  · rcases moves.mem_waitingBids mem with mem | ⟨hnonzero, ⟨hsome, -⟩ | ⟨bid, waits, -, heq⟩⟩
    · exact h.waiting other mem
    · exact ⟨hsome, hnonzero⟩
    · rw [heq]
      exact ⟨(h.waiting bid waits).1, hnonzero⟩

end SlotMoves

/-! ## Queues -/

namespace Queue

variable {queue : Queue} {premium : Nat} {slot slot' : PremiumSlot}

theorem findSlot_mem (found : queue.findSlot premium = some slot) : slot ∈ queue.slots :=
  List.mem_of_find?_eq_some found

theorem findSlot_premium (found : queue.findSlot premium = some slot) :
    slot.liqPremium = Decimal256.percent premium := by
  simpa using List.find?_some found

theorem findSlot_replaceSlots_self (queue : Queue)
    (same : slot.liqPremium = Decimal256.percent premium) :
    (queue.replaceSlots (Decimal256.percent premium) slot).findSlot premium = some slot :=
  KeyedList.find?_push_self queue.slots same

theorem findSlot_replaceSlots_ne {other : Nat} (queue : Queue)
    (same : slot.liqPremium = Decimal256.percent premium) (ne : premium ≠ other) :
    (queue.replaceSlots (Decimal256.percent premium) slot).findSlot other = queue.findSlot other :=
  KeyedList.find?_push_ne same (fun h => ne (Decimal256.percent_inj.mp h)) queue.slots

theorem replaceSlots_twice (queue : Queue) {key : Decimal256} (same : slot.liqPremium = key)
    (slot' : PremiumSlot) :
    (queue.replaceSlots key slot).replaceSlots key slot' = queue.replaceSlots key slot' := by
  unfold replaceSlots
  simp only [KeyedList.push_push same]

theorem mem_replaceSlots {key : Decimal256} {other : PremiumSlot}
    (mem : other ∈ (queue.replaceSlots key slot).slots) :
    (other ∈ queue.slots ∧ other.liqPremium ≠ key) ∨ other = slot := by
  rcases List.mem_append.mp mem with mem | mem
  · exact Or.inl ⟨(List.mem_filter.mp mem).1, by simpa using (List.mem_filter.mp mem).2⟩
  · exact Or.inr (List.mem_singleton.mp mem)

def bidsBeside (queue : Queue) (premium : Nat) : List Bid :=
  (queue.slots.filter fun slot => slot.liqPremium ≠ Decimal256.percent premium).flatMap
    PremiumSlot.allBids

theorem allBids_replaceSlots (queue : Queue) (premium : Nat) (slot : PremiumSlot) :
    (queue.replaceSlots (Decimal256.percent premium) slot).allBids =
      queue.bidsBeside premium ++ slot.allBids := by
  simp only [allBids, bidsBeside, replaceSlots, List.flatMap_append, List.flatMap_cons,
    List.flatMap_nil, List.append_nil]

@[simp]
theorem count_slots (queue : Queue) (move : SlotMove) : (move.count queue).slots = queue.slots := by
  cases move <;> rfl

@[simp]
theorem count_allBids (queue : Queue) (move : SlotMove) :
    (move.count queue).allBids = queue.allBids := by
  unfold allBids
  rw [count_slots]

@[simp]
theorem count_bidsBeside (queue : Queue) (move : SlotMove) (premium : Nat) :
    (move.count queue).bidsBeside premium = queue.bidsBeside premium := by
  unfold bidsBeside
  rw [count_slots]

theorem count_currentBidId (queue : Queue) (move : SlotMove) :
    (move.count queue).currentBidId = queue.currentBidId + move.newIds.length := by
  cases move <;> rfl

namespace Sound

theorem split (h : queue.Sound) (found : queue.findSlot premium = some slot) :
    queue.allBids.Perm (slot.allBids ++ queue.bidsBeside premium) :=
  h.shadowed.perm_flatMap (fun _ => allBids_of_blank) found

theorem home (h : queue.Sound) {bid : Bid} (mem : bid ∈ queue.allBids) :
    ∃ slot, queue.findSlot bid.liqPremium = some slot ∧ bid ∈ slot.allBids := by
  obtain ⟨other, hother, hbid⟩ := List.mem_flatMap.mp mem
  have hplaced := (h.slots other hother).placed bid hbid
  cases hfound : queue.findSlot bid.liqPremium with
  | none =>
    have habsent := List.find?_eq_none.mp hfound other hother
    exact absurd hplaced (by simpa using habsent)
  | some slot =>
    refine ⟨slot, rfl, ?_⟩
    rcases List.mem_append.mp ((h.split hfound).mem_iff.mp mem) with hmem | hmem
    · exact hmem
    · obtain ⟨other', hother', hbid'⟩ := List.mem_flatMap.mp hmem
      have hne : other'.liqPremium ≠ Decimal256.percent bid.liqPremium := by
        simpa using (List.mem_filter.mp hother').2
      exact absurd ((h.slots other' (List.mem_filter.mp hother').1).placed bid hbid') hne

theorem mem_allBids_of_slot (found : queue.findSlot premium = some slot) {bid : Bid}
    (mem : bid ∈ slot.allBids) : bid ∈ queue.allBids :=
  List.mem_flatMap.mpr ⟨slot, findSlot_mem found, mem⟩

theorem distinct_slot (h : queue.Sound) (found : queue.findSlot premium = some slot) :
    (slot.allBids.map Bid.id).Nodup := by
  have hall := ((h.split found).map Bid.id).nodup_iff.mp h.distinct
  rw [List.map_append] at hall
  exact (List.nodup_append.mp hall).1

theorem eq_of_id (h : queue.Sound) {bid bid' : Bid} (mem : bid ∈ queue.allBids)
    (mem' : bid' ∈ queue.allBids) (same : bid.id = bid'.id) : bid = bid' :=
  List.inj_on_of_nodup_map h.distinct mem mem' same

end Sound

end Queue

namespace Book

variable {b b' : Book} {premium : Nat} {slot slot' : PremiumSlot} {move : SlotMove}
  {sums' : SlotSums}

theorem after_allBids (b : Book) :
    (b.after premium slot move slot' sums').queue.allBids =
      b.queue.bidsBeside premium ++ slot'.allBids := by
  unfold Book.after Book.held Book.counted
  rw [Queue.allBids_replaceSlots, Queue.count_bidsBeside]

theorem after_keeps (h : b.queue.Sound) (found : b.queue.findSlot premium = some slot)
    (moves : SlotMoves (b.sums premium) slot move slot' sums') {bid : Bid}
    (mem : bid ∈ b.queue.allBids) (ne : bid.id ∉ move.settled) :
    bid ∈ (b.after premium slot move slot' sums').queue.allBids := by
  rw [after_allBids]
  rcases List.mem_append.mp ((h.split found).mem_iff.mp mem) with hmem | hmem
  · exact List.mem_append_right _ (moves.keeps_bid hmem ne)
  · exact List.mem_append_left _ hmem

theorem after_ids (h : b.queue.Sound) (found : b.queue.findSlot premium = some slot)
    (moves : SlotMoves (b.sums premium) slot move slot' sums') :
    ((b.after premium slot move slot' sums').queue.allBids.map Bid.id).Subperm
      (move.newIds ++ b.queue.allBids.map Bid.id) := by
  have hall := ((h.split found).map Bid.id).symm
  rw [List.map_append] at hall
  have hmiddle : ((b.queue.bidsBeside premium).map Bid.id ++
      (move.newIds ++ slot.allBids.map Bid.id)).Perm
      (move.newIds ++ (slot.allBids.map Bid.id ++ (b.queue.bidsBeside premium).map Bid.id)) := by
    rw [← List.append_assoc move.newIds]
    exact List.perm_append_comm
  rw [after_allBids, List.map_append]
  have hslot := (List.Subperm.refl ((b.queue.bidsBeside premium).map Bid.id)).append moves.ids
  exact hslot.trans (hmiddle.trans (hall.append_left move.newIds)).subperm

theorem newIds_of_ready {queue : Queue} (ready : move.Ready queue) :
    ∀ id ∈ move.newIds, id = queue.currentBidId := by
  intro id hid
  cases move with
  | join bid | wait bid =>
    obtain rfl := List.mem_singleton.mp hid
    exact ready
  | _ => cases hid

theorem after_sound (h : b.queue.Sound) (found : b.queue.findSlot premium = some slot)
    (ready : move.Ready b.queue) (moves : SlotMoves (b.sums premium) slot move slot' sums') :
    (b.after premium slot move slot' sums').queue.Sound := by
  have hids := after_ids h found moves
  have hnew := newIds_of_ready ready
  have hsame : slot'.liqPremium = Decimal256.percent premium := by
    rw [moves.liqPremium_eq]
    exact Queue.findSlot_premium found
  have hbelow : ∀ id ∈ b.queue.allBids.map Bid.id, 0 < id ∧ id < b.queue.currentBidId := by
    intro id hid
    obtain ⟨bid, hbid, rfl⟩ := List.mem_map.mp hid
    exact h.below bid hbid
  have hnext : (b.after premium slot move slot' sums').queue.currentBidId =
      b.queue.currentBidId + move.newIds.length := Queue.count_currentBidId b.queue move
  refine ⟨?_, ?_, ?_, ?_, ?_⟩
  · have hshadowed : KeyedList.Shadowed PremiumSlot.liqPremium Blank
        (move.count b.queue).slots := by
      rw [Queue.count_slots]
      exact h.shadowed
    exact hshadowed.push hsame
  · intro other hother
    rcases Queue.mem_replaceSlots hother with ⟨hother, -⟩ | rfl
    · have hmem : other ∈ (move.count b.queue).slots := hother
      rw [Queue.count_slots] at hmem
      exact h.slots other hmem
    · exact moves.sound (h.slots slot (Queue.findSlot_mem found))
  · obtain ⟨ids, hperm, hsub⟩ := hids
    refine hperm.nodup_iff.mp (hsub.nodup ?_)
    refine List.nodup_append.mpr ⟨?_, h.distinct, ?_⟩
    · cases move <;> simp [SlotMove.newIds]
    · intro id hid id' hid' heq
      subst heq
      have hlt := (hbelow id hid').2
      rw [hnew id hid] at hlt
      exact Nat.lt_irrefl _ hlt
  · intro bid hbid
    have hid := hids.subset (List.mem_map_of_mem hbid)
    rw [hnext]
    rcases List.mem_append.mp hid with hid | hid
    · have hlen : 0 < move.newIds.length := List.length_pos_of_mem hid
      rw [hnew _ hid]
      have := h.next
      omega
    · have := hbelow _ hid
      omega
  · rw [hnext]
    have := h.next
    omega

theorem setMaxPremium_slots {maxPremium : Nat} {queue queue' : Queue}
    (done : setMaxPremium maxPremium queue = .ok queue') :
    queue' = { queue with slots := queue'.slots, maxPremium := maxPremium } ∧
      queue'.slots = queue.slots ++
        (List.range' (queue.maxPremium + 1) (maxPremium - queue.maxPremium)).map newSlot := by
  simp only [setMaxPremium, bind_eq_ok, pure_eq_ok] at done
  obtain ⟨_, -, rfl⟩ := done
  exact ⟨rfl, rfl⟩

theorem allBids_setMaxPremium {maxPremium : Nat} {queue queue' : Queue}
    (done : setMaxPremium maxPremium queue = .ok queue') : queue'.allBids = queue.allBids := by
  have hnothing : ∀ premiums : List Nat,
      (premiums.map newSlot).flatMap PremiumSlot.allBids = [] := by
    intro premiums
    rw [List.flatMap_eq_nil_iff]
    intro slot hslot
    obtain ⟨premium, -, rfl⟩ := List.mem_map.mp hslot
    rfl
  unfold Queue.allBids
  rw [(setMaxPremium_slots done).2, List.flatMap_append, hnothing, List.append_nil]

theorem newSlot_sound (premium : Nat) : (newSlot premium).Sound := by
  refine ⟨⟨premium, rfl⟩, fun bid hbid => ?_, fun bid hbid => ?_, fun bid hbid => ?_⟩
  · cases hbid
  · cases hbid
  · cases hbid

theorem Moves.keeps_bid {m : Move} (h : b.queue.Sound) (moves : b.Moves m b') {bid : Bid}
    (mem : bid ∈ b.queue.allBids) (ne : bid.id ∉ m.settled) : bid ∈ b'.queue.allBids := by
  cases moves with
  | slot found _ moves => exact after_keeps h found moves mem ne
  | skipBidId | burn | setBidThreshold => exact mem
  | setMaxPremium done =>
    rw [allBids_setMaxPremium done]
    exact mem

theorem Moves.sound {m : Move} (h : b.queue.Sound) (moves : b.Moves m b') : b'.queue.Sound := by
  cases moves with
  | slot found ready moves => exact after_sound h found ready moves
  | skipBidId =>
    refine ⟨h.shadowed, h.slots, h.distinct, fun bid hbid => ?_, Nat.succ_pos _⟩
    have := h.below bid hbid
    exact ⟨this.1, Nat.lt_succ_of_lt this.2⟩
  | burn => exact ⟨h.shadowed, h.slots, h.distinct, h.below, h.next⟩
  | @setMaxPremium maxPremium queue' done =>
    obtain ⟨hqueue, hslots⟩ := setMaxPremium_slots done
    have hbids := allBids_setMaxPremium done
    refine ⟨?_, ?_, ?_, ?_, ?_⟩
    · rw [hslots]
      refine List.pairwise_append.mpr ⟨h.shadowed, ?_, ?_⟩
      · refine List.pairwise_of_forall_mem_list ?_
        intro slot _ slot' hslot' _
        obtain ⟨premium, -, rfl⟩ := List.mem_map.mp hslot'
        exact ⟨premium, rfl⟩
      · intro slot _ slot' hslot' _
        obtain ⟨premium, -, rfl⟩ := List.mem_map.mp hslot'
        exact ⟨premium, rfl⟩
    · intro slot hslot
      rw [hslots] at hslot
      rcases List.mem_append.mp hslot with hslot | hslot
      · exact h.slots slot hslot
      · obtain ⟨premium, -, rfl⟩ := List.mem_map.mp hslot
        exact newSlot_sound premium
    · rw [hbids]
      exact h.distinct
    · intro bid hbid
      rw [hbids] at hbid
      rw [hqueue]
      exact h.below bid hbid
    · rw [hqueue]
      exact h.next
  | setBidThreshold => exact ⟨h.shadowed, h.slots, h.distinct, h.below, h.next⟩

end Book

end Membrane.LiqQueue
