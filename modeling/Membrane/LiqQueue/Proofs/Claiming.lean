import Membrane.LiqQueue.Proofs.Retracting

/-!
# Claiming as moves

A claim settles its bids one after the other. Settling one leaves the others as they were
read, so each is one move of the queue.
-/

namespace Membrane.LiqQueue

open Outcome

theorem claimColResidue_eq {slot slot' : PremiumSlot} {residue : Nat}
    (done : claimColResidue slot = .ok (residue, slot')) :
    residue = slot.residueCollateral.atomics / Decimal256.fractional ∧
      slot'.residueCollateral.atomics + residue * Decimal256.fractional =
        slot.residueCollateral.atomics ∧
      slot' = { slot with residueCollateral := slot'.residueCollateral } := by
  have hle := Nat.div_mul_le_self slot.residueCollateral.atomics Decimal256.fractional
  simp only [claimColResidue, bind_eq_ok] at done
  obtain ⟨whole, hwhole, done⟩ := done
  obtain rfl : whole = slot.residueCollateral.atomics / Decimal256.fractional := by
    rw [Decimal256.mulUint_eq hwhole, Nat.one_mul]
  split at done
  case isTrue =>
    simp only [bind_eq_ok, pure_eq_ok, Decimal256.fromUint256_eq_ok, Decimal256.sub_eq_ok,
      Prod.mk.injEq] at done
    obtain ⟨_, ⟨-, rfl⟩, _, ⟨-, rfl⟩, rfl, rfl⟩ := done
    exact ⟨rfl, Nat.sub_add_cancel hle, rfl⟩
  case isFalse hzero =>
    simp only [pure_eq_ok, Prod.mk.injEq] at done
    obtain ⟨rfl, rfl⟩ := done
    refine ⟨rfl, ?_, rfl⟩
    rw [show slot.residueCollateral.atomics / Decimal256.fractional = 0 by simpa using hzero]
    rw [Nat.zero_mul, Nat.add_zero]

def Bid.Claimable (bid : Bid) (blockTime : Nat) : Prop :=
  ∀ waitEnd, bid.waitEnd = some waitEnd → waitEnd ≤ blockTime

private theorem claimed_slot {b : Book} {bid : Bid} {slot : PremiumSlot} (h : b.queue.Sound)
    (mem : bid ∈ b.queue.allBids) (found : b.queue.findSlot bid.liqPremium = some slot) :
    bid ∈ slot.allBids := by
  obtain ⟨slot', hslot', hmem⟩ := h.home mem
  rw [found] at hslot'
  exact Option.some.inj hslot' ▸ hmem

theorem claimBid_moves {b : Book} {sums : EpochScaleSums} {bidFor : String} {blockTime : Nat}
    {sender : Addr} {bid : Bid} {queue' : Queue} {claimed claimed' : Nat} (h : b.queue.Sound)
    (hsums : b.sums = slotSums sums bidFor) (mem : bid ∈ b.queue.allBids)
    (done : claimBid blockTime sums bidFor sender (b.queue, claimed) bid = .ok (queue', claimed')) :
    bid.user = sender ∧
      ((¬ bid.Claimable blockTime ∧ queue' = b.queue ∧ claimed' = claimed) ∨
        (bid.Claimable blockTime ∧ ∃ slot got, claimed' = claimed + got ∧
          b.queue.findSlot bid.liqPremium = some slot ∧
          b.Moves (.slot bid.liqPremium (.claim bid got))
            ⟨queue', b.sums, b.ledger.record bid.liqPremium slot (.claim bid got)⟩)) := by
  simp only [claimBid, bind_eq_ok, guardErr_eq_ok] at done
  obtain ⟨_, howner, done⟩ := done
  refine ⟨by simpa using howner, ?_⟩
  split at done
  case isTrue hwaits =>
    simp only [pure_eq_ok, Prod.mk.injEq] at done
    obtain ⟨rfl, rfl⟩ := done
    refine Or.inl ⟨?_, rfl, rfl⟩
    intro hclaimable
    cases hwaitEnd : bid.waitEnd with
    | none => simp [hwaitEnd] at hwaits
    | some waitEnd =>
      have := hclaimable waitEnd hwaitEnd
      simp [hwaitEnd] at hwaits
      omega
  case isFalse hwaits =>
    have hclaimable : bid.Claimable blockTime := by
      intro waitEnd hwaitEnd
      simpa [hwaitEnd] using hwaits
    simp only [bind_eq_ok, liftStd_eq_ok, readPremiumSlot_eq_ok, Decimal256.add_eq_ok,
      Uint256.add_eq_ok, pure_eq_ok, Prod.mk.injEq] at done
    obtain ⟨slot, hslot, ⟨remaining, residueBid⟩, hremaining, ⟨liquidated, residueCollateral⟩,
      hliquidated, _, ⟨-, rfl⟩, _, ⟨-, rfl⟩, ⟨residue, slot₂⟩, hresidue, _, ⟨-, rfl⟩, _, ⟨-, rfl⟩,
      _, ⟨-, rfl⟩, queue₃, hqueue, rfl, rfl⟩ := done
    refine Or.inr ⟨hclaimable, slot, _, rfl, hslot, ?_⟩
    have hhome := Queue.findSlot_premium hslot
    have hmem := claimed_slot h mem hslot
    have hdistinct := h.distinct_slot hslot
    have hslotSound := h.slots slot (Queue.findSlot_mem hslot)
    obtain ⟨hwhole, hleft, hframe⟩ := claimColResidue_eq hresidue
    have hsettles : Settlement.Of (b.sums bid.liqPremium) slot bid
        ⟨remaining, residueBid, liquidated, residueCollateral⟩ := by
      rw [hsums]
      exact ⟨hremaining, calculateLiquidatedCollateral_eq hliquidated⟩
    have hhome₂ : slot₂.liqPremium = Decimal256.percent bid.liqPremium := by
      rw [hframe]
      exact hhome
    have hbids₂ : slot₂.bids = slot.bids ∧ slot₂.waitingBids = slot.waitingBids ∧
        slot₂.productSnapshot = slot.productSnapshot ∧ slot₂.sumSnapshot = slot.sumSnapshot ∧
        slot₂.currentScale = slot.currentScale := by
      rw [hframe]
      exact ⟨rfl, rfl, rfl, rfl, rfl⟩
    obtain ⟨hactives, hwaitings, hproduct, hsum, hscale⟩ := hbids₂
    have hdistinct₂ : (slot₂.allBids.map Bid.id).Nodup := by
      rw [ids_allBids, hactives, hwaitings, ← ids_allBids]
      exact hdistinct
    rw [storePremiumSlot_eq hhome₂, hproduct, hsum, hscale] at hqueue
    have hstored := Queue.findSlot_replaceSlots_self b.queue hhome₂
    have hclaims : ∀ bids waitingBids, slot.Claimed
        ⟨remaining, residueBid, liquidated, residueCollateral⟩ residue
        { slot₂ with bids := bids, waitingBids := waitingBids } := by
      intro bids waitingBids
      refine ⟨hwhole, hleft, ?_, ?_⟩
      · rw [hframe]
      · rw [hframe]
    by_cases hwaitEnd : bid.waitEnd.isSome = true
    · have hwaiting := hslotSound.waits hmem hwaitEnd
      have hwritten : queue₃ = b.queue.replaceSlots (Decimal256.percent bid.liqPremium)
          { slot₂ with
            bids := slot.bids
            waitingBids := withoutBid bid.id slot.waitingBids ++ keptClaimed slot bid
              ⟨remaining, residueBid, liquidated, residueCollateral⟩ } := by
        unfold keptClaimed
        split at hqueue
        case isTrue hspent =>
          rw [removeBid_eq bid hstored hqueue, if_pos hspent, List.append_nil, hactives, hwaitings,
            PremiumSlot.active_without hdistinct hwaiting]
          exact Queue.replaceSlots_twice b.queue hhome₂ _
        case isFalse hkept =>
          have hkeep := storeBid_waiting (bid.settledAt slot remaining 0) hstored hwaitEnd
            hqueue
          rw [hkeep, if_neg hkept, ← hactives, ← hwaitings]
          exact Queue.replaceSlots_twice b.queue hhome₂ _
      rw [hwritten]
      have hmove := Book.Moves.slot hslot (show SlotMove.Ready b.queue (.claim bid _) from trivial)
        (.claimWaiting hwaiting hsettles (hclaims _ _) rfl rfl)
      unfold Book.after at hmove
      rw [Book.counted_same] at hmove
      exact hmove
    · have hnone : bid.waitEnd = none := by simpa using hwaitEnd
      have hactive := hslotSound.isActive hmem (by simpa using hwaitEnd)
      have hwritten : queue₃ = b.queue.replaceSlots (Decimal256.percent bid.liqPremium)
          { slot₂ with
            bids := withoutBid bid.id slot.bids ++ keptClaimed slot bid
              ⟨remaining, residueBid, liquidated, residueCollateral⟩
            waitingBids := slot.waitingBids } := by
        unfold keptClaimed
        split at hqueue
        case isTrue hspent =>
          rw [removeBid_eq bid hstored hqueue, if_pos hspent, List.append_nil, hactives, hwaitings,
            PremiumSlot.waiting_without hdistinct hactive]
          exact Queue.replaceSlots_twice b.queue hhome₂ _
        case isFalse hkept =>
          have hkeep := storeBid_active (bid.settledAt slot remaining 0) hstored hnone
            hqueue
          rw [hkeep, if_neg hkept, ← hactives, ← hwaitings]
          exact Queue.replaceSlots_twice b.queue hhome₂ _
      rw [hwritten]
      have hmove := Book.Moves.slot hslot (show SlotMove.Ready b.queue (.claim bid _) from trivial)
        (.claim hactive hsettles (hclaims _ _) rfl rfl)
      unfold Book.after at hmove
      rw [Book.counted_same] at hmove
      exact hmove

def Claims (blockTime : Nat) (sender : Addr) (bids : List Bid) (_ : Book) (m : Move) : Prop :=
  ∃ bid ∈ bids, bid.user = sender ∧ bid.Claimable blockTime ∧
    ∃ got, m = .slot bid.liqPremium (.claim bid got)

def recordClaims (blockTime : Nat) (sums : EpochScaleSums) (bidFor : String) (sender : Addr) :
    List Bid → Queue × Nat → Ledger → Ledger
  | [], _, ledger => ledger
  | bid :: rest, acc, ledger =>
    match claimBid blockTime sums bidFor sender acc bid with
    | .ok acc' => recordClaims blockTime sums bidFor sender rest acc'
        { ledger with
          claimed := Function.update ledger.claimed bid.liqPremium
            (ledger.claimed bid.liqPremium + (acc'.2 - acc.2)) }
    | .error _ => ledger

theorem claimBids_runs {sums : EpochScaleSums} {bidFor : String} {blockTime : Nat} {sender : Addr}
    {queue' : Queue} {claimed' : Nat} :
    ∀ {bids : List Bid} {b : Book} {claimed : Nat}, b.queue.Sound → b.sums = slotSums sums bidFor →
      (bids.map Bid.id).Nodup → (∀ bid ∈ bids, bid ∈ b.queue.allBids) →
      bids.foldlM (claimBid blockTime sums bidFor sender) (b.queue, claimed) =
        .ok (queue', claimed') →
      Book.Runs (Claims blockTime sender bids) b ⟨queue', b.sums,
        recordClaims blockTime sums bidFor sender bids (b.queue, claimed) b.ledger⟩ := by
  intro bids
  induction bids with
  | nil =>
    intro b claimed _ _ _ _ done
    simp only [List.foldlM_nil, pure_eq_ok, Prod.mk.injEq] at done
    obtain ⟨rfl, rfl⟩ := done
    exact .refl
  | cons bid rest ih =>
    intro b claimed hsound hsums hdistinct hmem done
    simp only [List.foldlM_cons, bind_eq_ok] at done
    obtain ⟨⟨queue₁, claimed₁⟩, hclaim, hrest⟩ := done
    obtain ⟨habsent, hdistinct⟩ := List.nodup_cons.mp hdistinct
    have htail : ∀ other ∈ rest, other ∈ b.queue.allBids :=
      fun other hother => hmem other (List.mem_cons_of_mem _ hother)
    have hwider : ∀ {b₁ b₂ : Book}, Book.Runs (Claims blockTime sender rest) b₁ b₂ →
        Book.Runs (Claims blockTime sender (bid :: rest)) b₁ b₂ := by
      intro b₁ b₂ run
      refine RunWhere.mono ?_ run
      rintro _ _ _ ⟨other, hother, hclaims⟩ -
      exact ⟨other, List.mem_cons_of_mem _ hother, hclaims⟩
    obtain ⟨howner, ⟨-, rfl, rfl⟩ | ⟨hclaimable, slot, got, rfl, hslot, hmove⟩⟩ :=
      claimBid_moves hsound hsums (hmem bid List.mem_cons_self) hclaim
    · have hrun := hwider (ih hsound hsums hdistinct htail hrest)
      simpa only [recordClaims, hclaim, Nat.sub_self, Nat.add_zero, Function.update_eq_self]
        using hrun
    · have hkept : ∀ other ∈ rest, other ∈ queue₁.allBids := by
        intro other hother
        have hne : other.id ≠ bid.id :=
          fun heq => habsent (heq ▸ List.mem_map_of_mem hother)
        exact Book.Moves.keeps_bid hsound hmove (htail other hother)
          (by simpa [Move.settled, SlotMove.settled] using hne)
      have hrun := hwider (@ih ⟨queue₁, b.sums, _⟩ _ (hmove.sound hsound) hsums hdistinct hkept
        hrest)
      simp only [recordClaims, hclaim, Nat.add_sub_cancel_left]
      exact .head ⟨_, ⟨bid, List.mem_cons_self, howner, hclaimable, got, rfl⟩, hmove⟩ hrun

/-! ## The bids of a claim -/

private theorem readBids_ids {queue : Queue} :
    ∀ {ids : List Nat} {bids : List Bid}, (ids.mapM fun id => liftStd (readBid id queue)) =
      .ok bids →
      bids.map Bid.id = ids ∧ ∀ bid ∈ bids, bid ∈ queue.allBids := by
  intro ids
  induction ids with
  | nil =>
    intro bids done
    simp only [List.mapM_nil, pure_eq_ok] at done
    subst done
    exact ⟨rfl, fun bid hbid => by cases hbid⟩
  | cons id rest ih =>
    intro bids done
    simp only [List.mapM_cons, bind_eq_ok, liftStd_eq_ok, pure_eq_ok] at done
    obtain ⟨bid, hbid, bids', hbids', rfl⟩ := done
    obtain ⟨hmem, hid⟩ := readBid_mem hbid
    obtain ⟨hids, hall⟩ := ih hbids'
    refine ⟨by rw [List.map_cons, hid, hids], fun other hother => ?_⟩
    rcases List.mem_cons.mp hother with rfl | hother
    · exact hmem
    · exact hall other hother

private theorem readBidsByUser_sublist (queue : Queue) (user : Addr)
    (limit startAfter : Option Nat) :
    (readBidsByUser queue user limit startAfter).Sublist queue.allBids := by
  refine (List.take_sublist _ _).trans ?_
  unfold Queue.allBids
  induction queue.slots with
  | nil => exact List.Sublist.refl _
  | cons slot rest ih =>
    simp only [List.flatMap_cons]
    exact ((List.filter_sublist).trans (List.sublist_append_left _ _)).append ih

theorem bidsToClaim_mem {queue : Queue} {sender : Addr} {bidIds : Option (List Nat)}
    {bids : List Bid} (h : queue.Sound) (done : bidsToClaim queue sender bidIds = .ok bids) :
    (bids.map Bid.id).Nodup ∧ ∀ bid ∈ bids, bid ∈ queue.allBids := by
  cases bidIds with
  | none =>
    simp only [bidsToClaim, pure_eq_ok] at done
    subst done
    have hsub := readBidsByUser_sublist queue sender none none
    exact ⟨(hsub.map Bid.id).nodup h.distinct, fun bid hbid => hsub.subset hbid⟩
  | some ids =>
    simp only [bidsToClaim, bind_eq_ok, guardErr_eq_ok] at done
    obtain ⟨_, hdistinct, hread⟩ := done
    obtain ⟨hids, hmem⟩ := readBids_ids hread
    refine ⟨?_, hmem⟩
    rw [hids]
    simpa using hdistinct

theorem claimLiquidations_runs {env : Env} {info : MessageInfo} {bidFor : AssetInfo}
    {bidIds : Option (List Nat)} {s s' : State} {response : Response OutMsg} (ledger : Ledger)
    (sound : ∀ queue, s.queues.lookup bidFor.toText = some queue → queue.Sound)
    (done : claimLiquidations env info bidFor bidIds s = .ok (s', response)) :
    ∃ (queue queue' : Queue) (bids : List Bid) (claimed : Nat),
      s.queues.lookup bidFor.toText = some queue ∧
      bidsToClaim queue info.sender bidIds = .ok bids ∧
      bids.foldlM (claimBid env.blockTime s.epochScaleSums bidFor.toText info.sender) (queue, 0) =
        .ok (queue', claimed) ∧
      s' = saveQueue s bidFor queue' ∧ response = payout ⟨bidFor, claimed⟩ info.sender ∧
      Book.Runs (Claims env.blockTime info.sender bids) (bookOf s bidFor queue ledger)
        (bookOf s bidFor queue' (recordClaims env.blockTime s.epochScaleSums bidFor.toText
          info.sender bids (queue, 0) ledger)) := by
  simp only [claimLiquidations, bind_eq_ok, loadQueue_eq_ok] at done
  obtain ⟨queue, hqueue, bids, hbids, ⟨queue', claimed⟩, hfold, done⟩ := done
  have hsound := sound queue hqueue
  obtain ⟨hdistinct, hmem⟩ := bidsToClaim_mem hsound hbids
  have hrun := @claimBids_runs _ _ _ _ _ _ bids (bookOf s bidFor queue ledger) 0 hsound rfl
    hdistinct hmem hfold
  have hpaid : s' = saveQueue s bidFor queue' ∧
      response = payout ⟨bidFor, claimed⟩ info.sender := by
    unfold payout
    by_cases hzero : claimed = 0
    · rw [if_neg (by simpa using hzero)] at done
      simp only [pure_eq_ok, Prod.mk.injEq] at done
      rw [if_pos hzero]
      exact ⟨done.1.symm, done.2.symm⟩
    · rw [if_pos hzero] at done
      simp only [bind_eq_ok, Uint256.toUint128_eq_ok, liftStd_eq_ok, pure_eq_ok,
        Prod.mk.injEq] at done
      obtain ⟨_, ⟨-, rfl⟩, msg, hmsg, rfl, rfl⟩ := done
      rw [if_neg hzero, withdrawalMsg_eq hmsg]
      exact ⟨rfl, rfl⟩
  exact ⟨queue, queue', bids, claimed, hqueue, hbids, hfold, hpaid.1, hpaid.2, hrun⟩

end Membrane.LiqQueue
