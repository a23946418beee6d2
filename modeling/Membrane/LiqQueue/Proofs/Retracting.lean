import Membrane.LiqQueue.Proofs.Submitting

/-!
# Retracting as a move

A retraction reads the bid, and takes from it out of the waiting bids or out of the active
ones with the residue of the slot.
-/

namespace Membrane.LiqQueue

open Outcome

/-! ## Reading bids -/

theorem findBid_mem {slot : PremiumSlot} {id : Nat} {bid : Bid}
    (found : slot.findBid id = some bid) :
    bid ∈ slot.allBids ∧ bid.id = id := by
  unfold PremiumSlot.findBid at found
  cases hactive : slot.bids.find? fun bid => bid.id = id with
  | some active =>
    rw [hactive, Option.some_or, Option.some.injEq] at found
    subst found
    exact ⟨mem_allBids.mpr (Or.inl (List.mem_of_find?_eq_some hactive)), by
      simpa using List.find?_some hactive⟩
  | none =>
    rw [hactive, Option.none_or] at found
    exact ⟨mem_allBids.mpr (Or.inr (List.mem_of_find?_eq_some found)), by
      simpa using List.find?_some found⟩

private theorem readBidFrom_mem {id : Nat} {queue : Queue} {bid : Bid} :
    ∀ {premiums : List Nat}, readBidFrom id queue premiums = .ok bid →
      ∃ premium ∈ premiums, ∃ slot, queue.findSlot premium = some slot ∧
        slot.findBid id = some bid := by
  intro premiums
  induction premiums with
  | nil => intro done; simp [readBidFrom] at done
  | cons premium rest ih =>
    intro done
    simp only [readBidFrom, bind_eq_ok, readPremiumSlot_eq_ok] at done
    obtain ⟨slot, hslot, hrest⟩ := done
    cases hfound : slot.findBid id with
    | some found =>
      rw [hfound] at hrest
      simp only [pure_eq_ok] at hrest
      exact ⟨premium, List.mem_cons_self, slot, hslot, hrest ▸ hfound⟩
    | none =>
      rw [hfound] at hrest
      obtain ⟨other, hother, hmem⟩ := ih hrest
      exact ⟨other, List.mem_cons_of_mem _ hother, hmem⟩

theorem readBid_mem {id : Nat} {queue : Queue} {bid : Bid} (done : readBid id queue = .ok bid) :
    bid ∈ queue.allBids ∧ bid.id = id := by
  simp only [readBid, bind_eq_ok, guardPanic_eq_ok] at done
  obtain ⟨_, -, hread⟩ := done
  obtain ⟨premium, -, slot, hslot, hfound⟩ := readBidFrom_mem hread
  obtain ⟨hmem, hid⟩ := findBid_mem hfound
  exact ⟨Queue.Sound.mem_allBids_of_slot hslot hmem, hid⟩

/-! ## Removing and storing -/

namespace PremiumSlot

variable {slot : PremiumSlot} {bid : Bid}

theorem active_without (distinct : (slot.allBids.map Bid.id).Nodup)
    (waits : bid ∈ slot.waitingBids) :
    withoutBid bid.id slot.bids = slot.bids := by
  rw [ids_allBids] at distinct
  refine withoutBid_of_absent fun hmem => ?_
  exact (List.nodup_append.mp distinct).2.2 _ hmem _ (List.mem_map_of_mem waits) rfl

theorem waiting_without (distinct : (slot.allBids.map Bid.id).Nodup) (active : bid ∈ slot.bids) :
    withoutBid bid.id slot.waitingBids = slot.waitingBids := by
  rw [ids_allBids] at distinct
  refine withoutBid_of_absent fun hmem => ?_
  exact (List.nodup_append.mp distinct).2.2 _ (List.mem_map_of_mem active) _ hmem rfl

theorem Sound.waits (h : slot.Sound) (mem : bid ∈ slot.allBids) (some : bid.waitEnd.isSome = true) :
    bid ∈ slot.waitingBids := by
  rcases mem_allBids.mp mem with mem | mem
  · rw [h.active bid mem] at some
    cases some
  · exact mem

theorem Sound.isActive (h : slot.Sound) (mem : bid ∈ slot.allBids)
    (none : bid.waitEnd.isSome = false) : bid ∈ slot.bids := by
  rcases mem_allBids.mp mem with mem | mem
  · exact mem
  · rw [(h.waiting bid mem).1] at none
    cases none

end PremiumSlot

theorem storePremiumSlot_eq {queue : Queue} {slot : PremiumSlot} {premium : Nat}
    (home : slot.liqPremium = Decimal256.percent premium) :
    storePremiumSlot queue slot = queue.replaceSlots (Decimal256.percent premium) slot := by
  unfold storePremiumSlot
  rw [home]

theorem removeBid_eq (bid : Bid) {queue queue' : Queue} {slot : PremiumSlot}
    (found : queue.findSlot bid.liqPremium = some slot) (done : removeBid bid queue = .ok queue') :
    queue' = queue.replaceSlots (Decimal256.percent bid.liqPremium)
      { slot with
        bids := withoutBid bid.id slot.bids
        waitingBids := withoutBid bid.id slot.waitingBids } := by
  simp only [removeBid, found, ofOption_eq_ok, bind_eq_ok, pure_eq_ok, Option.some.injEq] at done
  obtain ⟨_, rfl, rfl⟩ := done
  rfl

theorem storeBid_active (bid : Bid) {queue queue' : Queue} {slot : PremiumSlot}
    (found : queue.findSlot bid.liqPremium = some slot) (active : bid.waitEnd = none)
    (done : storeBid queue bid = .ok queue') :
    queue' = queue.replaceSlots (Decimal256.percent bid.liqPremium)
      { slot with bids := withoutBid bid.id slot.bids ++ [bid] } := by
  simp only [storeBid, found, active, ofOption_eq_ok, bind_eq_ok, pure_eq_ok, Option.some.injEq]
    at done
  obtain ⟨_, rfl, rfl⟩ := done
  rfl

theorem storeBid_waiting (bid : Bid) {queue queue' : Queue} {slot : PremiumSlot}
    (found : queue.findSlot bid.liqPremium = some slot) (waits : bid.waitEnd.isSome = true)
    (done : storeBid queue bid = .ok queue') :
    queue' = queue.replaceSlots (Decimal256.percent bid.liqPremium)
      { slot with waitingBids := withoutBid bid.id slot.waitingBids ++ [bid] } := by
  simp only [storeBid, found, waits, ofOption_eq_ok, bind_eq_ok, pure_eq_ok, Option.some.injEq,
    if_true] at done
  obtain ⟨_, rfl, rfl⟩ := done
  rfl

/-! ## The two retractions -/

theorem assertWithdrawAmount_le {amount : Option Nat} {withdrawable minimumBid withdraw : Nat}
    (done : assertWithdrawAmount amount withdrawable minimumBid = .ok withdraw) :
    withdraw ≤ withdrawable ∧ (amount = none → withdraw = withdrawable) ∧
      ∀ asked, amount = some asked → withdraw = asked := by
  unfold assertWithdrawAmount at done
  cases amount with
  | none =>
    simp only [pure_eq_ok] at done
    subst done
    refine ⟨Nat.le_refl _, fun _ => rfl, ?_⟩
    intro asked hasked
    cases hasked
  | some asked =>
    simp only [bind_eq_ok, guardErr_eq_ok, pure_eq_ok] at done
    obtain ⟨_, hle, _, -, rfl⟩ := done
    refine ⟨by omega, ?_, fun _ h => Option.some.inj h⟩
    intro hnone
    cases hnone

theorem assertWithdrawAmount_asked {amount : Option Nat} {withdrawable minimumBid withdraw : Nat}
    (done : assertWithdrawAmount amount withdrawable minimumBid = .ok withdraw) :
    amount = none ∨ amount = some withdraw := by
  cases amount with
  | none => exact .inl rfl
  | some asked => exact .inr (congrArg some ((assertWithdrawAmount_le done).2.2 asked rfl).symm)

theorem retractWaiting_eq {config : Config} {amount : Option Nat} {bid : Bid}
    {queue queue' : Queue} {slot : PremiumSlot} {withdraw : Nat}
    (found : queue.findSlot bid.liqPremium = some slot)
    (distinct : (slot.allBids.map Bid.id).Nodup) (waits : bid ∈ slot.waitingBids)
    (waitEnd : bid.waitEnd.isSome = true)
    (done : retractWaiting config amount bid queue = .ok (queue', withdraw)) :
    withdraw ≤ bid.amount ∧ assertWithdrawAmount amount bid.amount config.minimumBid =
      .ok withdraw ∧
      queue' = queue.replaceSlots (Decimal256.percent bid.liqPremium)
        { slot with
          waitingBids := withoutBid bid.id slot.waitingBids ++ keptWaiting bid withdraw } := by
  simp only [retractWaiting, bind_eq_ok, pure_eq_ok, Prod.mk.injEq] at done
  obtain ⟨withdraw', hassert, queue₁, hqueue, rfl, rfl⟩ := done
  refine ⟨(assertWithdrawAmount_le hassert).1, hassert, ?_⟩
  unfold keptWaiting
  split at hqueue
  case isTrue heq =>
    rw [removeBid_eq bid found hqueue, PremiumSlot.active_without distinct waits, if_pos heq,
      List.append_nil]
  case isFalse hne =>
    simp only [bind_eq_ok, subUint_eq_ok] at hqueue
    obtain ⟨_, ⟨-, rfl⟩, hstore⟩ := hqueue
    rw [if_neg hne]
    exact storeBid_waiting { bid with amount := bid.amount - withdraw' } found waitEnd
      hstore

theorem claimBidResidue_eq {slot slot' : PremiumSlot} {residue : Nat}
    (done : claimBidResidue slot = .ok (residue, slot')) :
    residue = slot.residueBid.atomics / Decimal256.fractional ∧
      slot'.residueBid.atomics + residue * Decimal256.fractional = slot.residueBid.atomics ∧
      slot' = { slot with residueBid := slot'.residueBid } := by
  have hle := Nat.div_mul_le_self slot.residueBid.atomics Decimal256.fractional
  simp only [claimBidResidue, bind_eq_ok, Decimal256.fromUint256_eq_ok] at done
  obtain ⟨whole, hwhole, _, ⟨-, rfl⟩, done⟩ := done
  obtain rfl : whole = slot.residueBid.atomics / Decimal256.fractional := by
    rw [Decimal256.mulUint_eq hwhole, Nat.one_mul]
  split at done
  case isTrue hlt => exact absurd hle (Nat.not_le.mpr hlt)
  case isFalse =>
    split at done
    case isTrue =>
      simp only [bind_eq_ok, pure_eq_ok, Decimal256.sub_eq_ok, Prod.mk.injEq] at done
      obtain ⟨_, ⟨-, rfl⟩, rfl, rfl⟩ := done
      exact ⟨rfl, Nat.sub_add_cancel hle, rfl⟩
    case isFalse hzero =>
      simp only [pure_eq_ok, Prod.mk.injEq] at done
      obtain ⟨rfl, rfl⟩ := done
      refine ⟨rfl, ?_, rfl⟩
      rw [show slot.residueBid.atomics / Decimal256.fractional = 0 by simpa using hzero]
      rw [Nat.zero_mul, Nat.add_zero]

theorem retractActive_eq {config : Config} {sums : EpochScaleSums} {bidFor : String}
    {amount : Option Nat} {bid : Bid} {queue queue' : Queue} {slot : PremiumSlot} {refund : Nat}
    (found : queue.findSlot bid.liqPremium = some slot)
    (distinct : (slot.allBids.map Bid.id).Nodup) (active : bid ∈ slot.bids)
    (waitEnd : bid.waitEnd = none)
    (done : retractActive config sums bidFor amount bid slot queue = .ok (queue', refund)) :
    ∃ (settled : Settlement) (withdraw residue : Nat) (slot' : PremiumSlot),
      refund = withdraw + residue ∧
      assertWithdrawAmount amount settled.remaining config.minimumBid = .ok withdraw ∧
      settled.Of (slotSums sums bidFor bid.liqPremium) slot bid ∧
      slot.Withdrawn settled withdraw residue slot' ∧
      slot'.bids = withoutBid bid.id slot.bids ++ keptActive slot bid settled withdraw ∧
      queue' = queue.replaceSlots (Decimal256.percent bid.liqPremium) slot' := by
  have hhome := Queue.findSlot_premium found
  simp only [retractActive, bind_eq_ok, liftStd_eq_ok, Uint256.add_eq_ok, Decimal256.add_eq_ok,
    readPremiumSlot_eq_ok, subUint_eq_ok, pure_eq_ok, Prod.mk.injEq] at done
  obtain ⟨⟨remaining, residueBid⟩, hremaining, ⟨liquidated, residueCollateral⟩, hliquidated, _,
    ⟨-, rfl⟩, _, ⟨-, rfl⟩, _, ⟨-, rfl⟩, withdraw, hassert, queue₂, hqueue, slot₂, hslot₂, total,
    ⟨hcovered, htotal⟩, ⟨residue, slot₄⟩, hresidue, _, ⟨-, rfl⟩, rfl, rfl⟩ := done
  obtain ⟨hwhole, hleft, hframe⟩ := claimBidResidue_eq hresidue
  -- the slot with its residues is stored before the bid is written into it
  generalize hslot₁ : ({ slot with
    residueCollateral := ⟨slot.residueCollateral.atomics + residueCollateral.atomics⟩
    residueBid := ⟨slot.residueBid.atomics + residueBid.atomics⟩ } : PremiumSlot) = slot₁
    at hqueue
  have hhome₁ : slot₁.liqPremium = Decimal256.percent bid.liqPremium := by
    rw [← hslot₁]
    exact hhome
  have hdistinct₁ : (slot₁.allBids.map Bid.id).Nodup := by
    rw [← hslot₁]
    exact distinct
  have hactive₁ : bid ∈ slot₁.bids := by
    rw [← hslot₁]
    exact active
  rw [storePremiumSlot_eq hhome₁] at hqueue
  have hstored : (queue.replaceSlots (Decimal256.percent bid.liqPremium) slot₁).findSlot
      bid.liqPremium = some slot₁ := Queue.findSlot_replaceSlots_self queue hhome₁
  have hwritten : queue₂ = queue.replaceSlots (Decimal256.percent bid.liqPremium) { slot₁ with
      bids := withoutBid bid.id slot₁.bids ++ keptActive slot bid
        ⟨remaining, residueBid, liquidated, residueCollateral⟩ withdraw } := by
    unfold keptActive
    split at hqueue
    case isTrue hall =>
      have hremove := removeBid_eq { bid with pendingLiquidatedCollateral :=
        bid.pendingLiquidatedCollateral + liquidated } hstored hqueue
      rw [hremove, if_pos hall, List.append_nil, PremiumSlot.waiting_without hdistinct₁ hactive₁]
      exact Queue.replaceSlots_twice queue hhome₁ _
    case isFalse hkept =>
      simp only [bind_eq_ok, subUint_eq_ok] at hqueue
      obtain ⟨_, ⟨-, rfl⟩, hstore⟩ := hqueue
      have hkeep := storeBid_active (bid.settledAt slot (remaining - withdraw)
        (bid.pendingLiquidatedCollateral + liquidated)) hstored waitEnd hstore
      rw [hkeep, if_neg hkept]
      exact Queue.replaceSlots_twice queue hhome₁ _
  generalize hslot₃ : ({ slot₁ with
    bids := withoutBid bid.id slot₁.bids ++ keptActive slot bid
      ⟨remaining, residueBid, liquidated, residueCollateral⟩ withdraw } : PremiumSlot) = slot₃
    at hwritten
  have hhome₃ : slot₃.liqPremium = Decimal256.percent bid.liqPremium := by
    rw [← hslot₃]
    exact hhome₁
  obtain rfl : slot₃ = slot₂ := by
    rw [hwritten, Queue.findSlot_replaceSlots_self queue hhome₃] at hslot₂
    exact Option.some.inj hslot₂
  have hhome₄ : slot₄.liqPremium = Decimal256.percent bid.liqPremium := by
    rw [hframe]
    exact hhome₃
  refine ⟨⟨remaining, residueBid, liquidated, residueCollateral⟩, withdraw, residue, slot₄, rfl,
    hassert, ⟨hremaining, calculateLiquidatedCollateral_eq hliquidated⟩, ?_, ?_, ?_⟩
  · subst hslot₃ hslot₁ htotal
    refine ⟨?_, hwhole, ?_, hleft, ?_⟩
    · rw [hframe]
      exact Nat.sub_add_cancel hcovered
    · rw [hframe]
    · rw [hframe]
  · rw [hframe, ← hslot₃, ← hslot₁]
  · rw [storePremiumSlot_eq hhome₄, hwritten]
    exact Queue.replaceSlots_twice queue hhome₃ _

/-! ## The handler -/

/-- What a call pays out: a message when it is not zero. -/
def payout (asset : Asset) (recipient : Addr) : Response OutMsg :=
  if asset.amount = 0 then {}
  else Response.addMessages {} [.bankSend recipient [⟨asset.info.toText, asset.amount⟩]]

theorem withdrawalMsg_eq {asset : Asset} {recipient : Addr} {msg : CosmosMsg OutMsg}
    (done : withdrawalMsg asset recipient = .ok msg) :
    msg = .bankSend recipient [⟨asset.info.toText, asset.amount⟩] := by
  unfold withdrawalMsg at done
  cases hinfo : asset.info with
  | token => simp [hinfo] at done
  | nativeToken denom =>
    rw [hinfo] at done
    exact (Except.ok.inj done).symm

/-- What a retraction takes out of a bid. -/
inductive Retraction (config : Config) (amount : Option Nat) (bid : Bid) :
    SlotMove → (refund : Nat) → Prop where
  | waiting {withdraw} (waits : bid.waitEnd.isSome = true)
      (asserted : assertWithdrawAmount amount bid.amount config.minimumBid = .ok withdraw) :
      Retraction config amount bid (.unqueue bid withdraw) withdraw
  | active {remaining withdraw residue} (active : bid.waitEnd = none)
      (asserted : assertWithdrawAmount amount remaining config.minimumBid = .ok withdraw) :
      Retraction config amount bid (.withdraw bid withdraw residue) (withdraw + residue)

theorem retractBid_moves {info : MessageInfo} {bidId : Nat} {bidFor : AssetInfo}
    {amount : Option Nat} {s s' : State} {response : Response OutMsg} (ledger : Ledger)
    (sound : ∀ queue, s.queues.lookup bidFor.toText = some queue → queue.Sound)
    (done : retractBid info bidId bidFor amount s = .ok (s', response)) :
    ∃ (queue queue' : Queue) (bid : Bid) (slot : PremiumSlot) (move : SlotMove) (refund : Nat),
      s.queues.lookup bidFor.toText = some queue ∧ readBid bidId queue = .ok bid ∧
      bid.user = info.sender ∧ queue.findSlot bid.liqPremium = some slot ∧
      bid ∈ slot.allBids ∧ Retraction s.config amount bid move refund ∧
      s' = saveQueue s bidFor queue' ∧
      response = payout ⟨queue.bidAsset.info, refund⟩ info.sender ∧
      (bookOf s bidFor queue ledger).Moves (.slot bid.liqPremium move)
        (bookOf s bidFor queue' (ledger.record bid.liqPremium slot move)) := by
  simp only [retractBid, bind_eq_ok, liftStd_eq_ok, loadQueue_eq_ok, guardErr_eq_ok,
    readPremiumSlot_eq_ok] at done
  obtain ⟨queue, hqueue, bid, hbid, _, howner, slot, hslot, ⟨queue₁, refund⟩, hretract, done⟩ :=
    done
  have hsound := sound queue hqueue
  have hmem : bid ∈ slot.allBids := by
    obtain ⟨slot', hslot', hmem⟩ := hsound.home (readBid_mem hbid).1
    rw [hslot] at hslot'
    exact Option.some.inj hslot' ▸ hmem
  have hdistinct := hsound.distinct_slot hslot
  have hslotSound := hsound.slots slot (Queue.findSlot_mem hslot)
  -- what is taken out is taken off the queue's amount, also when it is nothing
  have hpaid : refund ≤ queue₁.bidAsset.amount ∧
      s' = saveQueue s bidFor (queue₁.withAmount (queue₁.bidAsset.amount - refund)) ∧
      response = payout ⟨queue₁.bidAsset.info, refund⟩ info.sender := by
    split at done
    case isTrue hne =>
      simp only [bind_eq_ok, Uint256.toUint128_eq_ok, subUint_eq_ok, liftStd_eq_ok, pure_eq_ok,
        Prod.mk.injEq] at done
      obtain ⟨_, ⟨-, rfl⟩, _, ⟨hle, rfl⟩, msg, hmsg, rfl, rfl⟩ := done
      obtain rfl := withdrawalMsg_eq hmsg
      refine ⟨hle, rfl, ?_⟩
      unfold payout
      rw [if_neg hne]
    case isFalse hzero =>
      simp only [pure_eq_ok, Prod.mk.injEq] at done
      obtain rfl : refund = 0 := by simpa using hzero
      obtain ⟨rfl, rfl⟩ := done
      exact ⟨Nat.zero_le _, rfl, rfl⟩
  obtain ⟨hcovered, hs', hresponse⟩ := hpaid
  split at hretract
  case isTrue hwaits =>
    have hwaiting := hslotSound.waits hmem hwaits
    obtain ⟨hle, hassert, rfl⟩ := retractWaiting_eq hslot hdistinct hwaiting hwaits hretract
    refine ⟨queue, _, bid, slot, .unqueue bid refund, refund, hqueue, hbid, by simpa using howner,
      hslot, hmem, .waiting hwaits hassert, hs', hresponse, ?_⟩
    have hmove := Book.Moves.slot (b := bookOf s bidFor queue ledger) hslot
      (show SlotMove.Ready queue (.unqueue bid refund) from hcovered) (.unqueue hwaiting hle)
    unfold Book.after at hmove
    rw [Book.counted_same] at hmove
    exact hmove
  case isFalse hnot =>
    have hnone : bid.waitEnd = none := by simpa using hnot
    have hactive := hslotSound.isActive hmem (by simpa using hnot)
    obtain ⟨found, withdraw, residue, slot', rfl, hassert, hsettles, hwithdraws, hbids, rfl⟩ :=
      retractActive_eq hslot hdistinct hactive hnone hretract
    refine ⟨queue, _, bid, slot, .withdraw bid withdraw residue, withdraw + residue, hqueue, hbid,
      by simpa using howner, hslot, hmem, .active hnone hassert, hs', hresponse, ?_⟩
    have hmove := Book.Moves.slot (b := bookOf s bidFor queue ledger) hslot
      (show SlotMove.Ready queue (.withdraw bid withdraw residue) from hcovered)
      (.withdraw hactive hsettles (assertWithdrawAmount_le hassert).1 hwithdraws hbids)
    unfold Book.after at hmove
    rw [Book.counted_same] at hmove
    exact hmove

end Membrane.LiqQueue
