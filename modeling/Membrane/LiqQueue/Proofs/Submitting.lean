import Membrane.LiqQueue.Proofs.Sound

/-!
# Submitting as moves

A submitted bid joins its slot, waits there, or is split in two of which one joins and one
waits.
-/

namespace Membrane.LiqQueue

open Outcome

/-- A run of moves of a queue. -/
abbrev Book.Runs (allowed : Book → Move → Prop) : Book → Book → Prop :=
  RunWhere Book.Moves allowed

theorem Book.Runs.sound {allowed : Book → Move → Prop} {b b' : Book}
    (run : Book.Runs allowed b b') (h : b.queue.Sound) : b'.queue.Sound :=
  have hkeeps : ∀ (b : Book) (m : Move) (b' : Book), b.queue.Sound → allowed b m → b.Moves m b' →
      b'.queue.Sound := fun _ _ _ hsound _ moves => Book.Moves.sound hsound moves
  RunWhere.keeps hkeeps run h

theorem Book.moves_held (b : Book) {premium : Nat} {slot slot' : PremiumSlot} (move : SlotMove)
    {sums' : SlotSums} (home : slot.liqPremium = Decimal256.percent premium)
    (ready : move.Ready b.queue) (moves : SlotMoves (b.sums premium) slot move slot' sums') :
    (b.held premium slot).Moves (.slot premium move) (b.after premium slot move slot' sums') := by
  have hfound : (b.held premium slot).queue.findSlot premium = some slot :=
    Queue.findSlot_replaceSlots_self b.queue home
  have hready : move.Ready (b.held premium slot).queue := by
    cases move <;> exact ready
  have hcount : move.count (b.held premium slot).queue =
      (move.count b.queue).replaceSlots (Decimal256.percent premium) slot := by
    cases move <;> rfl
  have hmoves := Book.Moves.slot hfound hready moves
  unfold Book.after Book.counted at hmoves ⊢
  rw [hcount] at hmoves
  unfold Book.held at hmoves ⊢
  simp only [Queue.replaceSlots_twice _ home] at hmoves
  exact hmoves

def bookOf (s : State) (bidFor : AssetInfo) (queue : Queue) (ledger : Ledger) : Book :=
  ⟨queue, slotSums s.epochScaleSums bidFor.toText, ledger⟩

@[simp]
theorem loadQueue_eq_ok {s : State} {bidFor : AssetInfo} {queue : Queue} :
    loadQueue s bidFor = .ok queue ↔ s.queues.lookup bidFor.toText = some queue := by
  simp [loadQueue]

@[simp]
theorem readPremiumSlot_eq_ok {queue : Queue} {premium : Nat} {slot : PremiumSlot} :
    readPremiumSlot queue premium = .ok slot ↔ queue.findSlot premium = some slot := by
  simp [readPremiumSlot]

theorem takeBidId_eq {queue queue' : Queue} (done : takeBidId queue = .ok queue') :
    queue' = { queue with currentBidId := queue.currentBidId + 1 } := by
  simp only [takeBidId, bind_eq_ok, Uint128.add_eq_ok, pure_eq_ok] at done
  obtain ⟨_, ⟨-, rfl⟩, rfl⟩ := done
  rfl

theorem activateBid_eq {bid : Bid} {queue queue' : Queue} {slot slot' : PremiumSlot}
    (done : activateBid bid queue slot = .ok (queue', slot')) :
    bid.amount < Uint128.limit ∧ queue' = queue.withAmount (queue.bidAsset.amount + bid.amount) ∧
      slot' = slot.join bid := by
  simp only [activateBid, bind_eq_ok, Uint256.toUint128_eq_ok, Uint128.add_eq_ok,
    Uint256.add_eq_ok, pure_eq_ok, Prod.mk.injEq] at done
  obtain ⟨_, ⟨hfits, rfl⟩, _, ⟨-, rfl⟩, _, ⟨-, rfl⟩, rfl, rfl⟩ := done
  exact ⟨hfits, rfl, rfl⟩

/-- Where a new bid goes: what of it joins the slot and what of it is left to wait. -/
inductive Placed (bid : Bid) (queue : Queue) (slot : PremiumSlot) :
    Queue → PremiumSlot → Bid → Prop where
  | whole :
      Placed bid queue slot ((SlotMove.join bid).count queue) (slot.join bid)
        { bid with amount := 0 }
  | part {active waiting} (adds : active + waiting = bid.amount) :
      Placed bid queue slot
        { (SlotMove.join { bid with amount := active }).count queue with
          currentBidId := queue.currentBidId + 2 }
        (slot.join { bid with amount := active })
        { bid with id := queue.currentBidId + 1, amount := waiting }
  | none : Placed bid queue slot { queue with currentBidId := queue.currentBidId + 1 } slot bid

theorem placeBid_placed {config : Config} {bid rest : Bid} {queue queue' : Queue}
    {slot slot' : PremiumSlot} (done : placeBid config bid queue slot = .ok (queue', slot', rest)) :
    Placed bid queue slot queue' slot' rest := by
  simp only [placeBid, bind_eq_ok] at done
  obtain ⟨queue₁, htake, done⟩ := done
  obtain rfl := takeBidId_eq htake
  split at done
  case isTrue =>
    simp only [bind_eq_ok, Uint256.add_eq_ok] at done
    obtain ⟨_, ⟨-, rfl⟩, _, ⟨-, rfl⟩, done⟩ := done
    split at done
    case isTrue =>
      simp only [bind_eq_ok, pure_eq_ok, Prod.mk.injEq] at done
      obtain ⟨⟨queue₂, slot₂⟩, hactivate, rfl, rfl, rfl⟩ := done
      obtain ⟨-, rfl, rfl⟩ := activateBid_eq hactivate
      exact .whole
    case isFalse =>
      simp only [bind_eq_ok, subUint_eq_ok, pure_eq_ok, Prod.mk.injEq] at done
      obtain ⟨_, ⟨-, rfl⟩, active, ⟨hle, hactive⟩, queue₂, htake', ⟨queue₃, slot₃⟩, hactivate,
        rfl, rfl, rfl⟩ := done
      obtain rfl := takeBidId_eq htake'
      obtain ⟨-, rfl, rfl⟩ := activateBid_eq hactivate
      exact .part (by omega)
  case isFalse =>
    simp only [pure_eq_ok, Prod.mk.injEq] at done
    obtain ⟨rfl, rfl, rfl⟩ := done
    exact .none

theorem queueBid_eq {env : Env} {config : Config} {bid : Bid} {slot slot' : PremiumSlot}
    (done : queueBid env config bid slot = .ok slot') :
    (bid.amount = 0 ∧ slot' = slot) ∨ (bid.amount ≠ 0 ∧ ∃ waitEnd,
      slot' = { slot with
        waitingBids := slot.waitingBids ++ [{ bid with waitEnd := some waitEnd }] }) := by
  unfold queueBid at done
  split at done
  case isTrue hne =>
    simp only [bind_eq_ok, guardErr_eq_ok, pure_eq_ok] at done
    obtain ⟨waitEnd, -, _, -, rfl⟩ := done
    exact Or.inr ⟨hne, waitEnd, rfl⟩
  case isFalse hzero =>
    simp only [pure_eq_ok] at done
    exact Or.inl ⟨by simpa using hzero, done.symm⟩

/-- A submitted bid: whose it is, what was sent for it, and the queue and the slot it is
    for. -/
structure Submission (s : State) (info : MessageInfo) (bidInput : BidInput) where
  user : Addr
  amount : Nat
  queue : Queue
  slot : PremiumSlot
  found : s.queues.lookup bidInput.bidFor.toText = some queue
  premium : bidInput.liqPremium ≤ queue.maxPremium % 256
  home : queue.findSlot bidInput.liqPremium = some slot
  fits : amount < Uint128.limit
  sent : ∃ denom, queue.bidAsset.info = .nativeToken denom ∧ info.funds = [⟨denom, amount⟩]

theorem assertBidAsset_eq {bidAsset : AssetInfo} {info : MessageInfo} {minimumBid : Nat}
    {asset : Asset} (done : assertBidAssetFromSentFunds bidAsset info minimumBid = .ok asset) :
    ∃ denom, bidAsset = .nativeToken denom ∧ info.funds = [⟨denom, asset.amount⟩] := by
  unfold assertBidAssetFromSentFunds at done
  cases hfunds : info.funds with
  | nil => simp [hfunds] at done
  | cons coin others =>
    rw [hfunds] at done
    cases bidAsset with
    | token => simp at done
    | nativeToken denom =>
      simp only [bind_eq_ok, guardErr_eq_ok, pure_eq_ok] at done
      obtain ⟨_, hvalid, _, -, rfl⟩ := done
      obtain ⟨rfl, rfl⟩ : coin.denom = denom ∧ others = [] := by simpa using hvalid
      exact ⟨coin.denom, rfl, rfl⟩

theorem submitBid_eq {deps : Deps} {env : Env} {info : MessageInfo} {bidInput : BidInput}
    {bidOwner : Option String} {s s' : State} {response : Response OutMsg}
    (done : submitBid deps env info bidInput bidOwner s = .ok (s', response)) :
    ∃ (sub : Submission s info bidInput) (queue' : Queue) (slot' slot'' : PremiumSlot) (rest : Bid),
      validatePositionOwner deps info bidOwner = .ok sub.user ∧
      Placed (newBid sub.user sub.queue.currentBidId sub.amount bidInput.liqPremium) sub.queue
        sub.slot queue' slot' rest ∧
      queueBid env s.config rest slot' = .ok slot'' ∧
      s' = saveQueue s bidInput.bidFor
        (queue'.replaceSlots (Decimal256.percent bidInput.liqPremium) slot'') ∧
      response = {} := by
  simp only [submitBid, bind_eq_ok, liftStd_eq_ok, loadQueue_eq_ok, ofOption_eq_ok,
    Uint256.toUint128_eq_ok, pure_eq_ok, Prod.mk.injEq] at done
  obtain ⟨user, howner, _, hinput, queue, hqueue, asset, hasset, slot, hslot, amount,
    ⟨hfits, rfl⟩, ⟨queue', slot', rest⟩, hplace, slot'', hwait, rfl, rfl⟩ := done
  have hpremium : bidInput.liqPremium ≤ queue.maxPremium % 256 := by
    simp only [validateBidInput, hqueue, guardErr_eq_ok] at hinput
    omega
  exact ⟨⟨user, asset.amount, queue, slot, hqueue, hpremium, hslot, hfits,
    assertBidAsset_eq hasset⟩, queue', slot', slot'', rest, howner, placeBid_placed hplace, hwait,
    rfl, rfl⟩

/-- The moves a submission makes. -/
inductive Submits (user : Addr) (premium : Nat) (b : Book) : Move → Prop where
  | skipBidId : Submits user premium b .skipBidId
  | touch (blockTime : Nat) : Submits user premium b (.slot premium (.touch blockTime))
  | join {bid : Bid} (owner : bid.user = user) (low : premium ≤ b.queue.maxPremium % 256) :
      Submits user premium b (.slot premium (.join bid))
  | wait {bid : Bid} (owner : bid.user = user) (low : premium ≤ b.queue.maxPremium % 256) :
      Submits user premium b (.slot premium (.wait bid))

theorem Book.counted_same (b : Book) (premium : Nat) (slot : PremiumSlot) (move : SlotMove) :
    b.counted premium slot move (b.sums premium) =
      ⟨move.count b.queue, b.sums, b.ledger.record premium slot move⟩ := by
  unfold Book.counted
  rw [Function.update_eq_self]

theorem Book.moves_touch {b : Book} {premium : Nat} {slot : PremiumSlot}
    (found : b.queue.findSlot premium = some slot) :
    b.Moves (.slot premium (.touch slot.lastTotal)) (b.held premium slot) := by
  have hmove := Book.Moves.slot found (show SlotMove.Ready b.queue (.touch slot.lastTotal) from
    trivial) .touch
  unfold Book.after at hmove
  rw [Book.counted_same] at hmove
  exact hmove

theorem Placed.runs {user : Addr} {amount liqPremium : Nat} {env : Env} {config : Config}
    {b : Book} {queue' : Queue} {slot slot' slot'' : PremiumSlot} {rest : Bid}
    (found : b.queue.findSlot liqPremium = some slot) (fits : amount < Uint128.limit)
    (low : liqPremium ≤ b.queue.maxPremium % 256)
    (placed : Placed (newBid user b.queue.currentBidId amount liqPremium) b.queue slot queue'
      slot' rest)
    (queued : queueBid env config rest slot' = .ok slot'') :
    Book.Runs (Submits user liqPremium) b
      { b with
        queue := queue'.replaceSlots (Decimal256.percent liqPremium) slot''
        ledger := { b.ledger with deposited := b.ledger.deposited + amount } } := by
  have hhome := Queue.findSlot_premium found
  -- the first move of the slot
  have first : ∀ {move : SlotMove} {moved : PremiumSlot},
      Submits user liqPremium b (.slot liqPremium move) → move.Ready b.queue →
      SlotMoves (b.sums liqPremium) slot move moved (b.sums liqPremium) →
      Book.Runs (Submits user liqPremium) b
        (Book.held ⟨move.count b.queue, b.sums, b.ledger.record liqPremium slot move⟩
          liqPremium moved) := by
    intro move moved hallowed hready hmoves
    rw [← Book.counted_same]
    exact .single ⟨_, hallowed, .slot found hready hmoves⟩
  cases placed with
  | whole =>
    rcases queueBid_eq queued with ⟨-, rfl⟩ | ⟨hne, -⟩
    · exact first (.join rfl low) rfl (.join hhome fits)
    · exact absurd rfl hne
  | @part active waiting adds =>
    have hadds : active + waiting = amount := adds
    have hjoin := @first (.join (newBid user b.queue.currentBidId active liqPremium)) _
      (.join rfl low) rfl (.join hhome (by omega))
    rcases queueBid_eq queued with ⟨hzero, rfl⟩ | ⟨hne, waitEnd, rfl⟩
    · obtain rfl : active = amount := by
        have : waiting = 0 := hzero
        omega
      exact hjoin.tail ⟨.skipBidId, .skipBidId, .skipBidId⟩
    · have hwait := Book.moves_held ⟨(SlotMove.join (newBid user b.queue.currentBidId active
          liqPremium)).count b.queue, b.sums, b.ledger.record liqPremium slot
          (.join (newBid user b.queue.currentBidId active liqPremium))⟩
        (.wait (waitingBid user (b.queue.currentBidId + 1) waiting liqPremium waitEnd))
        (show (slot.join (newBid user b.queue.currentBidId active liqPremium)).liqPremium = _
          from hhome) rfl (.wait hhome hne (by omega))
      unfold Book.after at hwait
      rw [Book.counted_same] at hwait
      rw [← hadds, ← Nat.add_assoc]
      exact hjoin.tail ⟨_, .wait rfl low, hwait⟩
  | none =>
    rcases queueBid_eq queued with ⟨hzero, rfl⟩ | ⟨hne, waitEnd, rfl⟩
    · have hnothing : amount = 0 := hzero
      subst hnothing
      have htouch := Book.moves_touch (b := ⟨{ b.queue with
        currentBidId := b.queue.currentBidId + 1 }, b.sums, b.ledger⟩) found
      exact .head ⟨.skipBidId, .skipBidId, .skipBidId⟩ (.single ⟨_, .touch _, htouch⟩)
    · exact @first (.wait (waitingBid user b.queue.currentBidId amount liqPremium waitEnd)) _
        (.wait rfl low) rfl (.wait hhome hne fits)

end Membrane.LiqQueue
