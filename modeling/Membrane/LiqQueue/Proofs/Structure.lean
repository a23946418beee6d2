import Membrane.LiqQueue.Proofs.Reach

/-!
# The slots of a queue and the bids in them

A queue has one slot for each premium up to its maximum, and every bid in it can be read,
as long as the maximum is not raised over slots that are there and not lowered below bids.
-/

namespace Membrane.LiqQueue

open Outcome

/-- A queue with one slot for each premium, whose bids are within the premiums that reading
    goes over. -/
structure Queue.Structured (queue : Queue) : Prop where
  distinct : (queue.slots.map PremiumSlot.liqPremium).Nodup
  complete : ∀ premium, premium ≤ queue.maxPremium → (queue.findSlot premium).isSome = true
  narrow : queue.maxPremium % 256 ≠ 255
  reached : ∀ bid ∈ queue.allBids, bid.liqPremium ≤ queue.maxPremium % 256

/-! ## Reading -/

theorem findBid_isSome {slot : PremiumSlot} {bid : Bid} (mem : bid ∈ slot.allBids) :
    slot.findBid bid.id ≠ none := by
  unfold PremiumSlot.findBid
  intro hnone
  obtain ⟨hactive, hwaiting⟩ := Option.or_eq_none_iff.mp hnone
  rcases mem_allBids.mp mem with hmem | hmem
  · exact absurd (List.find?_eq_none.mp hactive bid hmem) (by simp)
  · exact absurd (List.find?_eq_none.mp hwaiting bid hmem) (by simp)

private theorem readBidFrom_found {queue : Queue} {bid : Bid} (sound : queue.Sound)
    (mem : bid ∈ queue.allBids) :
    ∀ {premiums : List Nat}, (∀ premium ∈ premiums, (queue.findSlot premium).isSome = true) →
      bid.liqPremium ∈ premiums → readBidFrom bid.id queue premiums = .ok bid := by
  intro premiums
  induction premiums with
  | nil => intro _ hmem; cases hmem
  | cons premium rest ih =>
    intro hslots hpremium
    obtain ⟨slot, hslot⟩ := Option.isSome_iff_exists.mp (hslots premium List.mem_cons_self)
    simp only [readBidFrom, bind_eq_ok, readPremiumSlot_eq_ok]
    refine ⟨slot, hslot, ?_⟩
    cases hfound : slot.findBid bid.id with
    | some other =>
      obtain ⟨hmem, hid⟩ := findBid_mem hfound
      have hother := Queue.Sound.mem_allBids_of_slot hslot hmem
      exact congrArg Except.ok (sound.eq_of_id hother mem hid)
    | none =>
      refine ih (fun other hother => hslots other (List.mem_cons_of_mem _ hother)) ?_
      rcases List.mem_cons.mp hpremium with rfl | hrest
      · obtain ⟨slot', hslot', hmem⟩ := sound.home mem
        rw [hslot] at hslot'
        obtain rfl := Option.some.inj hslot'
        exact absurd hfound (findBid_isSome hmem)
      · exact hrest

theorem Queue.Structured.readBid {queue : Queue} {bid : Bid} (h : queue.Structured)
    (sound : queue.Sound) (mem : bid ∈ queue.allBids) : readBid bid.id queue = .ok bid := by
  simp only [LiqQueue.readBid, bind_eq_ok, guardPanic_eq_ok]
  refine ⟨⟨⟩, h.narrow, readBidFrom_found sound mem (fun premium hpremium => ?_) ?_⟩
  · have hlt := List.mem_range.mp hpremium
    have hmod := Nat.mod_le queue.maxPremium 256
    exact h.complete premium (by omega)
  · exact List.mem_range.mpr (Nat.lt_succ_of_le (h.reached bid mem))

/-! ## Moves -/

def Move.Fits (b : Book) : Move → Prop
  | .slot premium (.join _) => premium ≤ b.queue.maxPremium % 256
  | .slot premium (.wait _) => premium ≤ b.queue.maxPremium % 256
  | .setMaxPremium maxPremium =>
    (∀ premium, b.queue.maxPremium < premium → premium ≤ maxPremium →
      b.queue.findSlot premium = none) ∧
    ∀ bid ∈ b.queue.allBids, bid.liqPremium ≤ maxPremium
  | _ => True

namespace Book.Moves

variable {b b' : Book} {m : Move}

theorem structured (h : b.queue.Sound) (fits : m.Fits b) (structured : b.queue.Structured)
    (moves : b.Moves m b') : b'.queue.Structured := by
  cases moves with
  | @slot premium slot move slot' sums' found ready moves =>
    have hhome' : slot'.liqPremium = Decimal256.percent premium := by
      rw [moves.liqPremium_eq]
      exact Queue.findSlot_premium found
    have hslots : (b.after premium slot move slot' sums').queue.slots =
        (b.queue.replaceSlots (Decimal256.percent premium) slot').slots := by
      unfold Book.after Book.held Book.counted Queue.replaceSlots
      rw [Queue.count_slots]
    have hmax : (b.after premium slot move slot' sums').queue.maxPremium =
        b.queue.maxPremium := by
      cases move <;> rfl
    have hfind : ∀ other, (b.after premium slot move slot' sums').queue.findSlot other =
        (b.queue.replaceSlots (Decimal256.percent premium) slot').findSlot other := by
      intro other
      unfold Queue.findSlot
      rw [hslots]
    refine ⟨?_, fun other hother => ?_, by rw [hmax]; exact structured.narrow,
      fun bid hbid => ?_⟩
    · rw [hslots]
      unfold Queue.replaceSlots
      rw [List.map_append]
      refine List.nodup_append.mpr ⟨?_, List.nodup_singleton _, ?_⟩
      · exact (List.filter_sublist.map PremiumSlot.liqPremium).nodup structured.distinct
      · intro key hkey key' hkey' heq
        obtain ⟨other, hother, rfl⟩ := List.mem_map.mp hkey
        obtain rfl := List.mem_singleton.mp hkey'
        exact absurd (heq.trans hhome') (by simpa using (List.mem_filter.mp hother).2)
    · rw [hmax] at hother
      rw [hfind]
      by_cases hpremium : premium = other
      · subst hpremium
        rw [Queue.findSlot_replaceSlots_self b.queue hhome']
        rfl
      · rw [Queue.findSlot_replaceSlots_ne b.queue hhome' hpremium]
        exact structured.complete other hother
    · rw [hmax]
      rw [after_allBids] at hbid
      rcases List.mem_append.mp hbid with hbid | hbid
      · obtain ⟨other, hother, hmem⟩ := List.mem_flatMap.mp hbid
        exact structured.reached bid
          (List.mem_flatMap.mpr ⟨other, (List.mem_filter.mp hother).1, hmem⟩)
      · have hslot := h.slots slot (Queue.findSlot_mem found)
        have hsame : bid.liqPremium = premium := by
          have hplaced := (moves.sound hslot).placed bid hbid
          rw [hhome'] at hplaced
          exact (Decimal256.percent_inj.mp hplaced).symm
        rw [hsame]
        -- a bid was there before, or the move brought the first one
        cases hbids : slot.allBids with
        | cons first rest =>
          have hfirst : first ∈ slot.allBids := by
            rw [hbids]
            exact List.mem_cons_self
          have hplaced := hslot.placed first hfirst
          rw [Queue.findSlot_premium found] at hplaced
          rw [Decimal256.percent_inj.mp hplaced]
          exact structured.reached first (Queue.Sound.mem_allBids_of_slot found hfirst)
        | nil =>
          have hids := moves.ids
          rw [hbids, List.map_nil, List.append_nil] at hids
          have hnew : bid.id ∈ move.newIds := hids.subset (List.mem_map_of_mem hbid)
          cases move with
          | join | wait => exact fits
          | _ => cases hnew
  | skipBidId | burn | setBidThreshold =>
    exact ⟨structured.distinct, structured.complete, structured.narrow, structured.reached⟩
  | @setMaxPremium maxPremium queue' done =>
    obtain ⟨hqueue, hslots⟩ := setMaxPremium_slots done
    obtain ⟨hfree, hlow⟩ := fits
    have hbounds : maxPremium ≤ 50 := by
      simp only [LiqQueue.setMaxPremium, bind_eq_ok, guardErr_eq_ok] at done
      obtain ⟨_, hbounds, -⟩ := done
      omega
    have hmax : queue'.maxPremium = maxPremium := by
      rw [hqueue]
    have hnew : ∀ premium, b.queue.maxPremium < premium → premium ≤ maxPremium →
        ∃ slot ∈ (List.range' (b.queue.maxPremium + 1)
          (maxPremium - b.queue.maxPremium)).map newSlot,
          slot.liqPremium = Decimal256.percent premium := by
      intro premium hover hle
      refine ⟨newSlot premium, List.mem_map_of_mem (List.mem_range'_1.mpr ⟨hover, ?_⟩), rfl⟩
      omega
    refine ⟨?_, fun premium hpremium => ?_, by rw [hmax]; omega, fun bid hbid => ?_⟩
    · rw [hslots, List.map_append]
      refine List.nodup_append.mpr ⟨structured.distinct, ?_, ?_⟩
      · rw [List.map_map]
        refine List.Nodup.map ?_ List.nodup_range'
        intro premium premium' heq
        exact Decimal256.percent_inj.mp heq
      · intro key hkey key' hkey' heq
        obtain ⟨slot, hslot, rfl⟩ := List.mem_map.mp hkey
        obtain ⟨slot', hslot', rfl⟩ := List.mem_map.mp hkey'
        obtain ⟨premium, hpremium, rfl⟩ := List.mem_map.mp hslot'
        have hrange := List.mem_range'_1.mp hpremium
        have hnone := hfree premium (by omega) (by omega)
        have hne : slot.liqPremium ≠ Decimal256.percent premium := by
          simpa using List.find?_eq_none.mp hnone slot hslot
        exact absurd heq hne
    · rw [hmax] at hpremium
      have hsplit : queue'.findSlot premium = (b.queue.findSlot premium).or
          (((List.range' (b.queue.maxPremium + 1) (maxPremium - b.queue.maxPremium)).map
            newSlot).find? fun slot => slot.liqPremium = Decimal256.percent premium) := by
        unfold Queue.findSlot
        rw [hslots]
        exact List.find?_append
      rw [hsplit]
      by_cases hold : premium ≤ b.queue.maxPremium
      · obtain ⟨slot, hslot⟩ := Option.isSome_iff_exists.mp (structured.complete premium hold)
        rw [hslot]
        rfl
      · obtain ⟨slot, hslot, hhome⟩ := hnew premium (by omega) hpremium
        rw [hfree premium (by omega) hpremium, Option.none_or]
        exact List.find?_isSome.mpr ⟨slot, hslot, by simpa using hhome⟩
    · rw [allBids_setMaxPremium done] at hbid
      rw [hmax, Nat.mod_eq_of_lt (by omega)]
      exact hlow bid hbid

end Book.Moves

/-! ## Bids that stay -/

/-- A move that can take a bid out of its slot: all of it is retracted, or it is claimed with
    no more than one token left. -/
inductive SlotMove.Removes (slot : PremiumSlot) (bid : Bid) : SlotMove → Prop where
  | unqueue : SlotMove.Removes slot bid (.unqueue bid bid.amount)
  | withdraw (residue : Nat) : SlotMove.Removes slot bid (.withdraw bid bid.amount residue)
  | claim {got remaining residue} (left : calculateRemainingBid bid slot = .ok (remaining, residue))
      (spent : remaining ≤ 1) : SlotMove.Removes slot bid (.claim bid got)

def Queue.Owns (queue : Queue) (id : Nat) (user : Addr) : Prop :=
  ∃ bid ∈ queue.allBids, bid.id = id ∧ bid.user = user

namespace SlotMoves

variable {sums sums' : SlotSums} {slot slot' : PremiumSlot} {move : SlotMove}

theorem keeps_owner (moves : SlotMoves sums slot move slot' sums')
    (distinct : (slot.allBids.map Bid.id).Nodup) {bid : Bid} (mem : bid ∈ slot.allBids) :
    (∃ bid' ∈ slot'.allBids, bid'.id = bid.id ∧ bid'.user = bid.user) ∨ move.Removes slot bid := by
  by_cases hid : bid.id ∈ move.settled
  · have hsame : ∀ {other : Bid}, other ∈ slot.allBids → bid.id ∈ [other.id] → other = bid := by
      intro other hother hid
      exact List.inj_on_of_nodup_map distinct hother mem (List.mem_singleton.mp hid).symm
    cases moves with
    | join | wait | touch | liquidate => cases hid
    | @activate other before behind waits =>
      have hother : other ∈ slot.allBids := by
        rw [mem_allBids, waits]
        exact Or.inr (List.mem_append_right _ List.mem_cons_self)
      obtain rfl := hsame hother hid
      refine Or.inl ⟨processBidActivation other slot, ?_, rfl, rfl⟩
      exact mem_allBids.mpr (Or.inl (List.mem_append_right _ (List.mem_singleton_self _)))
    | @unqueue other amount waits =>
      obtain rfl := hsame (mem_allBids.mpr (Or.inr waits)) hid
      by_cases hall : amount = other.amount
      · subst hall
        exact Or.inr .unqueue
      · refine Or.inl ⟨{ other with amount := other.amount - amount }, ?_, rfl, rfl⟩
        refine mem_allBids.mpr (Or.inr (List.mem_append_right _ ?_))
        unfold keptWaiting
        rw [if_neg hall]
        exact List.mem_singleton_self _
    | @withdraw other amount residue found _ active _ _ _ bids =>
      obtain rfl := hsame (mem_allBids.mpr (Or.inl active)) hid
      by_cases hall : amount = other.amount
      · subst hall
        exact Or.inr (.withdraw residue)
      · refine Or.inl ⟨other.settledAt slot (found.remaining - amount)
          (other.pendingLiquidatedCollateral + found.liquidated), ?_, rfl, rfl⟩
        rw [mem_allBids, bids]
        refine Or.inl (List.mem_append_right _ ?_)
        unfold keptActive
        rw [if_neg (fun h => hall h.1)]
        exact List.mem_singleton_self _
    | @claim other residue found _ active settles _ bids =>
      obtain rfl := hsame (mem_allBids.mpr (Or.inl active)) hid
      by_cases hspent : found.remaining ≤ 1
      · exact Or.inr (.claim settles.left hspent)
      · refine Or.inl ⟨other.settledAt slot found.remaining 0, ?_, rfl, rfl⟩
        rw [mem_allBids, bids]
        refine Or.inl (List.mem_append_right _ ?_)
        unfold keptClaimed
        rw [if_neg hspent]
        exact List.mem_singleton_self _
    | @claimWaiting other residue found _ waits settles _ _ waiting =>
      obtain rfl := hsame (mem_allBids.mpr (Or.inr waits)) hid
      by_cases hspent : found.remaining ≤ 1
      · exact Or.inr (.claim settles.left hspent)
      · refine Or.inl ⟨other.settledAt slot found.remaining 0, ?_, rfl, rfl⟩
        rw [mem_allBids, waiting]
        refine Or.inr (List.mem_append_right _ ?_)
        unfold keptClaimed
        rw [if_neg hspent]
        exact List.mem_singleton_self _
  · exact Or.inl ⟨bid, moves.keeps_bid mem hid, rfl, rfl⟩

end SlotMoves

theorem Book.Moves.keeps_owner {b b' : Book} {m : Move} (h : b.queue.Sound)
    (moves : b.Moves m b') {bid : Bid} (mem : bid ∈ b.queue.allBids) :
    b'.queue.Owns bid.id bid.user ∨ ∃ slot move, m = .slot bid.liqPremium move ∧
      b.queue.findSlot bid.liqPremium = some slot ∧ move.Removes slot bid := by
  cases moves with
  | @slot premium slot move slot' sums' found ready moves =>
    rcases List.mem_append.mp ((h.split found).mem_iff.mp mem) with hmem | hmem
    · have hpremium : bid.liqPremium = premium := by
        have hplaced := (h.slots slot (Queue.findSlot_mem found)).placed bid hmem
        rw [Queue.findSlot_premium found] at hplaced
        exact (Decimal256.percent_inj.mp hplaced).symm
      rcases moves.keeps_owner (h.distinct_slot found) hmem with ⟨bid', hbid', hsame⟩ | hremoves
      · refine Or.inl ⟨bid', ?_, hsame⟩
        rw [after_allBids]
        exact List.mem_append_right _ hbid'
      · subst hpremium
        exact Or.inr ⟨slot, move, rfl, found, hremoves⟩
    · refine Or.inl ⟨bid, ?_, rfl, rfl⟩
      rw [after_allBids]
      exact List.mem_append_left _ hmem
  | skipBidId | burn | setBidThreshold => exact Or.inl ⟨bid, mem, rfl, rfl⟩
  | setMaxPremium done =>
    refine Or.inl ⟨bid, ?_, rfl, rfl⟩
    rw [allBids_setMaxPremium done]
    exact mem

/-! ## Calls -/

/-- A call that keeps the slots of its queue apart and its bids in reach: a queue is added
    with a maximum whose slots fit 64 bits and whose low byte is not 255, the maximum is
    raised over no slot and lowered below no bid, and no claim settles a waiting bid whose
    slot has nothing left for it. -/
structure Call.KeepsSlots (s : State) (call : Call) : Prop where
  added : ∀ bidFor maxPremium bidThreshold,
    call.msg = .addQueue bidFor maxPremium bidThreshold →
    maxPremium + 1 < Uint64.limit ∧ maxPremium % 256 ≠ 255
  edited : ∀ bidFor maxPremium bidThreshold queue,
    call.msg = .updateQueue bidFor (some maxPremium) bidThreshold →
    s.queues.lookup bidFor.toText = some queue →
    (∀ premium, queue.maxPremium < premium → premium ≤ maxPremium →
      queue.findSlot premium = none) ∧ ∀ bid ∈ queue.allBids, bid.liqPremium ≤ maxPremium
  claimed : ∀ bidFor bidIds queue bids, call.msg = .claimLiquidations bidFor bidIds →
    s.queues.lookup bidFor.toText = some queue →
    bidsToClaim queue call.info.sender bidIds = .ok bids → ∀ bid ∈ bids,
    ∀ waitEnd slot remaining residue, bid.waitEnd = some waitEnd →
    waitEnd ≤ call.env.blockTime → queue.findSlot bid.liqPremium = some slot →
    calculateRemainingBid bid slot = .ok (remaining, residue) → 1 < remaining

/-- A call that releases the bid of an id: the bid is retracted with all that is recorded of
    it, or it is active and claimed when no more than one token of it is left. -/
inductive Call.Releases (s : State) (call : Call) (text : String) (id : Nat) : Prop where
  | retracted {bidFor amount queue bid} (retracts : call.msg = .retractBid id bidFor amount)
      (about : bidFor.toText = text) (stored : s.queues.lookup text = some queue)
      (read : readBid id queue = .ok bid) (all : amount = none ∨ amount = some bid.amount) :
      Call.Releases s call text id
  | consumed {bidFor bidIds queue bids bid slot remaining residue}
      (claims : call.msg = .claimLiquidations bidFor bidIds) (about : bidFor.toText = text)
      (stored : s.queues.lookup text = some queue)
      (named : bidsToClaim queue call.info.sender bidIds = .ok bids) (mem : bid ∈ bids)
      (same : bid.id = id) (active : bid.waitEnd = none)
      (found : queue.findSlot bid.liqPremium = some slot)
      (left : calculateRemainingBid bid slot = .ok (remaining, residue)) (spent : remaining ≤ 1) :
      Call.Releases s call text id

theorem calculateRemainingBid_congr {slot slot' : PremiumSlot} (bid : Bid)
    (product : slot'.productSnapshot = slot.productSnapshot)
    (epoch : slot'.currentEpoch = slot.currentEpoch)
    (scale : slot'.currentScale = slot.currentScale) :
    calculateRemainingBid bid slot' = calculateRemainingBid bid slot := by
  unfold calculateRemainingBid
  rw [product, epoch, scale]

def Queue.SamePrices (queue queue' : Queue) : Prop :=
  ∀ premium slot', queue'.findSlot premium = some slot' →
    ∃ slot, queue.findSlot premium = some slot ∧
      slot'.productSnapshot = slot.productSnapshot ∧ slot'.currentEpoch = slot.currentEpoch ∧
      slot'.currentScale = slot.currentScale

theorem Book.Moves.samePrices {queue : Queue} {b b' : Book} {premium got : Nat} {bid : Bid}
    (same : queue.SamePrices b.queue) (moves : b.Moves (.slot premium (.claim bid got)) b') :
    queue.SamePrices b'.queue := by
  cases moves with
  | @slot _ slot _ slot' sums' found ready moves =>
    rcases moves.frame with ⟨fill, hfill⟩ | ⟨hproduct, -, hepoch, hscale, -⟩
    · cases hfill
    · have hhome' : slot'.liqPremium = Decimal256.percent premium := by
        rw [moves.liqPremium_eq]
        exact Queue.findSlot_premium found
      intro other other' hother
      have hfind : (b.queue.replaceSlots (Decimal256.percent premium) slot').findSlot other =
          some other' := hother
      by_cases hpremium : premium = other
      · subst hpremium
        rw [Queue.findSlot_replaceSlots_self b.queue hhome'] at hfind
        obtain rfl := Option.some.inj hfind
        obtain ⟨slot₀, hslot₀, hproduct₀, hepoch₀, hscale₀⟩ := same premium slot found
        exact ⟨slot₀, hslot₀, hproduct.trans hproduct₀, hepoch.trans hepoch₀,
          hscale.trans hscale₀⟩
      · rw [Queue.findSlot_replaceSlots_ne b.queue hhome' hpremium] at hfind
        exact same other other' hfind

section

variable {s s' : State} {call : Call} {text : String} {queue : Queue} {id : Nat} {user : Addr}

private theorem makes_keeps_owner {ledger : Ledger} {b b' : Book} {m : Move}
    (about : call.msg.about = some text) (stored : s.queues.lookup text = some queue)
    (keeps : call.KeepsSlots s) (stays : ¬ call.Releases s text id) (sound : b.queue.Sound)
    (owns : b.queue.Owns id user)
    (same : ∀ bidFor bidIds, call.msg = .claimLiquidations bidFor bidIds →
      queue.SamePrices b.queue)
    (makes : call.Makes s ⟨queue, slotSums s.epochScaleSums text, ledger⟩ b m)
    (moves : b.Moves m b') : b'.queue.Owns id user := by
  obtain ⟨bid, hbid, rfl, rfl⟩ := owns
  rcases moves.keeps_owner sound hbid with howns | ⟨slot, move, rfl, hslot, hremoves⟩
  · exact howns
  · refine absurd ?_ stays
    generalize hm : Move.slot bid.liqPremium move = m at makes
    cases makes with
    | submit _ _ made =>
      cases made with
      | skipBidId => cases hm
      | touch | join | wait =>
        obtain ⟨-, hmove⟩ := Move.slot.inj hm
        subst hmove
        cases hremoves
    | @retract bidId bidFor amount other slot' move' refund retracts first read owner found mem
        retraction =>
        subst first
        obtain ⟨-, hmove⟩ := Move.slot.inj hm
        subst hmove
        rw [retracts] at about
        have habout : bidFor.toText = text := Option.some.inj about
        have hid := (readBid_mem read).2
        cases retraction with
        | @waiting withdraw waits asserted =>
          cases hremoves
          subst hid
          exact .retracted retracts habout stored read (assertWithdrawAmount_asked asserted)
        | @active remaining withdraw residue active asserted =>
          cases hremoves
          subst hid
          exact .retracted retracts habout stored read (assertWithdrawAmount_asked asserted)
    | liquidate _ made =>
      cases made with
      | burn => cases hm
      | activate | touch | liquidate =>
        obtain ⟨-, hmove⟩ := Move.slot.inj hm
        subst hmove
        cases hremoves
    | @claim bidFor bidIds bids _ claims named made =>
      obtain ⟨other, hother, -, hclaimable, got, hmade⟩ := made
      rw [hmade] at hm
      obtain ⟨-, hmove⟩ := Move.slot.inj hm
      subst hmove
      cases hremoves with
      | claim left spent =>
        obtain ⟨slot₀, hslot₀, hproduct, hepoch, hscale⟩ :=
          same bidFor bidIds claims bid.liqPremium slot hslot
        rw [calculateRemainingBid_congr bid hproduct hepoch hscale] at left
        rw [claims] at about
        have habout : bidFor.toText = text := Option.some.inj about
        cases hwaitEnd : bid.waitEnd with
        | none =>
          exact .consumed claims habout stored named hother rfl hwaitEnd hslot₀ left spent
        | some waitEnd =>
          have hmore := keeps.claimed bidFor bidIds queue bids claims
            (by rw [habout]; exact stored) named bid hother waitEnd slot₀ _ _ hwaitEnd
            (hclaimable waitEnd hwaitEnd) hslot₀ left
          omega
    | setMaxPremium => cases hm
    | setBidThreshold => cases hm

theorem Steps.keeps_owner (sound : s.Sound) (keeps : call.KeepsSlots s)
    (stays : ¬ call.Releases s text id) (stored : s.queues.lookup text = some queue)
    (owns : queue.Owns id user) (steps : Steps s call s') :
    ∃ queue', s'.queues.lookup text = some queue' ∧ queue'.Owns id user := by
  unfold Steps Call.exec at steps
  split at steps
  case h_2 => cases steps
  case h_1 s₁ response hexecute =>
    obtain rfl := Option.some.inj steps
    cases Call.does sound hexecute with
    | nothing about queues sums =>
      rw [queues]
      exact ⟨queue, stored, owns⟩
    | @adds bidFor maxPremium bidThreshold adds absent queues sums =>
      have hne : text ≠ bidFor.toText := by
        rintro rfl
        rw [stored] at absent
        cases absent
      rw [queues, AList.lookup_insert_ne hne]
      exact ⟨queue, stored, owns⟩
    | @moves other queue₁ queue₁' about found queues sums runs =>
      by_cases htext : text = other
      · subst htext
        obtain rfl := Option.some.inj (stored.symm.trans found)
        have hkeeps : ∀ b m b', (b.queue.Sound ∧ b.queue.Owns id user ∧
            ∀ bidFor bidIds, call.msg = .claimLiquidations bidFor bidIds →
              queue.SamePrices b.queue) →
            call.Makes s ⟨queue, slotSums s.epochScaleSums text, Ledger.blank⟩ b m →
            b.Moves m b' → (b'.queue.Sound ∧ b'.queue.Owns id user ∧
              ∀ bidFor bidIds, call.msg = .claimLiquidations bidFor bidIds →
                queue.SamePrices b'.queue) := by
          intro b m b' hb hmakes hmoves
          refine ⟨hmoves.sound hb.1, makes_keeps_owner about stored keeps stays hb.1 hb.2.1
            hb.2.2 hmakes hmoves, fun bidFor bidIds hclaims => ?_⟩
          cases hmakes with
          | submit submits | retract submits | liquidate submits | setMaxPremium submits
          | setBidThreshold submits =>
            rw [submits] at hclaims
            cases hclaims
          | claim _ _ made =>
            obtain ⟨bid, -, -, -, got, rfl⟩ := made
            exact Book.Moves.samePrices (hb.2.2 bidFor bidIds hclaims) hmoves
        have hstart : queue.SamePrices queue := fun _ slot hslot => ⟨slot, hslot, rfl, rfl, rfl⟩
        obtain ⟨-, howns, -⟩ := RunWhere.keeps hkeeps (runs Ledger.blank)
          ⟨sound text queue stored, owns, fun _ _ _ => hstart⟩
        rw [queues]
        exact ⟨queue₁', AList.lookup_insert _, howns⟩
      · rw [queues, AList.lookup_insert_ne htext]
        exact ⟨queue, stored, owns⟩

end

/-! ## Runs -/

theorem addedQueue_structured (config : Config) {maxPremium : Nat} (bidThreshold : Nat)
    (fits : maxPremium + 1 < Uint64.limit) (narrow : maxPremium % 256 ≠ 255) :
    (addedQueue config maxPremium bidThreshold).Structured := by
  have hslots : (addedQueue config maxPremium bidThreshold).slots =
      (List.range (maxPremium + 1)).map newSlot := by
    unfold addedQueue
    rw [Nat.mod_eq_of_lt fits]
  refine ⟨?_, fun premium hpremium => ?_, narrow, fun bid hbid => ?_⟩
  · rw [hslots, List.map_map]
    refine List.Nodup.map ?_ List.nodup_range
    intro premium premium' heq
    exact Decimal256.percent_inj.mp heq
  · unfold Queue.findSlot
    rw [hslots]
    refine List.find?_isSome.mpr ⟨newSlot premium, ?_, by simp [newSlot]⟩
    exact List.mem_map_of_mem (List.mem_range.mpr (Nat.lt_succ_of_le hpremium))
  · obtain ⟨slot, hslot, hmem⟩ := List.mem_flatMap.mp hbid
    obtain ⟨premium, -, rfl⟩ := List.mem_map.mp hslot
    cases hmem

theorem Call.Makes.fits {s : State} {call : Call} {text : String} {queue : Queue}
    {ledger : Ledger} {b : Book} {m : Move} (keeps : call.KeepsSlots s)
    (about : call.msg.about = some text) (stored : s.queues.lookup text = some queue)
    (makes : call.Makes s ⟨queue, slotSums s.epochScaleSums text, ledger⟩ b m) : m.Fits b := by
  cases makes with
  | submit _ _ made =>
    cases made with
    | skipBidId | touch => trivial
    | join _ low | wait _ low => exact low
  | retract _ _ _ _ _ _ retraction => cases retraction <;> trivial
  | liquidate _ made => cases made <;> trivial
  | claim _ _ made =>
    obtain ⟨_, _, _, _, _, rfl⟩ := made
    trivial
  | setMaxPremium edits first =>
    subst first
    rw [edits] at about
    have habout := Option.some.inj about
    exact keeps.edited _ _ _ queue edits (by rw [habout]; exact stored)
  | setBidThreshold => trivial

theorem structured_reachable {start s : State} (fresh : Fresh start)
    (run : RunWhere Steps (fun s call => call.KeepsSlots s) start s) :
    s.Sound ∧ ∀ text queue, s.queues.lookup text = some queue → queue.Structured := by
  obtain ⟨ledgers', hrun⟩ := Tracked.of_run run fun _ => Ledger.blank
  have hrule := Tracked.runs_keep (P := fun b => b.queue.Structured)
    (fun s call bidFor maxPremium bidThreshold hkeeps hadds => by
      obtain ⟨hfits, hnarrow⟩ := hkeeps.added bidFor maxPremium bidThreshold hadds
      exact addedQueue_structured s.config bidThreshold hfits hnarrow)
    (fun t call text queue hkeeps habout hqueue b m b' hsound hstructured hmakes hmoves =>
      hmoves.structured hsound (hmakes.fits hkeeps habout hqueue) hstructured)
    hrun (Tracked.tidy_start fresh) (Tracked.every_start _ fresh)
  exact ⟨hrule.1.sound, fun text queue hqueue => hrule.2 text queue hqueue⟩

theorem join_allBids (slot : PremiumSlot) (bid : Bid) :
    (slot.join bid).allBids.Perm (slot.allBids ++ [processBidActivation bid slot]) := by
  show ((slot.bids ++ [_]) ++ slot.waitingBids).Perm ((slot.bids ++ slot.waitingBids) ++ [_])
  rw [List.append_assoc, List.append_assoc]
  exact List.perm_append_comm.append_left slot.bids

theorem wait_allBids (slot : PremiumSlot) (bid : Bid) :
    ({ slot with waitingBids := slot.waitingBids ++ [bid] } : PremiumSlot).allBids.Perm
      (slot.allBids ++ [bid]) :=
  .of_eq (List.append_assoc _ _ _).symm

/-- Bids that a submission stores: all are its user's, and they add up to what was sent. -/
structure PlacedPieces (pieces : List Bid) (user : Addr) (amount : Nat) : Prop where
  some : pieces ≠ []
  owner : ∀ piece ∈ pieces, piece.user = user
  adds : (pieces.map Bid.amount).sum = amount

theorem placed_pieces {env : Env} {config : Config} {bid rest : Bid} {queue queue' : Queue}
    {slot slot' slot'' : PremiumSlot} (placed : Placed bid queue slot queue' slot' rest)
    (queued : queueBid env config rest slot' = .ok slot'') (positive : 0 < bid.amount) :
    ∃ pieces, slot''.allBids.Perm (slot.allBids ++ pieces) ∧
      PlacedPieces pieces bid.user bid.amount := by
  cases placed with
  | whole =>
    rcases queueBid_eq queued with ⟨-, rfl⟩ | ⟨hsome, -⟩
    · refine ⟨_, join_allBids slot bid, List.cons_ne_nil _ _, ?_, by simp [processBidActivation]⟩
      exact fun piece mem => by rw [List.mem_singleton.mp mem]; rfl
    · exact absurd rfl hsome
  | @part active waiting adds =>
    have hjoin := join_allBids slot { bid with amount := active }
    rcases queueBid_eq queued with ⟨hzero, rfl⟩ | ⟨-, waitEnd, rfl⟩
    · have hnone : waiting = 0 := hzero
      refine ⟨_, hjoin, List.cons_ne_nil _ _, ?_, by simpa [processBidActivation, hnone] using adds⟩
      exact fun piece mem => by rw [List.mem_singleton.mp mem]; rfl
    · refine ⟨_, (wait_allBids _ _).trans (hjoin.append_right _) |>.trans
        (.of_eq (List.append_assoc _ _ _)), List.cons_ne_nil _ _, ?_, ?_⟩
      · intro piece mem
        rcases List.mem_pair.mp mem with rfl | rfl <;> rfl
      · simpa [processBidActivation] using adds
  | none =>
    rcases queueBid_eq queued with ⟨hzero, -⟩ | ⟨-, waitEnd, rfl⟩
    · exact absurd hzero (Nat.ne_of_gt positive)
    · refine ⟨_, wait_allBids slot _, List.cons_ne_nil _ _, ?_, by simp⟩
      exact fun piece mem => by rw [List.mem_singleton.mp mem]

theorem submitBid_accepts {s s' : State} {call : Call} {bidInput : BidInput}
    {bidOwner : Option String} (sound : s.Sound) (submits : call.msg = .submitBid bidInput bidOwner)
    (steps : Steps s call s') :
    ∃ queue queue' user coin pieces, s.queues.lookup bidInput.bidFor.toText = some queue ∧
      s'.queues.lookup bidInput.bidFor.toText = some queue' ∧
      validatePositionOwner call.deps call.info bidOwner = .ok user ∧ call.info.funds = [coin] ∧
      queue'.allBids.Perm (queue.allBids ++ pieces) ∧ PlacedPieces pieces user coin.amount := by
  unfold Steps Call.exec at steps
  split at steps
  case h_2 => cases steps
  case h_1 s₁ response hexecute =>
    obtain rfl := Option.some.inj steps
    rw [submits] at hexecute
    obtain ⟨sub, queue', slot', slot'', rest, howner, hplaced, hqueued, rfl, -⟩ :=
      submitBid_eq hexecute
    obtain ⟨denom, -, hfunds⟩ := sub.sent
    have hpositive : 0 < sub.amount := by
      refine call.info.positive ⟨denom, sub.amount⟩ ?_
      rw [hfunds]
      exact List.mem_singleton_self _
    have hbeside : queue'.bidsBeside bidInput.liqPremium =
        sub.queue.bidsBeside bidInput.liqPremium := by cases hplaced <;> rfl
    obtain ⟨pieces, hbids, hpieces⟩ := placed_pieces hplaced hqueued hpositive
    refine ⟨sub.queue, _, sub.user, _, pieces, sub.found, AList.lookup_insert _, howner, hfunds,
      ?_, hpieces⟩
    rw [Queue.allBids_replaceSlots, hbeside]
    have hsplit := (sound _ _ sub.found).split sub.home
    refine ((hbids.append_left _).trans List.perm_append_comm).trans ?_
    rw [List.append_assoc]
    refine (List.perm_append_comm.append_left _).trans ?_
    rw [← List.append_assoc]
    exact (hsplit.append_right pieces).symm

/-- The bid of an id is read in a queue, as a user's. -/
def State.Reads (s : State) (text : String) (id : Nat) (user : Addr) : Prop :=
  ∃ queue bid, s.queues.lookup text = some queue ∧ readBid id queue = .ok bid ∧ bid.user = user

theorem reads_until_released {start s s' : State} {text : String} {queue : Queue} {bid : Bid}
    (fresh : Fresh start) (run : RunWhere Steps (fun s call => call.KeepsSlots s) start s)
    (stored : s.queues.lookup text = some queue) (mem : bid ∈ queue.allBids)
    (later : RunWhere Steps (fun s call => call.KeepsSlots s ∧
      ¬ call.Releases s text bid.id) s s') :
    s'.Reads text bid.id bid.user := by
  have hkept : ∀ s call s', (RunWhere Steps (fun s call => call.KeepsSlots s) start s ∧
      ∃ queue', s.queues.lookup text = some queue' ∧ queue'.Owns bid.id bid.user) →
      (call.KeepsSlots s ∧ ¬ call.Releases s text bid.id) → Steps s call s' →
      (RunWhere Steps (fun s call => call.KeepsSlots s) start s' ∧
        ∃ queue', s'.queues.lookup text = some queue' ∧ queue'.Owns bid.id bid.user) := by
    rintro s call s' ⟨hreach, queue', hqueue', howns'⟩ ⟨hkeeps', hstays⟩ hstep
    exact ⟨hreach.tail ⟨call, hkeeps', hstep⟩, Steps.keeps_owner
      (structured_reachable fresh hreach).1 hkeeps' hstays hqueue' howns' hstep⟩
  obtain ⟨hreach, queue', hqueue', bid', hbid, hid, huser⟩ :=
    RunWhere.keeps hkept later ⟨run, queue, stored, bid, mem, rfl, rfl⟩
  obtain ⟨hsound, hstructured⟩ := structured_reachable fresh hreach
  have hread := (hstructured _ queue' hqueue').readBid (hsound _ queue' hqueue') hbid
  rw [hid] at hread
  exact ⟨queue', bid', hqueue', hread, huser⟩

/-- A queue has one slot for each premium up to its maximum, its bids have ids of their
    own, and each is read under its id, in every state that is reached by calls that keep
    the slots apart. Every bid that is stored is read for its owner until a call releases it,
    and so is every piece that an accepted submission adds. -/
theorem slots_structured {start s : State} (fresh : Fresh start)
    (run : RunWhere Steps (fun s call => call.KeepsSlots s) start s) :
    (∀ text queue, s.queues.lookup text = some queue →
      (queue.slots.map PremiumSlot.liqPremium).Nodup ∧
      (∀ premium, premium ≤ queue.maxPremium → ∃ slot ∈ queue.slots,
        slot.liqPremium = Decimal256.percent premium) ∧
      (queue.allBids.map Bid.id).Nodup ∧
      ∀ bid ∈ queue.allBids, readBid bid.id queue = .ok bid) ∧
    (∀ text queue, s.queues.lookup text = some queue → ∀ bid ∈ queue.allBids, ∀ s',
      RunWhere Steps (fun s call => call.KeepsSlots s ∧ ¬ call.Releases s text bid.id) s s' →
      s'.Reads text bid.id bid.user) ∧
    ∀ call s₁ bidInput bidOwner, call.KeepsSlots s → call.msg = .submitBid bidInput bidOwner →
      Steps s call s₁ → ∃ queue queue₁ user coin pieces,
        s.queues.lookup bidInput.bidFor.toText = some queue ∧
        s₁.queues.lookup bidInput.bidFor.toText = some queue₁ ∧
        validatePositionOwner call.deps call.info bidOwner = .ok user ∧
        call.info.funds = [coin] ∧ queue₁.allBids.Perm (queue.allBids ++ pieces) ∧
        PlacedPieces pieces user coin.amount ∧ ∀ piece ∈ pieces, ∀ s₂,
          RunWhere Steps (fun s call => call.KeepsSlots s ∧
            ¬ call.Releases s bidInput.bidFor.toText piece.id) s₁ s₂ →
          s₂.Reads bidInput.bidFor.toText piece.id user := by
  have hsound := (structured_reachable fresh run).1
  refine ⟨?_, fun text queue hqueue bid hbid s' => reads_until_released fresh run hqueue hbid, ?_⟩
  · intro text queue hqueue
    have hqueueSound := hsound text queue hqueue
    have hqueueStructured := (structured_reachable fresh run).2 text queue hqueue
    refine ⟨hqueueStructured.distinct, fun premium hpremium => ?_, hqueueSound.distinct,
      fun bid hbid => hqueueStructured.readBid hqueueSound hbid⟩
    obtain ⟨slot, hslot⟩ := Option.isSome_iff_exists.mp
      (hqueueStructured.complete premium hpremium)
    exact ⟨slot, Queue.findSlot_mem hslot, Queue.findSlot_premium hslot⟩
  · intro call s₁ bidInput bidOwner hkeeps hsubmits hsteps
    obtain ⟨queue, queue₁, user, coin, pieces, hqueue, hqueue₁, howner, hfunds, hperm, hpieces⟩ :=
      submitBid_accepts hsound hsubmits hsteps
    refine ⟨queue, queue₁, user, coin, pieces, hqueue, hqueue₁, howner, hfunds, hperm, hpieces,
      fun piece hpiece s₂ hlater => ?_⟩
    rw [← hpieces.owner piece hpiece]
    exact reads_until_released fresh (run.tail ⟨call, hkeeps, hsteps⟩) hqueue₁
      (hperm.mem_iff.mpr (List.mem_append_right _ hpiece)) hlater

theorem sampleBid_keepsSlots (s : State) (time : Nat) (user : Addr) (premium amount : Nat) :
    (sampleBid time user premium amount).KeepsSlots s where
  added _ _ _ h := by cases h
  edited _ _ _ _ h := by cases h
  claimed _ _ _ _ h := by cases h

theorem sampleQueue_keepsSlots (s : State) : (sampleQueue 10 2000000).KeepsSlots s where
  added _ _ _ h := by
    cases h
    exact ⟨by decide, by decide⟩
  edited _ _ _ _ h := by cases h
  claimed _ _ _ _ h := by cases h

/-- A bid on the sample chain that is split in two is read, both parts of it, after another
    was made. -/
theorem slots_structured_two :
    ∃ s, execAll Call.exec [sampleQueue 10 2000000, sampleBid 1 "ann" 3 3500000,
        sampleBid 2 "bob" 3 600000] sampleStart = some s ∧
      s.Reads "atom" 1 "ann" ∧ s.Reads "atom" 2 "ann" := by
  have hreads : sampleReads [sampleQueue 10 2000000, sampleBid 1 "ann" 3 3500000]
      (fun queue => queue.allBids.map fun bid => (bid.id, bid.user)) =
        some [(1, "ann"), (2, "ann")] := by decide +kernel
  have hmore : sampleReads [sampleQueue 10 2000000, sampleBid 1 "ann" 3 3500000,
      sampleBid 2 "bob" 3 600000] (fun _ => ()) = some () := by decide +kernel
  obtain ⟨s, queue, hrun, hqueue, hbids⟩ := sampleReads_eq hreads
  obtain ⟨s', -, hrun', -⟩ := sampleReads_eq hmore
  obtain ⟨s₁, hone, hrest⟩ := Option.bind_eq_some_iff.mp hrun
  obtain ⟨s₂, htwo, hnil⟩ := Option.bind_eq_some_iff.mp hrest
  obtain rfl : s₂ = s := Option.some.inj hnil
  obtain ⟨t₁, hone', hrest'⟩ := Option.bind_eq_some_iff.mp hrun'
  obtain rfl : s₁ = t₁ := Option.some.inj (hone.symm.trans hone')
  obtain ⟨t₂, htwo', hrest'⟩ := Option.bind_eq_some_iff.mp hrest'
  obtain rfl : s₂ = t₂ := Option.some.inj (htwo.symm.trans htwo')
  obtain ⟨t₃, hthree, hnil'⟩ := Option.bind_eq_some_iff.mp hrest'
  obtain rfl : t₃ = s' := Option.some.inj hnil'
  have hstart : RunWhere Steps (fun s call => call.KeepsSlots s) sampleStart s₂ :=
    .tail (.single ⟨_, sampleQueue_keepsSlots sampleStart, hone⟩)
      ⟨_, sampleBid_keepsSlots s₁ 1 "ann" 3 3500000, htwo⟩
  have hlater : ∀ id, RunWhere Steps (fun s call => call.KeepsSlots s ∧
      ¬ call.Releases s "atom" id) s₂ t₃ := by
    intro id
    refine .single ⟨_, ⟨sampleBid_keepsSlots s₂ 2 "bob" 3 600000, fun hreleases => ?_⟩, hthree⟩
    cases hreleases with
    | retracted retracts => cases retracts
    | consumed claims => cases claims
  have hread : ∀ entry ∈ queue.allBids.map fun bid => (bid.id, bid.user),
      t₃.Reads "atom" entry.1 entry.2 := by
    intro entry mem
    obtain ⟨bid, hbid, rfl⟩ := List.mem_map.mp mem
    exact (slots_structured sampleStart_fresh hstart).2.1 "atom" queue hqueue bid hbid t₃
      (hlater bid.id)
  rw [hbids] at hread
  exact ⟨t₃, hrun', hread (1, "ann") (by simp), hread (2, "ann") (by simp)⟩

/-- A queue does not keep one slot for each premium: once its maximum was lowered from 10 to
    5, raising it to 10 again makes a second slot for each premium between. -/
theorem slots_not_structured :
    ¬ ∀ start s : State, Fresh start → RunWhere Steps (fun _ _ => True) start s →
      ∀ text queue, s.queues.lookup text = some queue →
        (queue.slots.map PremiumSlot.liqPremium).Nodup := by
  intro claim
  have hreads : sampleReads [sampleQueue 10 2000000,
      sampleCall 1 "gov" 0 (.updateQueue (.nativeToken "atom") (some 5) none),
      sampleCall 2 "gov" 0 (.updateQueue (.nativeToken "atom") (some 10) none)]
      (fun queue => decide (queue.slots.map PremiumSlot.liqPremium).Nodup) = some false := by
    decide +kernel
  obtain ⟨s, queue, hrun, hqueue, hread⟩ := sampleReads_eq hreads
  have hsteps : RunWhere Steps (fun _ _ => True) sampleStart s :=
    execAll_run (fun _ _ _ h => h) (fun _ _ _ => trivial) hrun
  exact absurd (claim sampleStart s sampleStart_fresh hsteps "atom" queue hqueue)
    (of_decide_eq_false hread)

end Membrane.LiqQueue
