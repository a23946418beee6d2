import Membrane.LiqQueue.Proofs.Reach

/-!
# Splitting and activating bids

A submitted bid is active at once, waits, or is split at the threshold of the queue: what it
brings, its pieces hold, and the slot grows by the active one. A slot that is exactly at the
threshold counts as below it, and is given an active piece of nothing. When waiting bids are
gone over, each is moved to the active ones or kept, in their order.
-/

namespace Membrane.LiqQueue

open Outcome

/-! ## Submitting -/

def amountsOf (bids : List Bid) : Nat := (bids.map Bid.amount).sum

/-- What a deposit adds to a slot: one or two new bids under ids of their own that hold the
    deposit, active ones that the total of the slot grows by and waiting ones of the minimum
    at least, none of them of nothing. -/
structure Pieces (minimumBid deposit : Nat) (queue : Queue) (slot slot' : PremiumSlot)
    (active waiting : List Bid) : Prop where
  stored : slot'.bids = slot.bids ++ active
  queued : slot'.waitingBids = slot.waitingBids ++ waiting
  count : active.length + waiting.length = 1 ∨ active.length + waiting.length = 2
  distinct : ((active ++ waiting).map Bid.id).Nodup
  fresh : ∀ bid ∈ active ++ waiting, ∀ old ∈ queue.allBids, old.id ≠ bid.id
  amounts : amountsOf (active ++ waiting) = deposit
  counted : slot'.totalBidAmount = slot.totalBidAmount + amountsOf active
  nonzero : ∀ bid ∈ active ++ waiting, bid.amount ≠ 0
  enough : ∀ bid ∈ waiting, minimumBid ≤ bid.amount

/-- A submission splits what is sent with it into pieces. -/
def SplitsBid (info : MessageInfo) (bidInput : BidInput) (s s' : State) : Prop :=
  ∃ queue queue' slot slot' active waiting,
    s.queues.lookup bidInput.bidFor.toText = some queue ∧
    s'.queues.lookup bidInput.bidFor.toText = some queue' ∧
    queue.findSlot bidInput.liqPremium = some slot ∧
    queue'.findSlot bidInput.liqPremium = some slot' ∧
    Pieces s.config.minimumBid ((info.funds.map Coin.amount).sum) queue slot slot' active waiting

/-- The slot that a submission is for is not exactly at the threshold of its queue. -/
def OffThreshold (bidInput : BidInput) (s : State) : Prop :=
  ∀ queue slot, s.queues.lookup bidInput.bidFor.toText = some queue →
    queue.findSlot bidInput.liqPremium = some slot → slot.totalBidAmount ≠ queue.bidThreshold

/-- Where a new bid goes, by where its slot stands: all of it is active where it takes the slot
    less than the minimum past the threshold, else only what the slot lacks of the threshold,
    and nothing past it. -/
inductive PlacedAt (config : Config) (bid : Bid) (queue : Queue) (slot : PremiumSlot) :
    PremiumSlot → Bid → Prop where
  | whole (low : slot.totalBidAmount ≤ queue.bidThreshold)
      (fits : slot.totalBidAmount + bid.amount < queue.bidThreshold + config.minimumBid) :
      PlacedAt config bid queue slot (slot.join bid) { bid with amount := 0 }
  | part {lacking rest : Nat} (low : slot.totalBidAmount + lacking = queue.bidThreshold)
      (adds : lacking + rest = bid.amount) (enough : config.minimumBid ≤ rest) :
      PlacedAt config bid queue slot (slot.join { bid with amount := lacking })
        { bid with id := queue.currentBidId + 1, amount := rest }
  | none (high : queue.bidThreshold < slot.totalBidAmount) :
      PlacedAt config bid queue slot slot bid

theorem placeBid_at {config : Config} {bid rest : Bid} {queue queue' : Queue}
    {slot slot' : PremiumSlot} (done : placeBid config bid queue slot = .ok (queue', slot', rest)) :
    PlacedAt config bid queue slot slot' rest := by
  simp only [placeBid, bind_eq_ok] at done
  obtain ⟨queue₁, htake, done⟩ := done
  obtain rfl := takeBidId_eq htake
  split at done
  case isTrue hlow =>
    simp only [bind_eq_ok, Uint256.add_eq_ok] at done
    obtain ⟨_, ⟨-, rfl⟩, _, ⟨-, rfl⟩, done⟩ := done
    split at done
    case isTrue hfits =>
      simp only [bind_eq_ok, pure_eq_ok, Prod.mk.injEq] at done
      obtain ⟨⟨queue₂, slot₂⟩, hactivate, rfl, rfl, rfl⟩ := done
      obtain ⟨-, -, rfl⟩ := activateBid_eq hactivate
      exact .whole hlow hfits
    case isFalse hmore =>
      simp only [bind_eq_ok, subUint_eq_ok, pure_eq_ok, Prod.mk.injEq] at done
      obtain ⟨_, ⟨hover, rfl⟩, active, ⟨hle, rfl⟩, queue₂, htake', ⟨queue₃, slot₃⟩, hactivate,
        rfl, rfl, rfl⟩ := done
      obtain ⟨-, -, rfl⟩ := activateBid_eq hactivate
      dsimp only at hlow hmore hover hle
      refine .part ?_ ?_ ?_
      · omega
      · omega
      · omega
  case isFalse hhigh =>
    simp only [pure_eq_ok, Prod.mk.injEq] at done
    obtain ⟨rfl, rfl, rfl⟩ := done
    exact .none (Nat.lt_of_not_le hhigh)

theorem assertBidAsset_minimum {bidAsset : AssetInfo} {info : MessageInfo} {minimumBid : Nat}
    {asset : Asset} (done : assertBidAssetFromSentFunds bidAsset info minimumBid = .ok asset) :
    minimumBid ≤ asset.amount ∧ 0 < asset.amount ∧
      (info.funds.map Coin.amount).sum = asset.amount := by
  obtain ⟨denom, rfl, hfunds⟩ := assertBidAsset_eq done
  have hpositive :=
    info.positive ⟨denom, asset.amount⟩ (by rw [hfunds]; exact List.mem_singleton_self _)
  unfold assertBidAssetFromSentFunds at done
  rw [hfunds] at done ⊢
  simp only [bind_eq_ok, guardErr_eq_ok, pure_eq_ok] at done
  obtain ⟨_, -, _, hminimum, -⟩ := done
  refine ⟨Nat.le_of_not_lt hminimum, hpositive, ?_⟩
  rw [List.map_singleton, List.sum_singleton]

theorem submitBid_at {deps : Deps} {env : Env} {info : MessageInfo} {bidInput : BidInput}
    {bidOwner : Option String} {s s' : State} {response : Response OutMsg}
    (done : submitBid deps env info bidInput bidOwner s = .ok (s', response)) :
    ∃ user amount queue queue' slot slot' slot'' rest,
      s.queues.lookup bidInput.bidFor.toText = some queue ∧
      queue.findSlot bidInput.liqPremium = some slot ∧
      (info.funds.map Coin.amount).sum = amount ∧ 0 < amount ∧ s.config.minimumBid ≤ amount ∧
      PlacedAt s.config (newBid user queue.currentBidId amount bidInput.liqPremium) queue slot slot'
        rest ∧
      queueBid env s.config rest slot' = .ok slot'' ∧
      s' = saveQueue s bidInput.bidFor
        (Queue.replaceSlots queue' (Decimal256.percent bidInput.liqPremium) slot'') := by
  simp only [submitBid, bind_eq_ok, liftStd_eq_ok, loadQueue_eq_ok, ofOption_eq_ok,
    Uint256.toUint128_eq_ok, pure_eq_ok, Prod.mk.injEq] at done
  obtain ⟨user, -, _, -, queue, hqueue, asset, hasset, slot, hslot, amount, ⟨-, rfl⟩,
    ⟨queue', slot', rest⟩, hplace, slot'', hwait, rfl, -⟩ := done
  obtain ⟨hminimum, hpositive, hsum⟩ := assertBidAsset_minimum hasset
  exact ⟨user, asset.amount, queue, queue', slot, slot', slot'', rest, hqueue, hslot, hsum,
    hpositive, hminimum, placeBid_at hplace, hwait, rfl⟩

theorem Queue.Sound.not_next {queue : Queue} (h : queue.Sound) {id : Nat}
    (next : queue.currentBidId ≤ id) : ∀ old ∈ queue.allBids, old.id ≠ id := by
  intro old hold heq
  have hbelow := (h.below old hold).2
  omega

section

variable {config : Config} {env : Env} {user : Addr} {amount liqPremium : Nat} {queue : Queue}
variable {slot slot' slot'' : PremiumSlot} {rest : Bid}

theorem PlacedAt.pieces (sound : queue.Sound) (positive : 0 < amount)
    (minimum : config.minimumBid ≤ amount)
    (placed : PlacedAt config (newBid user queue.currentBidId amount liqPremium) queue slot
      slot' rest)
    (queued : queueBid env config rest slot' = .ok slot'')
    (off : slot.totalBidAmount ≠ queue.bidThreshold) :
    ∃ active waiting, Pieces config.minimumBid amount queue slot slot'' active waiting := by
  cases placed with
  | whole low fits =>
    rcases queueBid_eq queued with ⟨-, rfl⟩ | ⟨hne, -⟩
    · refine ⟨[processBidActivation (newBid user queue.currentBidId amount liqPremium) slot], [],
        rfl, (List.append_nil _).symm, .inl rfl, List.nodup_singleton _, ?_, ?_, ?_, ?_, ?_⟩
      · intro bid hbid
        obtain rfl := List.mem_singleton.mp hbid
        exact sound.not_next (Nat.le_refl _)
      · exact Nat.add_zero _
      · rfl
      · intro bid hbid
        obtain rfl := List.mem_singleton.mp hbid
        exact Nat.ne_of_gt positive
      · intro bid hbid
        cases hbid
    · exact absurd rfl hne
  | @part lacking rest low adds enough =>
    have hadds : lacking + rest = amount := adds
    have hlacking : lacking ≠ 0 := by
      rintro rfl
      exact off low
    rcases queueBid_eq queued with ⟨hzero, rfl⟩ | ⟨hne, waitEnd, rfl⟩
    · have hnothing : rest = 0 := hzero
      refine ⟨[processBidActivation (newBid user queue.currentBidId lacking liqPremium) slot], [],
        rfl, (List.append_nil _).symm, .inl rfl, List.nodup_singleton _, ?_, ?_, ?_, ?_, ?_⟩
      · intro bid hbid
        obtain rfl := List.mem_singleton.mp hbid
        exact sound.not_next (Nat.le_refl _)
      · show lacking + 0 = amount
        omega
      · rfl
      · intro bid hbid
        obtain rfl := List.mem_singleton.mp hbid
        exact hlacking
      · intro bid hbid
        cases hbid
    · refine ⟨[processBidActivation (newBid user queue.currentBidId lacking liqPremium) slot],
        [waitingBid user (queue.currentBidId + 1) rest liqPremium waitEnd], rfl, rfl, .inr rfl,
        ?_, ?_, ?_, rfl, ?_, ?_⟩
      · show [queue.currentBidId, queue.currentBidId + 1].Nodup
        simp
      · intro bid hbid
        simp only [List.cons_append, List.nil_append, List.mem_cons, List.not_mem_nil,
          or_false] at hbid
        rcases hbid with rfl | rfl
        · exact sound.not_next (Nat.le_refl _)
        · exact sound.not_next (Nat.le_succ _)
      · show lacking + (rest + 0) = amount
        omega
      · intro bid hbid
        simp only [List.cons_append, List.nil_append, List.mem_cons, List.not_mem_nil,
          or_false] at hbid
        rcases hbid with rfl | rfl
        · exact hlacking
        · exact hne
      · intro bid hbid
        obtain rfl := List.mem_singleton.mp hbid
        exact enough
  | none high =>
    rcases queueBid_eq queued with ⟨hzero, -⟩ | ⟨hne, waitEnd, rfl⟩
    · exact absurd hzero (Nat.ne_of_gt positive)
    · refine ⟨[], [waitingBid user queue.currentBidId amount liqPremium waitEnd],
        (List.append_nil _).symm, rfl, .inl rfl, List.nodup_singleton _, ?_, ?_, rfl, ?_, ?_⟩
      · intro bid hbid
        obtain rfl := List.mem_singleton.mp hbid
        exact sound.not_next (Nat.le_refl _)
      · exact Nat.add_zero _
      · intro bid hbid
        obtain rfl := List.mem_singleton.mp hbid
        exact Nat.ne_of_gt positive
      · intro bid hbid
        obtain rfl := List.mem_singleton.mp hbid
        exact minimum

theorem PlacedAt.empty_piece (minimum : config.minimumBid ≤ amount)
    (placed : PlacedAt config (newBid user queue.currentBidId amount liqPremium) queue slot
      slot' rest)
    (queued : queueBid env config rest slot' = .ok slot'')
    (at_threshold : slot.totalBidAmount = queue.bidThreshold) :
    slot''.bids = slot.bids ++
      [processBidActivation (newBid user queue.currentBidId 0 liqPremium) slot] := by
  cases placed with
  | whole low fits =>
    have hfits : slot.totalBidAmount + amount < queue.bidThreshold + config.minimumBid := fits
    omega
  | @part lacking rest low adds enough =>
    obtain rfl : lacking = 0 := by omega
    rcases queueBid_eq queued with ⟨-, rfl⟩ | ⟨-, waitEnd, rfl⟩
    · rfl
    · rfl
  | none high => omega

end

theorem submitBid_splits_iff {deps : Deps} {env : Env} {info : MessageInfo} {bidInput : BidInput}
    {bidOwner : Option String} {s s' : State} {response : Response OutMsg} (sound : s.Sound)
    (done : submitBid deps env info bidInput bidOwner s = .ok (s', response)) :
    SplitsBid info bidInput s s' ↔ OffThreshold bidInput s := by
  obtain ⟨user, amount, queue, queue', slot, slot', slot'', rest, hqueue, hslot, hsum, hpositive,
    hminimum, hplaced, hqueued, rfl⟩ := submitBid_at done
  have hqueue' : (saveQueue s bidInput.bidFor (queue'.replaceSlots
      (Decimal256.percent bidInput.liqPremium) slot'')).queues.lookup bidInput.bidFor.toText =
        some (queue'.replaceSlots (Decimal256.percent bidInput.liqPremium) slot'') :=
    AList.lookup_insert _
  have hhome : slot''.liqPremium = Decimal256.percent bidInput.liqPremium := by
    have hsame : slot'.liqPremium = slot.liqPremium := by
      cases hplaced
      · rfl
      · rfl
      · rfl
    rcases queueBid_eq hqueued with ⟨-, rfl⟩ | ⟨-, _, rfl⟩
    · rw [hsame]
      exact Queue.findSlot_premium hslot
    · exact hsame.trans (Queue.findSlot_premium hslot)
  have hslot'' := Queue.findSlot_replaceSlots_self queue' hhome
  constructor
  · rintro ⟨queue₁, queue₂, slot₁, slot₂, active, waiting, hqueue₁, hqueue₂, hslot₁, hslot₂,
      pieces⟩ queue₃ slot₃ hqueue₃ hslot₃ hat
    obtain rfl := Option.some.inj (hqueue.symm.trans hqueue₁)
    obtain rfl := Option.some.inj (hqueue.symm.trans hqueue₃)
    obtain rfl := Option.some.inj (hslot.symm.trans hslot₁)
    obtain rfl := Option.some.inj (hslot.symm.trans hslot₃)
    obtain rfl := Option.some.inj (hqueue'.symm.trans hqueue₂)
    obtain rfl := Option.some.inj (hslot''.symm.trans hslot₂)
    have hempty := hplaced.empty_piece hminimum hqueued hat
    have hactive := List.append_cancel_left (pieces.stored.symm.trans hempty)
    refine pieces.nonzero (processBidActivation (newBid user queue.currentBidId 0
      bidInput.liqPremium) slot) ?_ rfl
    rw [hactive]
    exact List.mem_append_left _ (List.mem_singleton_self _)
  · intro off
    obtain ⟨active, waiting, pieces⟩ := hplaced.pieces (sound _ _ hqueue) hpositive hminimum
      hqueued (off queue slot hqueue hslot)
    rw [← hsum] at pieces
    exact ⟨queue, _, slot, slot'', active, waiting, hqueue, hqueue', hslot, hslot'', pieces⟩

/-! ## Activating -/

/-- Going over waiting bids from a total on: a bid is moved when its wait is over or the total,
    with the bids moved before it, is at most at the threshold, and kept otherwise. -/
inductive GoesOver (blockTime threshold : Nat) : Nat → List Bid → List Bid → List Bid → Prop where
  | nil {total : Nat} : GoesOver blockTime threshold total [] [] []
  | move {total : Nat} {bid : Bid} {rest moved kept : List Bid}
      (due : (∃ waitEnd, bid.waitEnd = some waitEnd ∧ waitEnd ≤ blockTime) ∨ total ≤ threshold)
      (more : GoesOver blockTime threshold (total + bid.amount) rest moved kept) :
      GoesOver blockTime threshold total (bid :: rest) (bid :: moved) kept
  | keep {total : Nat} {bid : Bid} {rest moved kept : List Bid}
      (waits : ∀ waitEnd, bid.waitEnd = some waitEnd → blockTime < waitEnd)
      (high : threshold < total) (more : GoesOver blockTime threshold total rest moved kept) :
      GoesOver blockTime threshold total (bid :: rest) moved (bid :: kept)

theorem GoesOver.perm {blockTime threshold total : Nat} {waiting moved kept : List Bid}
    (h : GoesOver blockTime threshold total waiting moved kept) : (moved ++ kept).Perm waiting := by
  induction h with
  | nil => exact .nil
  | move due more ih => exact ih.cons _
  | keep waits high more ih => exact List.perm_middle.trans (ih.cons _)

/-- The waiting bids of a slot are gone over: those that are moved are behind the active ones
    with the snapshots of the slot, the rest wait on, and the totals of the slot and of the queue
    grow by what is moved. -/
structure Activated (blockTime : Nat) (queue queue' : Queue) (slot slot' : PremiumSlot)
    (moved kept : List Bid) : Prop where
  order : GoesOver blockTime queue.bidThreshold slot.totalBidAmount slot.waitingBids moved kept
  each : (moved ++ kept).Perm slot.waitingBids
  active : slot'.bids = slot.bids ++ moved.map fun bid => processBidActivation bid slot
  waiting : slot'.waitingBids = kept
  total : slot'.totalBidAmount = slot.totalBidAmount + amountsOf moved
  counted : queue' = queue.withAmount (queue.bidAsset.amount + amountsOf moved)

/-- The total of a slot is set: nothing is done less than a waiting period after the last time,
    unless the slot is below the threshold, and else the waiting bids are gone over. -/
def MovesDue (env : Env) (config : Config) (queue queue' : Queue) (slot slot' : PremiumSlot) :
    Prop :=
  if env.blockTime - slot.lastTotal < config.waitingPeriod ∧
      queue.bidThreshold ≤ slot.totalBidAmount then queue' = queue ∧ slot' = slot
  else ∃ moved kept, Activated env.blockTime queue queue' slot slot' moved kept

theorem foldlM_activateWaiting {blockTime : Nat} {waiting : List Bid} {acc acc' : Activation}
    (nonzero : ∀ bid ∈ waiting, bid.amount ≠ 0)
    (done : waiting.foldlM (activateWaiting blockTime) acc = .ok acc') :
    ∃ moved kept,
      GoesOver blockTime acc.queue.bidThreshold acc.slot.totalBidAmount waiting moved kept ∧
      acc'.slot = { acc.slot with
        totalBidAmount := acc.slot.totalBidAmount + amountsOf moved
        bids := acc.slot.bids ++ moved.map fun bid => processBidActivation bid acc.slot } ∧
      acc'.queue = acc.queue.withAmount (acc.queue.bidAsset.amount + amountsOf moved) ∧
      (acc'.waiting.filter fun bid => bid.amount ≠ 0) =
        (acc.waiting.filter fun bid => bid.amount ≠ 0) ++ kept := by
  induction waiting generalizing acc with
  | nil =>
    obtain rfl := pure_eq_ok.mp done
    exact ⟨[], [], .nil, by simp [amountsOf], rfl, by simp⟩
  | cons bid rest ih =>
    rw [List.foldlM_cons, bind_eq_ok] at done
    obtain ⟨mid, hone, hrest⟩ := done
    have hamount := nonzero bid List.mem_cons_self
    obtain ⟨moved, kept, hover, hslot, hqueue, hwaiting⟩ :=
      ih (fun other hother => nonzero other (List.mem_cons_of_mem _ hother)) hrest
    simp only [activateWaiting, bind_eq_ok, unwrap_eq_ok] at hone
    obtain ⟨waitEnd, hend, hone⟩ := hone
    split at hone
    case isTrue hdue =>
      simp only [bind_eq_ok, pure_eq_ok] at hone
      obtain ⟨⟨queue, slot⟩, hactivate, rfl⟩ := hone
      obtain ⟨-, rfl, rfl⟩ := activateBid_eq hactivate
      refine ⟨bid :: moved, kept, .move ?_ hover, ?_, ?_, ?_⟩
      · exact hdue.imp (fun hle => ⟨waitEnd, hend, hle⟩) id
      · rw [hslot]
        simp [PremiumSlot.join, amountsOf, processBidActivation, Nat.add_assoc]
      · rw [hqueue]
        simp [Queue.withAmount, amountsOf, Nat.add_assoc]
      · rw [hwaiting]
        simp
    case isFalse hnot =>
      obtain rfl := pure_eq_ok.mp hone
      refine ⟨moved, bid :: kept, .keep ?_ ?_ hover, hslot, hqueue, ?_⟩
      · intro waitEnd' hend'
        obtain rfl := Option.some.inj (hend.symm.trans hend')
        omega
      · omega
      · rw [hwaiting]
        simp [hamount]

theorem setSlotTotal_moves {env : Env} {config : Config} {queue queue' : Queue}
    {slot slot' : PremiumSlot} (sound : slot.Sound)
    (done : setSlotTotal env config queue slot = .ok (queue', slot')) :
    MovesDue env config queue queue' slot slot' := by
  simp only [setSlotTotal, bind_eq_ok, subUint_eq_ok] at done
  obtain ⟨_, ⟨-, rfl⟩, done⟩ := done
  unfold MovesDue
  split at done
  case isTrue hidle =>
    simp only [pure_eq_ok, Prod.mk.injEq] at done
    rw [if_pos hidle]
    exact ⟨done.1.symm, done.2.symm⟩
  case isFalse hnot =>
    simp only [bind_eq_ok, pure_eq_ok, Prod.mk.injEq] at done
    obtain ⟨acc, hfold, rfl, rfl⟩ := done
    rw [if_neg hnot]
    obtain ⟨moved, kept, hover, hslot, hqueue, hwaiting⟩ :=
      foldlM_activateWaiting (fun bid hbid => (sound.waiting bid hbid).2) hfold
    refine ⟨moved, kept, hover, hover.perm, ?_, hwaiting, ?_, hqueue⟩
    · rw [hslot]
    · rw [hslot]

/-! ## In every reachable state -/

/-- A submission is accepted. -/
def Submitted (info : MessageInfo) (bidInput : BidInput) (s s' : State) : Prop :=
  ∃ deps env bidOwner response, submitBid deps env info bidInput bidOwner s = .ok (s', response)

/-- Setting the total of a slot that is stored moves the bids that are due. -/
def SlotsMoveDue (s : State) : Prop :=
  ∀ text stored, s.queues.lookup text = some stored → ∀ slot ∈ stored.slots,
    ∀ env config queue queue' slot', setSlotTotal env config queue slot = .ok (queue', slot') →
      MovesDue env config queue queue' slot slot'

/-- In every reachable state, an accepted submission splits its deposit into pieces if and only
    if the slot is not exactly at the threshold, and setting the total of a slot moves each bid
    that is due. -/
theorem splits_iff_off_threshold {start s : State} (fresh : Fresh start)
    (run : RunWhere Steps (fun _ _ => True) start s) :
    (∀ info bidInput s', Submitted info bidInput s s' →
      (SplitsBid info bidInput s s' ↔ OffThreshold bidInput s)) ∧ SlotsMoveDue s := by
  have hsound := reachable_sound fresh run
  constructor
  · rintro info bidInput s' ⟨deps, env, bidOwner, response, done⟩
    exact submitBid_splits_iff hsound done
  · intro text stored hstored slot hslot env config queue queue' slot' done
    exact setSlotTotal_moves ((hsound text stored hstored).slots slot hslot) done

theorem sampleRun_steps {calls : List Call} {s : State}
    (done : execAll Call.exec calls sampleStart = some s) :
    RunWhere Steps (fun _ _ => True) sampleStart s :=
  execAll_run (fun _ _ _ h => h) (fun _ _ _ => trivial) done

theorem execAll_last {calls : List Call} {last : Call} {s s' : State}
    (done : execAll Call.exec (calls ++ [last]) s = some s') :
    ∃ mid, execAll Call.exec calls s = some mid ∧ Call.exec mid last = some s' := by
  induction calls generalizing s with
  | nil =>
    obtain ⟨mid, hlast, hnil⟩ := Option.bind_eq_some_iff.mp done
    obtain rfl := Option.some.inj hnil
    exact ⟨s, rfl, hlast⟩
  | cons call rest ih =>
    obtain ⟨mid, hcall, hrest⟩ := Option.bind_eq_some_iff.mp done
    obtain ⟨before, hbefore, hlast⟩ := ih hrest
    exact ⟨before, Option.bind_eq_some_iff.mpr ⟨mid, hcall, hbefore⟩, hlast⟩

theorem sampleBid_submitted {time premium amount : Nat} {user : Addr} {s s' : State}
    (done : Call.exec s (sampleBid time user premium amount) = some s') :
    ∃ info, Submitted info ⟨.nativeToken "atom", premium⟩ s s' := by
  unfold Call.exec at done
  split at done
  · next s₁ response hexecute =>
    obtain rfl := Option.some.inj done
    exact ⟨_, _, _, _, response, hexecute⟩
  · cases done

/-- After a bid on the sample chain, which another is made on. -/
theorem splits_iff_off_threshold_two :
    ∃ s s' info, execAll Call.exec [sampleQueue 10 2000000, sampleBid 1 "ann" 3 700000]
        sampleStart = some s ∧ Submitted info ⟨.nativeToken "atom", 3⟩ s s' ∧
      (∀ info bidInput s', Submitted info bidInput s s' →
        (SplitsBid info bidInput s s' ↔ OffThreshold bidInput s)) ∧ SlotsMoveDue s := by
  have hreads : sampleReads [sampleQueue 10 2000000, sampleBid 1 "ann" 3 700000,
      sampleBid 2 "bob" 3 600000] (fun _ => ()) = some () := by decide +kernel
  obtain ⟨s', -, hrun, -, -⟩ := sampleReads_eq hreads
  obtain ⟨s, hbefore, hlast⟩ :=
    @execAll_last [sampleQueue 10 2000000, sampleBid 1 "ann" 3 700000] _ _ _ hrun
  obtain ⟨info, hsubmitted⟩ := sampleBid_submitted hlast
  exact ⟨s, s', info, hbefore, hsubmitted,
    splits_iff_off_threshold sampleStart_fresh (sampleRun_steps hbefore)⟩

/-- A bid that fills its slot up to the threshold leaves the next one an active piece of
    nothing. -/
theorem not_splits :
    ¬ ∀ start s, Fresh start → RunWhere Steps (fun _ _ => True) start s →
      (∀ info bidInput s', Submitted info bidInput s s' → SplitsBid info bidInput s s') ∧
        SlotsMoveDue s := by
  intro claim
  have hreads : sampleReads [sampleQueue 10 2000000, sampleBid 1 "ann" 3 2000000]
      (fun queue => (queue.findSlot 3).map fun slot =>
        decide (slot.totalBidAmount = queue.bidThreshold)) = some (some true) := by decide +kernel
  have hnext : sampleReads [sampleQueue 10 2000000, sampleBid 1 "ann" 3 2000000,
      sampleBid 2 "bob" 3 600000] (fun _ => ()) = some () := by decide +kernel
  obtain ⟨s, queue, hrun, hqueue, hread⟩ := sampleReads_eq hreads
  obtain ⟨s', -, hrun', -, -⟩ := sampleReads_eq hnext
  obtain ⟨before, hbefore, hlast⟩ :=
    @execAll_last [sampleQueue 10 2000000, sampleBid 1 "ann" 3 2000000] _ _ _ hrun'
  obtain rfl : before = s := Option.some.inj (hbefore.symm.trans hrun)
  obtain ⟨info, hsubmitted⟩ := sampleBid_submitted hlast
  have hsteps := sampleRun_steps hrun
  have hsplits := (claim sampleStart before sampleStart_fresh hsteps).1 info _ s' hsubmitted
  obtain ⟨deps, env, bidOwner, response, done⟩ := hsubmitted
  have hoff := (submitBid_splits_iff (reachable_sound sampleStart_fresh hsteps) done).mp hsplits
  obtain ⟨slot, hslot, hat⟩ := Option.map_eq_some_iff.mp hread
  exact hoff queue slot hqueue hslot (of_decide_eq_true hat)

end Membrane.LiqQueue
