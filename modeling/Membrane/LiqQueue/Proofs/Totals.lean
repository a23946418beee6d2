import Membrane.LiqQueue.Proofs.Reach

/-!
# The amount of a queue

The amount of its bid asset that a queue keeps is the sum of the totals of its slots, as
long as no retraction takes out what was never added: a waiting bid, or the residue of a
slot.
-/

namespace Membrane.LiqQueue

open Outcome

/-- The totals of the slots of a queue. -/
def Queue.total (queue : Queue) : Nat := (queue.slots.map PremiumSlot.totalBidAmount).sum

/-- What the active bids of a queue were sent for, less what was paid out of them and what
    liquidations took off the total, is in the slots or was repaid. -/
def Book.Counted (b : Book) : Prop :=
  b.queue.bidAsset.amount + b.ledger.burned = b.queue.total + b.ledger.repaid

def Move.Even : Move → Prop
  | .slot _ (.unqueue _ amount) => amount = 0
  | .slot _ (.withdraw _ _ residue) => residue = 0
  | _ => True

theorem total_of_blank {slot : PremiumSlot} (blank : Blank slot) : slot.totalBidAmount = 0 := by
  obtain ⟨premium, rfl⟩ := blank
  rfl

theorem Queue.Sound.total_replace {queue : Queue} {premium : Nat} {slot : PremiumSlot}
    (h : queue.Sound) (found : queue.findSlot premium = some slot) (slot' : PremiumSlot) :
    (queue.replaceSlots (Decimal256.percent premium) slot').total + slot.totalBidAmount =
      queue.total + slot'.totalBidAmount :=
  h.shadowed.sum_push (fun _ => total_of_blank) slot' found

theorem Queue.count_total (queue : Queue) (premium : Nat) (slot : PremiumSlot) (move : SlotMove) :
    ((move.count queue).replaceSlots (Decimal256.percent premium) slot).total =
      (queue.replaceSlots (Decimal256.percent premium) slot).total := by
  unfold total replaceSlots
  rw [count_slots]

theorem total_setMaxPremium {maxPremium : Nat} {queue queue' : Queue}
    (done : setMaxPremium maxPremium queue = .ok queue') : queue'.total = queue.total := by
  have hnothing : ∀ premiums : List Nat,
      ((premiums.map newSlot).map PremiumSlot.totalBidAmount).sum = 0 := by
    intro premiums
    rw [List.map_map]
    exact List.sum_eq_zero fun total htotal => by
      obtain ⟨premium, -, rfl⟩ := List.mem_map.mp htotal
      rfl
  unfold Queue.total
  rw [(Book.setMaxPremium_slots done).2, List.map_append, List.sum_append, hnothing, Nat.add_zero]

theorem SlotMoves.even {sums sums' : SlotSums} {slot slot' : PremiumSlot} {move : SlotMove}
    {queue : Queue} {premium : Nat} (ledger : Ledger) (ready : move.Ready queue)
    (even : Move.Even (.slot premium move)) (moves : SlotMoves sums slot move slot' sums') :
    (move.count queue).bidAsset.amount + slot.totalBidAmount + ledger.repaid =
        queue.bidAsset.amount + slot'.totalBidAmount + (ledger.record premium slot move).repaid ∧
      (ledger.record premium slot move).burned = ledger.burned := by
  cases moves with
  | join | activate =>
    refine ⟨?_, rfl⟩
    simp only [SlotMove.count, Queue.withAmount, PremiumSlot.join, Ledger.record]
    omega
  | wait | touch => exact ⟨rfl, rfl⟩
  | liquidate spends update =>
    have htotal := spends.total
    rw [← (updateProduct_frame update).2.2.2.1] at htotal
    simp only [SlotMove.count, Ledger.record, and_true]
    omega
  | unqueue =>
    have hnothing : _ = 0 := even
    subst hnothing
    exact ⟨rfl, rfl⟩
  | @withdraw bid amount residue found slot' _ _ _ withdraws =>
    have hnothing : residue = 0 := even
    subst hnothing
    have hready : amount + 0 ≤ queue.bidAsset.amount := ready
    have htotal := withdraws.total
    simp only [SlotMove.count, Queue.withAmount, Ledger.record, and_true]
    omega
  | claim _ _ claims | claimWaiting _ _ claims =>
    have htotal : slot'.totalBidAmount = slot.totalBidAmount := by
      rw [claims.frame]
    rw [htotal]
    exact ⟨rfl, rfl⟩

theorem Book.Moves.counted {b b' : Book} {m : Move} (h : b.queue.Sound) (even : m.Even)
    (counted : b.Counted) (moves : b.Moves m b') : b'.Counted := by
  unfold Book.Counted at counted ⊢
  cases moves with
  | @slot premium slot move slot' sums' found ready moves =>
    obtain ⟨hcount, hburned⟩ := moves.even b.ledger ready even
    have htotal := h.total_replace found slot'
    have hafter : (b.after premium slot move slot' sums').queue.bidAsset.amount =
        (move.count b.queue).bidAsset.amount := rfl
    have hqueue : (b.after premium slot move slot' sums').queue.total =
        (b.queue.replaceSlots (Decimal256.percent premium) slot').total :=
      Queue.count_total b.queue premium slot' move
    have hledger : (b.after premium slot move slot' sums').ledger =
        b.ledger.record premium slot move := rfl
    rw [hafter, hqueue, hledger, hburned]
    omega
  | skipBidId | setBidThreshold => exact counted
  | @burn amount covered =>
    have hamount := Nat.sub_add_cancel covered
    have htotal :
        (b.queue.withAmount (b.queue.bidAsset.amount - amount)).total = b.queue.total := rfl
    rw [htotal]
    simp only [Queue.withAmount]
    omega
  | setMaxPremium done =>
    rw [total_setMaxPremium done, (Book.setMaxPremium_slots done).1]
    exact counted

/-! ## The ledger between calls -/

/-- What liquidations took off the amount of a queue is what they repaid. -/
def Ledger.Balanced (ledger : Ledger) : Prop := ledger.burned = ledger.repaid

theorem recordFill_frame (premium : Nat) (queue : Queue) (fill : Option PoolFill)
    (ledger : Ledger) : recordFill premium queue fill ledger = { ledger with
      repaid := (recordFill premium queue fill ledger).repaid
      liquidated := (recordFill premium queue fill ledger).liquidated
      since := (recordFill premium queue fill ledger).since } := by
  unfold recordFill
  split
  · rfl
  · rfl

theorem recordPremiums_frame {env : Env} {config : Config} {bidFor : String}
    {price creditPrice : PriceResponse256} :
    ∀ (premiums : List Nat) (l : Liquidation) (ledger : Ledger),
      recordPremiums env config bidFor price creditPrice premiums l ledger = { ledger with
        repaid := (recordPremiums env config bidFor price creditPrice premiums l ledger).repaid
        liquidated :=
          (recordPremiums env config bidFor price creditPrice premiums l ledger).liquidated
        since := (recordPremiums env config bidFor price creditPrice premiums l ledger).since
          } := by
  intro premiums
  induction premiums with
  | nil => intro l ledger; rfl
  | cons premium rest ih =>
    intro l ledger
    simp only [recordPremiums]
    split
    case h_1 l' fill _ =>
      split
      · exact recordFill_frame _ _ _ _
      · rw [ih, recordFill_frame]
    case h_2 => rfl

theorem recordPremiums_burned {env : Env} {config : Config} {bidFor : String}
    {price creditPrice : PriceResponse256} (premiums : List Nat) (l : Liquidation)
    (ledger : Ledger) :
    (recordPremiums env config bidFor price creditPrice premiums l ledger).burned =
      ledger.burned := by
  rw [recordPremiums_frame]

theorem recordClaims_frame {blockTime : Nat} {sums : EpochScaleSums} {bidFor : String}
    {sender : Addr} :
    ∀ (bids : List Bid) (acc : Queue × Nat) (ledger : Ledger),
      recordClaims blockTime sums bidFor sender bids acc ledger = { ledger with
        claimed := (recordClaims blockTime sums bidFor sender bids acc ledger).claimed } := by
  intro bids
  induction bids with
  | nil => intro acc ledger; rfl
  | cons bid rest ih =>
    intro acc ledger
    simp only [recordClaims]
    split
    case h_1 acc' _ =>
      rw [ih]
    case h_2 => rfl

theorem Call.record_balanced {s s' : State} {call : Call} {response : Response OutMsg}
    {ledger : Ledger} {text : String} {queue : Queue} (sound : s.Sound)
    (about : call.msg.about = some text) (found : s.queues.lookup text = some queue)
    (balanced : ledger.Balanced) (done : call.Executes s s' response) :
    (call.record s queue response ledger).Balanced := by
  unfold Ledger.Balanced at balanced ⊢
  unfold Call.record
  split
  case h_1 | h_2 => exact balanced
  case h_3 creditPrice collateralPrice collateralAmount bidFor hmsg =>
    obtain rfl : bidFor.toText = text := by
      simpa [hmsg, ExecuteMsg.about] using about
    unfold Call.Executes execute at done
    rw [hmsg] at done
    simp only [bind_eq_ok, pure_eq_ok, Prod.mk.injEq] at done
    obtain ⟨⟨s₁, response₁, liquidated⟩, hliquidation, rfl, rfl⟩ := done
    obtain ⟨queue₁, -, -, hqueue₁, -, -, hburned, -, hrepaid, -⟩ := executeLiquidation_runs
      (call.Takes s) ledger (sound bidFor.toText) (fun queue hqueue premium visited slot fill
        hvisits htakes => .slot hmsg hqueue hvisits htakes) hliquidation
    obtain rfl : queue = queue₁ := Option.some.inj (found.symm.trans hqueue₁)
    simp only [recordPremiums_burned]
    omega
  case h_4 bidFor bidIds hmsg =>
    split
    case h_1 =>
      rw [recordClaims_frame]
      exact balanced
    case h_2 => exact balanced
  case h_5 => exact balanced

theorem Tracked.balanced {allowed : State → Call → Prop} {t t' : Tracked}
    (run : RunWhere Tracked.Steps (Meets allowed) t t') (tidy : t.Tidy)
    (balanced : ∀ text, (t.ledgers text).Balanced) : ∀ text, (t'.ledgers text).Balanced := by
  have hkeeps : ∀ (t : Tracked) (call : Call) (t' : Tracked),
      (t.Tidy ∧ ∀ text, (t.ledgers text).Balanced) → Meets allowed t call → t.Steps call t' →
      (t'.Tidy ∧ ∀ text, (t'.ledgers text).Balanced) := by
    intro t call t' h _ hsteps
    obtain ⟨htidy', -⟩ := Steps.keeps (P := fun _ => True) hsteps h.1 (fun _ _ _ => trivial)
      (fun _ _ _ _ => trivial) (fun _ _ _ _ _ _ _ _ _ _ _ => trivial)
    refine ⟨htidy', fun text => ?_⟩
    obtain ⟨response, done, hledgers⟩ := hsteps
    rw [hledgers]
    cases habout : call.msg.about with
    | none =>
      simp only [Call.recordAll, habout]
      exact h.2 text
    | some other =>
      cases hqueue : t.state.queues.lookup other with
      | none =>
        simp only [Call.recordAll, habout, hqueue]
        exact h.2 text
      | some queue =>
        simp only [Call.recordAll, habout, hqueue]
        by_cases htext : text = other
        · subst htext
          rw [Function.update_self]
          exact Call.record_balanced h.1.sound habout hqueue (h.2 text) done
        · rw [Function.update_of_ne htext]
          exact h.2 text
  exact (RunWhere.keeps hkeeps run ⟨tidy, balanced⟩).2

/-! ## The total of a queue -/

/-- A retraction takes out only what was added to the total: nothing of a waiting bid, and
    no whole token of the residue of a slot. -/
def Call.KeepsTotal (s : State) (call : Call) : Prop :=
  ∀ bidId bidFor amount queue bid slot, call.msg = .retractBid bidId bidFor amount →
    s.queues.lookup bidFor.toText = some queue → readBid bidId queue = .ok bid →
    queue.findSlot bid.liqPremium = some slot →
      (bid.waitEnd.isSome = true → amount = some 0) ∧
      ∀ remaining residue, bid.waitEnd = none →
        calculateRemainingBid bid slot = .ok (remaining, residue) →
        slot.residueBid.atomics + residue.atomics < Decimal256.fractional

theorem Retraction.even {s : State} {call : Call} {bidId : Nat} {bidFor : AssetInfo}
    {amount : Option Nat} {queue : Queue} {bid : Bid} {slot slot' : PremiumSlot}
    {sums sums' : SlotSums} {move : SlotMove} {refund : Nat} (keeps : call.KeepsTotal s)
    (retracts : call.msg = .retractBid bidId bidFor amount)
    (stored : s.queues.lookup bidFor.toText = some queue) (read : readBid bidId queue = .ok bid)
    (found : queue.findSlot bid.liqPremium = some slot)
    (retraction : Retraction s.config amount bid move refund)
    (moves : SlotMoves sums slot move slot' sums') : Move.Even (.slot bid.liqPremium move) := by
  obtain ⟨hwaiting, hactive⟩ := keeps bidId bidFor amount queue bid slot retracts stored read found
  cases retraction with
  | waiting waits asserted => exact (assertWithdrawAmount_le asserted).2.2 0 (hwaiting waits)
  | active active asserted =>
    cases moves with
    | withdraw _ settles _ withdraws =>
      show _ = 0
      rw [withdraws.whole]
      exact Nat.div_eq_of_lt (hactive _ _ active settles.left)

theorem counted_reachable {t t' : Tracked}
    (run : RunWhere Tracked.Steps (Tracked.Meets fun s call => call.KeepsTotal s) t t')
    (tidy : t.Tidy) (every : t.Every Book.Counted) : t'.Tidy ∧ t'.Every Book.Counted := by
  refine Tracked.runs_keep ?_ ?_ run tidy every
  · intro s call bidFor maxPremium bidThreshold _ _
    have htotal : (addedQueue s.config maxPremium bidThreshold).total = 0 := by
      refine List.sum_eq_zero fun total hmem => ?_
      obtain ⟨slot, hslot, rfl⟩ := List.mem_map.mp hmem
      obtain ⟨premium, -, rfl⟩ := List.mem_map.mp hslot
      rfl
    show 0 + 0 = (addedQueue s.config maxPremium bidThreshold).total + 0
    rw [htotal]
  · intro t call text queue hkeeps habout hqueue b m b' hsound hcounted hmakes hmoves
    refine hmoves.counted hsound ?_ hcounted
    cases hmakes with
    | submit _ _ made => cases made <;> trivial
    | @retract bidId bidFor amount bid slot move refund retracts first read owner found mem
        retraction =>
        subst first
        cases hmoves with
        | slot found' _ moves =>
          obtain rfl := Option.some.inj (found.symm.trans found')
          rw [retracts] at habout
          obtain rfl := Option.some.inj habout
          exact retraction.even hkeeps retracts hqueue read found moves
    | liquidate _ made => cases made <;> trivial
    | claim _ _ made =>
      obtain ⟨_, _, _, _, _, rfl⟩ := made
      trivial
    | setMaxPremium | setBidThreshold => trivial

/-- A retraction finds an active bid worth at most the total of its slot, which the rounding
    of the product can break. -/
def Call.Covered (s : State) (call : Call) : Prop :=
  ∀ bidId bidFor amount queue bid slot, call.msg = .retractBid bidId bidFor amount →
    s.queues.lookup bidFor.toText = some queue → readBid bidId queue = .ok bid →
    queue.findSlot bid.liqPremium = some slot → bid.waitEnd = none →
    ∀ remaining residue, calculateRemainingBid bid slot = .ok (remaining, residue) →
      remaining ≤ slot.totalBidAmount

/-- The subtractions of a retraction, from the amount of the queue and the total of the
    slot, do not underflow. -/
structure RetractionFits (s : State) (queue : Queue) (bidFor : String) (amount : Option Nat)
    (bid : Bid) (slot : PremiumSlot) : Prop where
  waiting : bid.waitEnd.isSome = true → ∀ queue' refund,
    retractWaiting s.config amount bid queue = .ok (queue', refund) →
    refund ≤ queue'.bidAsset.amount
  total : bid.waitEnd = none → ∀ remaining residue withdraw,
    calculateRemainingBid bid slot = .ok (remaining, residue) →
    assertWithdrawAmount amount remaining s.config.minimumBid = .ok withdraw →
    withdraw ≤ slot.totalBidAmount
  active : bid.waitEnd = none → ∀ queue' refund,
    retractActive s.config s.epochScaleSums bidFor amount bid slot queue = .ok (queue', refund) →
    refund ≤ queue'.bidAsset.amount

theorem Queue.Sound.total_le {queue : Queue} {premium : Nat} {slot : PremiumSlot}
    (h : queue.Sound) (found : queue.findSlot premium = some slot) :
    slot.totalBidAmount ≤ queue.total := by
  have hsplit := h.shadowed.sum_split (f := PremiumSlot.totalBidAmount) (fun _ => total_of_blank)
    found
  unfold Queue.total
  omega

theorem liquidation_sufficient {s : State} {bidFor : AssetInfo} {queue : Queue}
    (found : s.queues.lookup bidFor.toText = some queue) (sound : queue.Sound)
    (total : queue.bidAsset.amount = queue.total) (env : Env) (info : MessageInfo)
    (collateralAmount : Nat) (collateralPrice creditPrice : PriceResponse) :
    executeLiquidation env info collateralAmount bidFor collateralPrice creditPrice s ≠
      .error (.err .insufficientBids) := by
  intro hfails
  simp only [executeLiquidation, bind_eq_err, guardErr_eq_err, guardErr_eq_ok, loadQueue,
    ofOption_eq_err, ofOption_eq_ok, pure_eq_err, reduceCtorEq, and_false, false_or, or_false,
    exists_false, (liquidatePremiums_errorless _ _ _), (Uint128.add_errorless _ _ _),
    (subUint_errorless _ _ _), (Uint256.toUint128_errorless _ _)] at hfails
  obtain ⟨_, -, queue₁, hqueue, _, -, premiums, -, l, hloop, _, -, repay, hrepay, hshort⟩ := hfails
  obtain rfl : queue = queue₁ := Option.some.inj (found.symm.trans hqueue)
  have hcounted : (bookOf s bidFor queue Ledger.blank).Counted := by
    show queue.bidAsset.amount + 0 = queue.total + 0
    rw [total]
  obtain ⟨hrun, hrepaid⟩ := @liquidatePremiums_runs env s.config (toDecimal256 collateralPrice)
    (toDecimal256 creditPrice) bidFor.toText (fun _ _ _ => True) _ _ _ Ledger.blank sound
    (fun _ _ _ _ _ _ => trivial) hloop
  have hkeeps : ∀ b m b', (b.queue.Sound ∧ b.Counted) → Liquidates (fun _ _ _ => True) b m →
      b.Moves m b' → (b'.queue.Sound ∧ b'.Counted) := by
    intro b m b' h hliquidates hmoves
    refine ⟨hmoves.sound h.1, hmoves.counted h.1 ?_ h.2⟩
    cases hliquidates <;> trivial
  have hend : l.queue.bidAsset.amount + _ = l.queue.total + _ :=
    (RunWhere.keeps hkeeps hrun ⟨sound, hcounted⟩).2
  have hnone : Ledger.blank.burned = 0 ∧ Ledger.blank.repaid = 0 := ⟨rfl, rfl⟩
  have hlt : l.queue.bidAsset.amount < l.repayAmount := by
    rw [Uint256.toUint128_eq_ok] at hrepay
    rw [hrepay.2]
    exact Uint128.checkedSub_eq_none.mp hshort.1
  simp only [Liquidation.book, recordPremiums_burned] at hend
  simp only at hrepaid
  omega

/-- The amount of a queue is the total of its slots, in every state that is reached by
    calls that retract nothing of a waiting bid and no residue of a slot. No liquidation
    there is short of bids, and no such retraction of a bid that is worth at most the total
    of its slot underflows. -/
theorem amount_eq_slots {s s' : State} (fresh : Fresh s)
    (run : RunWhere Steps (fun s call => call.KeepsTotal s) s s') :
    ∀ text queue, s'.queues.lookup text = some queue →
      queue.bidAsset.amount = queue.total ∧
      (∀ env info collateralAmount bidFor collateralPrice creditPrice, bidFor.toText = text →
        executeLiquidation env info collateralAmount bidFor collateralPrice creditPrice s' ≠
          .error (.err .insufficientBids)) ∧
      ∀ (call : Call) bidId bidFor amount bid slot,
        call.msg = .retractBid bidId bidFor amount → bidFor.toText = text → call.KeepsTotal s' →
          call.Covered s' →
        readBid bidId queue = .ok bid → queue.findSlot bid.liqPremium = some slot →
        RetractionFits s' queue text amount bid slot := by
  intro text queue hqueue
  obtain ⟨ledgers', hrun⟩ := Tracked.of_run run fun _ => Ledger.blank
  obtain ⟨htidy, hevery⟩ := counted_reachable hrun (Tracked.tidy_start fresh)
    (Tracked.every_start _ fresh)
  have hbalanced := Tracked.balanced hrun (Tracked.tidy_start fresh) (fun _ => rfl) text
  have hcounted : queue.bidAsset.amount + _ = queue.total + _ := hevery text queue hqueue
  have htotal : queue.bidAsset.amount = queue.total := by
    have hledger : (ledgers' text).burned = (ledgers' text).repaid := hbalanced
    have hcounted' : queue.bidAsset.amount + (ledgers' text).burned =
        queue.total + (ledgers' text).repaid := hcounted
    omega
  have hsound := htidy.sound text queue hqueue
  refine ⟨htotal, ?_, ?_⟩
  · rintro env info collateralAmount bidFor collateralPrice creditPrice rfl
    exact liquidation_sufficient hqueue hsound htotal env info collateralAmount collateralPrice
      creditPrice
  · rintro call bidId bidFor amount bid slot hmsg rfl hkeeps hcovered hread hslot
    obtain ⟨hwaiting, hactive⟩ := hkeeps bidId bidFor amount queue bid slot hmsg hqueue hread hslot
    refine ⟨fun hwaits queue' refund hretract => ?_, fun hnone remaining residue withdraw hremaining
      hassert => ?_, fun hnone queue' refund hretract => ?_⟩
    · simp only [retractWaiting, bind_eq_ok, pure_eq_ok, Prod.mk.injEq] at hretract
      obtain ⟨withdraw, hassert, _, -, -, rfl⟩ := hretract
      rw [(assertWithdrawAmount_le hassert).2.2 0 (hwaiting hwaits)]
      exact Nat.zero_le _
    · exact (assertWithdrawAmount_le hassert).1.trans (hcovered bidId bidFor amount queue bid slot
        hmsg hqueue hread hslot hnone remaining residue hremaining)
    · have hmem : bid ∈ slot.bids := by
        obtain ⟨slot', hslot', hmem⟩ := hsound.home (readBid_mem hread).1
        rw [hslot] at hslot'
        obtain rfl := Option.some.inj hslot'
        exact (hsound.slots slot (Queue.findSlot_mem hslot)).isActive hmem (by simp [hnone])
      obtain ⟨settled, withdraw, residue, slot', rfl, -, hsettles, hwithdraws, -, rfl⟩ :=
        retractActive_eq hslot (hsound.distinct_slot hslot) hmem hnone hretract
      have hnothing : residue = 0 := by
        rw [hwithdraws.whole]
        exact Nat.div_eq_of_lt (hactive _ _ hnone hsettles.left)
      have hslotTotal := hsound.total_le hslot
      have hsplit := hwithdraws.total
      have hsame : (queue.replaceSlots (Decimal256.percent bid.liqPremium) slot').bidAsset.amount =
          queue.bidAsset.amount := rfl
      rw [hsame]
      omega

/-- A bid above the threshold is split in two, one active and one waiting. -/
def sampleSplit : List Call :=
  [sampleQueue 10 1000000, sampleBid 1 "ann" 3 900000, sampleBid 2 "bob" 3 500000]

/-- On the sample chain the amount is that of the active bids. -/
theorem amount_eq_slots_split :
    ∃ s queue, execAll Call.exec sampleSplit sampleStart = some s ∧
      s.queues.lookup "atom" = some queue ∧ queue.bidAsset.amount = 1000000 ∧
      queue.bidAsset.amount = queue.total := by
  have hreads : sampleReads sampleSplit (fun queue => queue.bidAsset.amount) = some 1000000 := by
    decide +kernel
  obtain ⟨s, queue, hrun, hqueue, hamount⟩ := sampleReads_eq hreads
  have hsteps : RunWhere Steps (fun s call => call.KeepsTotal s) sampleStart s := by
    refine execAll_run (fun _ _ _ h => h) ?_ hrun
    intro call hcall s bidId bidFor amount queue bid slot hmsg
    simp only [sampleSplit, List.mem_cons, List.not_mem_nil, or_false] at hcall
    rcases hcall with rfl | rfl | rfl <;> cases hmsg
  exact ⟨s, queue, hrun, hqueue, hamount,
    (amount_eq_slots sampleStart_fresh hsteps "atom" queue hqueue).1⟩

/-- The amount does not stay the total of the slots: the retraction of a waiting bid of
    400000 takes it off the amount, which it was never added to. -/
theorem amount_not_eq_slots :
    ¬ ∀ s s' : State, Fresh s → RunWhere Steps (fun _ _ => True) s s' →
      ∀ text queue, s'.queues.lookup text = some queue →
        queue.bidAsset.amount = queue.total := by
  intro claim
  have hreads : sampleReads (sampleSplit ++
      [sampleCall 3 "bob" 0 (.retractBid 3 (.nativeToken "atom") none)])
      (fun queue => (queue.bidAsset.amount, queue.total)) = some (600000, 1000000) := by
    decide +kernel
  obtain ⟨s, queue, hrun, hqueue, hread⟩ := sampleReads_eq hreads
  have hsteps : RunWhere Steps (fun _ _ => True) sampleStart s :=
    execAll_run (fun _ _ _ h => h) (fun _ _ _ => trivial) hrun
  have heq := claim sampleStart s sampleStart_fresh hsteps "atom" queue hqueue
  simp only [Prod.mk.injEq] at hread
  omega

end Membrane.LiqQueue
