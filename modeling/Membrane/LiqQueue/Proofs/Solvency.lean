import Mathlib.Algebra.Order.BigOperators.Group.List
import Membrane.LiqQueue.Proofs.Prices
import Membrane.LiqQueue.Proofs.Totals

/-!
# The bid asset that is owed

The totals of the slots and the waiting bids are covered by what the contract got, less
what it gave back and burned, as long as no retraction pays out the residue of a slot,
which stays in its total.
-/

namespace Membrane.LiqQueue

open Outcome

def bidsAmount (bids : List Bid) : Nat := (bids.map Bid.amount).sum

/-- What a slot owes: its total and its waiting bids. -/
def PremiumSlot.owed (slot : PremiumSlot) : Nat := slot.totalBidAmount + bidsAmount slot.waitingBids

/-- What a queue owes. -/
def Queue.owed (queue : Queue) : Nat := (queue.slots.map PremiumSlot.owed).sum

theorem bidsAmount_append (bids bids' : List Bid) :
    bidsAmount (bids ++ bids') = bidsAmount bids + bidsAmount bids' := by
  simp [bidsAmount]

theorem bidsAmount_without {bids : List Bid} {bid : Bid} (mem : bid ∈ bids) :
    bidsAmount (withoutBid bid.id bids) + bid.amount ≤ bidsAmount bids := by
  induction bids with
  | nil => cases mem
  | cons other rest ih =>
    have hsub : bidsAmount (withoutBid bid.id rest) ≤ bidsAmount rest :=
      List.Sublist.sum_le_sum (List.filter_sublist.map Bid.amount) (fun _ _ => Nat.zero_le _)
    have hcons : bidsAmount (other :: rest) = other.amount + bidsAmount rest := rfl
    rcases List.mem_cons.mp mem with rfl | hmem
    · have hdrop : withoutBid bid.id (bid :: rest) = withoutBid bid.id rest :=
        List.filter_cons_of_neg (by simp)
      rw [hdrop, hcons]
      omega
    · have hrest := ih hmem
      by_cases hid : other.id = bid.id
      · have hdrop : withoutBid bid.id (other :: rest) = withoutBid bid.id rest :=
          List.filter_cons_of_neg (by simpa using hid)
        rw [hdrop, hcons]
        omega
      · have hkeep : withoutBid bid.id (other :: rest) = other :: withoutBid bid.id rest :=
          List.filter_cons_of_pos (by simpa using hid)
        have hkept : bidsAmount (other :: withoutBid bid.id rest) =
            other.amount + bidsAmount (withoutBid bid.id rest) := rfl
        rw [hkeep, hkept, hcons]
        omega

theorem SlotMoves.owed {sums sums' : SlotSums} {slot slot' : PremiumSlot} {move : SlotMove}
    (ledger : Ledger) (premium : Nat) (priced : slot.Priced)
    (whole : ∀ bid amount residue, move = .withdraw bid amount residue → residue = 0)
    (moves : SlotMoves sums slot move slot' sums') :
    slot'.owed + (ledger.record premium slot move).refunded +
        (ledger.record premium slot move).repaid + ledger.deposited ≤
      slot.owed + ledger.refunded + ledger.repaid +
        (ledger.record premium slot move).deposited := by
  unfold PremiumSlot.owed
  cases moves with
  | join =>
    simp only [PremiumSlot.join, Ledger.record]
    omega
  | wait =>
    simp only [bidsAmount_append, Ledger.record]
    simp only [bidsAmount, waitingBid, List.map_cons, List.map_nil, List.sum_cons, List.sum_nil]
    omega
  | @activate bid before behind waits =>
    have hsplit : bidsAmount slot.waitingBids =
        bidsAmount before + (bid.amount + bidsAmount behind) := by
      rw [waits, bidsAmount_append]
      rfl
    simp only [PremiumSlot.join, bidsAmount_append, Ledger.record]
    omega
  | touch => exact Nat.le_refl _
  | liquidate spends update =>
    have htotal := spends.total
    rw [← (updateProduct_frame update).2.2.2.1] at htotal
    rw [(spends.updated update).2.1]
    simp only [Ledger.record]
    omega
  | @unqueue bid amount waits most =>
    have hwithout := bidsAmount_without waits
    have hkept : bidsAmount (keptWaiting bid amount) + amount = bid.amount := by
      unfold keptWaiting
      split
      case isTrue heq =>
        rw [heq]
        exact Nat.zero_add _
      case isFalse => exact Nat.sub_add_cancel most
    simp only [bidsAmount_append, Ledger.record]
    omega
  | @withdraw bid amount residue found slot' _ _ _ withdraws =>
    have hnothing := whole bid amount residue rfl
    subst hnothing
    have htotal := withdraws.total
    rw [withdraws.liqPremium_eq.2]
    simp only [Ledger.record]
    omega
  | claim _ _ claims _ waiting =>
    have htotal : slot'.totalBidAmount = slot.totalBidAmount := by
      rw [claims.frame]
    rw [htotal, waiting]
    exact Nat.le_refl _
  | @claimWaiting bid residue found slot' waits settles claims _ waiting =>
    have htotal : slot'.totalBidAmount = slot.totalBidAmount := by
      rw [claims.frame]
    have hwithout := bidsAmount_without waits
    have hremaining := (priced.bids bid (mem_allBids.mpr (Or.inr waits))).remaining_le settles.left
    have hkept : bidsAmount (keptClaimed slot bid found) ≤ found.remaining := by
      unfold keptClaimed
      split
      case isTrue => exact Nat.zero_le _
      case isFalse => exact Nat.le_refl _
    rw [htotal, waiting, bidsAmount_append]
    simp only [Ledger.record]
    omega

theorem owed_of_blank {slot : PremiumSlot} (blank : Blank slot) : slot.owed = 0 := by
  obtain ⟨premium, rfl⟩ := blank
  rfl

/-- What a queue owes and what was refunded and repaid is covered by what it owed and what
    was deposited. -/
def Book.Covered (start : Nat) (b : Book) : Prop :=
  b.queue.Priced ∧
    b.queue.owed + b.ledger.refunded + b.ledger.repaid ≤ start + b.ledger.deposited

def Move.Whole : Move → Prop
  | .slot _ (.withdraw _ _ residue) => residue = 0
  | _ => True

theorem Book.Moves.covered {start : Nat} {b b' : Book} {m : Move} (h : b.queue.Sound)
    (whole : m.Whole) (covered : b.Covered start) (moves : b.Moves m b') : b'.Covered start := by
  obtain ⟨hpriced, hcovered⟩ := covered
  refine ⟨moves.priced hpriced, ?_⟩
  cases moves with
  | @slot premium slot move slot' sums' found ready moves =>
    have hslot := moves.owed b.ledger premium (hpriced slot (Queue.findSlot_mem found))
      (fun bid amount residue hmove => by
        subst hmove
        exact whole)
    have htotal : (b.queue.replaceSlots (Decimal256.percent premium) slot').owed + slot.owed =
        b.queue.owed + slot'.owed := h.shadowed.sum_push (fun _ => owed_of_blank) slot' found
    have hqueue : (b.after premium slot move slot' sums').queue.owed =
        (b.queue.replaceSlots (Decimal256.percent premium) slot').owed := by
      unfold Book.after Book.held Book.counted Queue.owed Queue.replaceSlots
      rw [Queue.count_slots]
    have hledger : (b.after premium slot move slot' sums').ledger =
        b.ledger.record premium slot move := rfl
    rw [hqueue, hledger]
    omega
  | skipBidId | burn | setBidThreshold => exact hcovered
  | @setMaxPremium maxPremium queue' done =>
    have howed : ∀ premiums : List Nat, ((premiums.map newSlot).map PremiumSlot.owed).sum = 0 := by
      intro premiums
      rw [List.map_map]
      exact List.sum_eq_zero fun total htotal => by
        obtain ⟨premium, -, rfl⟩ := List.mem_map.mp htotal
        rfl
    have hsame : queue'.owed = b.queue.owed := by
      unfold Queue.owed
      rw [(Book.setMaxPremium_slots done).2, List.map_append, List.sum_append, howed,
        Nat.add_zero]
    simp only
    omega

/-! ## Calls -/

/-- The bid asset that a contract got for bids, sent back and burned. -/
structure Cash where
  received : Nat
  sent : Nat
  burned : Nat

/-- What is left of it. -/
def Cash.balance (cash : Cash) : Int := cash.received - cash.sent - cash.burned

/-- The bid asset after a call: submissions bring it, retractions send it back and
    liquidations burn it. -/
def Call.pays (call : Call) (response : Response OutMsg) (cash : Cash) : Cash :=
  match call.msg with
  | .submitBid .. => { cash with received := cash.received + coinsAmount call.info.funds }
  | .retractBid .. => { cash with sent := cash.sent + sentBy response }
  | .liquidate .. => { cash with burned := cash.burned + burnedBy response }
  | _ => cash

/-- A successful call with what it pays. -/
def PaidSteps (p : State × Cash) (call : Call) (p' : State × Cash) : Prop :=
  ∃ response, call.Executes p.1 p'.1 response ∧ p'.2 = call.pays response p.2

/-- A call with what it pays, when it succeeds. -/
def Call.execPaid (p : State × Cash) (call : Call) : Option (State × Cash) :=
  match execute call.deps call.env call.info call.msg p.1 with
  | .ok (s', response) => some (s', call.pays response p.2)
  | .error _ => none

theorem Call.execPaid_steps (p : State × Cash) (call : Call) (p' : State × Cash)
    (done : call.execPaid p = some p') : PaidSteps p call p' := by
  unfold Call.execPaid at done
  split at done
  case h_1 s' response hexecute =>
    obtain rfl := Option.some.inj done
    exact ⟨response, hexecute, rfl⟩
  case h_2 => cases done

/-- A retraction finds less than a whole token of residue in its slot. -/
def Call.KeepsResidue (s : State) (call : Call) : Prop :=
  ∀ bidId bidFor amount queue bid slot remaining residue,
    call.msg = .retractBid bidId bidFor amount → s.queues.lookup bidFor.toText = some queue →
    readBid bidId queue = .ok bid → queue.findSlot bid.liqPremium = some slot →
    bid.waitEnd = none → calculateRemainingBid bid slot = .ok (remaining, residue) →
    slot.residueBid.atomics + residue.atomics < Decimal256.fractional

theorem Call.record_pays {s : State} {call : Call} {queue : Queue} {response : Response OutMsg}
    (cash : Cash) :
    (call.pays response cash).received =
        cash.received + (call.record s queue response Ledger.blank).deposited ∧
      (call.pays response cash).sent =
        cash.sent + (call.record s queue response Ledger.blank).refunded ∧
      (call.pays response cash).burned =
        cash.burned + (call.record s queue response Ledger.blank).burned := by
  cases hmsg : call.msg with
  | submitBid | retractBid | addQueue | updateQueue | updateConfig =>
    simp only [Call.record, Call.pays, hmsg]
    simp [Ledger.blank]
  | liquidate =>
    simp only [Call.record, Call.pays, hmsg]
    rw [recordPremiums_frame]
    simp [Ledger.blank]
  | claimLiquidations =>
    simp only [Call.record, Call.pays, hmsg]
    split
    case h_1 =>
      rw [recordClaims_frame]
      simp [Ledger.blank]
    case h_2 => simp [Ledger.blank]

/-- What every queue owes together. -/
def State.owed (s : State) : Nat := KeyMap.total Queue.owed s.queues

structure Paid (p : State × Cash) : Prop where
  tidy : (Tracked.start p.1).Tidy
  priced : (Tracked.start p.1).Every fun b => b.queue.Priced
  covered : p.1.owed + p.2.sent + p.2.burned ≤ p.2.received

theorem PaidSteps.covered {p p' : State × Cash} {call : Call} (h : Paid p)
    (keeps : call.KeepsResidue p.1) (steps : PaidSteps p call p') : Paid p' := by
  obtain ⟨response, done, hcash⟩ := steps
  have hsteps : (Tracked.start p.1).Steps call
      ⟨p'.1, call.recordAll p.1 response fun _ => Ledger.blank⟩ := ⟨response, done, rfl⟩
  obtain ⟨htidy', hpriced'⟩ := Tracked.Steps.keeps (P := fun b => b.queue.Priced) hsteps
    h.tidy h.priced (fun _ _ _ _ => addedQueue_slots Book.newSlot_priced _ _ _)
    (fun _ _ _ _ _ _ _ _ hpriced _ hmoves => hmoves.priced hpriced)
  refine ⟨⟨htidy'.sound, htidy'.sums, fun _ _ => rfl⟩,
    fun text queue hqueue => hpriced' text queue hqueue, ?_⟩
  have hcovered := h.covered
  rw [hcash]
  have hdoes : Call.Does p.1 call response p'.1 := Call.does h.tidy.sound done
  cases hdoes with
  | nothing about queues sums =>
    have howed : p'.1.owed = p.1.owed := by
      unfold State.owed
      rw [queues]
    have hpays : call.pays response p.2 = p.2 := by
      cases hmsg : call.msg <;> simp [hmsg, ExecuteMsg.about] at about
      simp only [Call.pays, hmsg]
    rw [howed, hpays]
    exact hcovered
  | @adds bidFor maxPremium bidThreshold adds absent queues sums =>
    have hnothing : (addedQueue p.1.config maxPremium bidThreshold).owed = 0 := by
      refine List.sum_eq_zero fun total hmem => ?_
      obtain ⟨slot, hslot, rfl⟩ := List.mem_map.mp hmem
      obtain ⟨premium, -, rfl⟩ := List.mem_map.mp hslot
      rfl
    have htotal := KeyMap.total_insert Queue.owed p.1.queues bidFor.toText
      (addedQueue p.1.config maxPremium bidThreshold)
    rw [KeyMap.measureAt_of_absent absent, hnothing, ← queues] at htotal
    have hpays : call.pays response p.2 = p.2 := by
      simp only [Call.pays, adds]
    rw [hpays]
    unfold State.owed at hcovered ⊢
    omega
  | @moves text queue queue' about found queues sums runs =>
    have hrun := runs Ledger.blank
    have hstart : Book.Covered queue.owed
        ⟨queue, slotSums p.1.epochScaleSums text, Ledger.blank⟩ :=
      ⟨h.priced text queue found, Nat.le_refl _⟩
    have hkeeps : ∀ b m b', (b.queue.Sound ∧ b.Covered queue.owed) →
        call.Makes p.1 ⟨queue, slotSums p.1.epochScaleSums text, Ledger.blank⟩ b m →
        b.Moves m b' → (b'.queue.Sound ∧ b'.Covered queue.owed) := by
      intro b m b' hb hmakes hmoves
      refine ⟨hmoves.sound hb.1, hmoves.covered hb.1 ?_ hb.2⟩
      cases hmakes with
      | submit _ _ made => cases made <;> trivial
      | @retract bidId bidFor amount bid slot move refund retracts first read owner found' mem
          retraction =>
          subst first
          cases retraction with
          | waiting => trivial
          | @active remaining withdraw residue active asserted =>
            cases hmoves with
            | slot found'' _ moves =>
              obtain rfl := Option.some.inj (found'.symm.trans found'')
              cases moves with
              | withdraw _ settles _ withdraws =>
                rw [retracts] at about
                obtain rfl := Option.some.inj about
                show residue = 0
                rw [withdraws.whole]
                exact Nat.div_eq_of_lt (keeps bidId bidFor amount queue bid slot _ _
                  retracts found read found' active settles.left)
      | liquidate _ made => cases made <;> trivial
      | claim _ _ made =>
        obtain ⟨_, _, _, _, _, rfl⟩ := made
        trivial
      | setMaxPremium | setBidThreshold => trivial
    obtain ⟨-, -, hend⟩ := RunWhere.keeps hkeeps hrun ⟨h.tidy.sound text queue found, hstart⟩
    have hbalanced : (call.record p.1 queue response Ledger.blank).burned =
        (call.record p.1 queue response Ledger.blank).repaid :=
      Call.record_balanced h.tidy.sound about found (show Ledger.blank.Balanced from rfl) done
    obtain ⟨hreceived, hsent, hburned⟩ := @Call.record_pays p.1 call queue response p.2
    have htotal := KeyMap.total_insert Queue.owed p.1.queues text queue'
    rw [KeyMap.measureAt_of_lookup found, ← queues] at htotal
    unfold State.owed at hcovered ⊢
    simp only at hend
    omega

/-- The contract owes no more than it has: what it got for bids, less what it sent back
    and burned, covers the totals of all slots and all waiting bids, in every state that is
    reached by calls that pay out no residue of a slot. -/
theorem balance_covers_owed {s s' : State} {cash : Cash} (fresh : Fresh s)
    (run : RunWhere PaidSteps (fun p call => call.KeepsResidue p.1) (s, ⟨0, 0, 0⟩) (s', cash)) :
    (s'.owed : Int) ≤ cash.balance := by
  have hstart : Paid (s, ⟨0, 0, 0⟩) := by
    refine ⟨Tracked.tidy_start fresh, Tracked.every_start _ fresh, ?_⟩
    obtain ⟨deps, info, msg, response, done⟩ := fresh
    simp only [instantiate, bind_eq_ok, pure_eq_ok, Prod.mk.injEq] at done
    obtain ⟨_, -, _, -, _, -, rfl, -⟩ := done
    exact Nat.le_refl 0
  have hkeeps : ∀ (p : State × Cash) (call : Call) (p' : State × Cash), Paid p →
      call.KeepsResidue p.1 → PaidSteps p call p' → Paid p' :=
    fun p call p' h hkeeps hsteps => PaidSteps.covered h hkeeps hsteps
  have hcovered : s'.owed + cash.sent + cash.burned ≤ cash.received :=
    (RunWhere.keeps hkeeps run hstart).covered
  unfold Cash.balance
  omega

def sampleThirds : List Call :=
  [sampleQueue 10 5000000, sampleBid 1 "ann" 0 1000, sampleBid 1 "bob" 0 1000,
    sampleBid 1 "eve" 0 1000, sampleLiquidation 2 1]

/-- On the sample chain what is owed is what is left of the three bids. -/
theorem balance_covers_owed_thirds :
    ∃ s cash, execAll Call.execPaid sampleThirds (sampleStart, ⟨0, 0, 0⟩) = some (s, cash) ∧
      s.owed = 2999 ∧ (s.owed : Int) ≤ cash.balance := by
  have howed : (execAll Call.execPaid sampleThirds (sampleStart, ⟨0, 0, 0⟩)).map
      (fun p => p.1.owed) = some 2999 := by decide +kernel
  obtain ⟨⟨s, cash⟩, hrun, howed⟩ := Option.map_eq_some_iff.mp howed
  refine ⟨s, cash, hrun, howed, balance_covers_owed sampleStart_fresh ?_⟩
  refine execAll_run Call.execPaid_steps ?_ hrun
  intro call hcall p bidId bidFor amount queue bid slot remaining residue hmsg
  simp only [sampleThirds, List.mem_cons, List.not_mem_nil, or_false] at hcall
  rcases hcall with rfl | rfl | rfl | rfl | rfl <;> cases hmsg

/-- The contract can owe more than it has: the second of two retractions is paid a whole
    token of residue, which stays in the total of the slot. -/
theorem balance_not_covers_owed :
    ¬ ∀ (s s' : State) (cash : Cash), Fresh s →
      RunWhere PaidSteps (fun _ _ => True) (s, ⟨0, 0, 0⟩) (s', cash) →
      (s'.owed : Int) ≤ cash.balance := by
  intro claim
  have hreads : (execAll Call.execPaid (sampleThirds ++
      [sampleCall 3 "ann" 0 (.retractBid 1 (.nativeToken "atom") none),
        sampleCall 4 "bob" 0 (.retractBid 2 (.nativeToken "atom") none)])
      (sampleStart, ⟨0, 0, 0⟩)).map (fun p => (p.1.owed, p.2.balance)) = some (1001, 1000) := by
    decide +kernel
  obtain ⟨⟨s, cash⟩, hrun, hread⟩ := Option.map_eq_some_iff.mp hreads
  have hsteps : RunWhere PaidSteps (fun _ _ => True) (sampleStart, ⟨0, 0, 0⟩) (s, cash) :=
    execAll_run Call.execPaid_steps (fun _ _ _ => trivial) hrun
  have hle := claim sampleStart s cash sampleStart_fresh hsteps
  simp only [Prod.mk.injEq] at hread
  rw [hread.1, hread.2] at hle
  exact absurd hle (by decide)

end Membrane.LiqQueue
