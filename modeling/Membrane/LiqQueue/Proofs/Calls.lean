import Membrane.LiqQueue.Proofs.Liquidating

/-!
# Calls as runs of moves

Each call is a run of moves of the queue it is about, and leaves the others. What it pays
in, out and burns is recorded in the ledger of its queue.
-/

namespace Membrane.LiqQueue

open Outcome

/-! ## What a call pays -/

def coinsAmount (coins : List Coin) : Nat := (coins.map Coin.amount).sum

def sentBy (response : Response OutMsg) : Nat :=
  (response.messages.map fun sub => match sub.msg with
    | .bankSend _ coins => coinsAmount coins
    | .execute .. => 0).sum

def burnedBy (response : Response OutMsg) : Nat :=
  (response.messages.map fun sub => match sub.msg with
    | .execute _ (.burnTokens _ amount _) _ => amount
    | .bankSend .. => 0).sum

theorem sentBy_payout (asset : Asset) (recipient : Addr) :
    sentBy (payout asset recipient) = asset.amount := by
  unfold payout
  split
  case isTrue hzero =>
    rw [hzero]
    rfl
  case isFalse => simp [sentBy, coinsAmount, Response.addMessages, SubMsg.new]

/-! ## The handler of a liquidation -/

theorem executeLiquidation_runs {env : Env} {info : MessageInfo} {collateralAmount : Nat}
    {bidFor : AssetInfo} {collateralPrice creditPrice : PriceResponse} {s s' : State}
    {response : Response OutMsg} {liquidated : Liquidated}
    (fine : SlotSums → PremiumSlot → PoolFill → Prop) (ledger : Ledger)
    (sound : ∀ queue, s.queues.lookup bidFor.toText = some queue → queue.Sound)
    (takes : ∀ queue, s.queues.lookup bidFor.toText = some queue →
      ∀ premium visited slot fill,
        Liquidation.Visits env s.config bidFor.toText (toDecimal256 collateralPrice)
          (toDecimal256 creditPrice) (List.range (queue.maxPremium + 1))
          ⟨queue, s.epochScaleSums, collateralAmount, 0⟩ premium visited →
        visited.Takes env s.config (toDecimal256 collateralPrice) (toDecimal256 creditPrice)
          premium slot fill →
        fine (slotSums visited.sums bidFor.toText premium) slot fill)
    (done : executeLiquidation env info collateralAmount bidFor collateralPrice creditPrice s =
      .ok (s', response, liquidated)) :
    ∃ (queue queue' : Queue) (sums' : EpochScaleSums),
      s.queues.lookup bidFor.toText = some queue ∧
      s' = { saveQueue s bidFor queue' with epochScaleSums := sums' } ∧
      (∀ other, other ≠ bidFor.toText → slotSums sums' other = slotSums s.epochScaleSums other) ∧
      burnedBy response = liquidated.repayAmount ∧ sentBy response = 0 ∧
      (recordPremiums env s.config bidFor.toText (toDecimal256 collateralPrice)
        (toDecimal256 creditPrice) (List.range (queue.maxPremium + 1))
        ⟨queue, s.epochScaleSums, collateralAmount, 0⟩ ledger).repaid =
          ledger.repaid + burnedBy response ∧
      Book.Runs (Liquidates fine) (bookOf s bidFor queue ledger)
        ⟨queue', slotSums sums' bidFor.toText,
          { recordPremiums env s.config bidFor.toText (toDecimal256 collateralPrice)
              (toDecimal256 creditPrice) (List.range (queue.maxPremium + 1))
              ⟨queue, s.epochScaleSums, collateralAmount, 0⟩ ledger with
            burned := (recordPremiums env s.config bidFor.toText (toDecimal256 collateralPrice)
              (toDecimal256 creditPrice) (List.range (queue.maxPremium + 1))
              ⟨queue, s.epochScaleSums, collateralAmount, 0⟩ ledger).burned +
                burnedBy response }⟩ := by
  simp only [executeLiquidation, bind_eq_ok, guardErr_eq_ok, loadQueue_eq_ok, Uint128.add_eq_ok,
    Uint256.toUint128_eq_ok, subUint_eq_ok, ofOption_eq_ok, pure_eq_ok, Prod.mk.injEq] at done
  obtain ⟨_, -, queue, hqueue, _, -, _, ⟨-, rfl⟩, l, hloop, _, -, _, ⟨-, rfl⟩, left, hleft, rfl,
    rfl, rfl⟩ := done
  obtain ⟨hle, rfl⟩ : l.repayAmount ≤ l.queue.bidAsset.amount ∧
      l.queue.bidAsset.amount - l.repayAmount = left := by simpa using hleft
  obtain ⟨hrun, hrepaid⟩ :=
    liquidatePremiums_runs ledger (sound queue hqueue) (takes queue hqueue) hloop
  have hresponse : ∀ msgs : List (CosmosMsg OutMsg),
      msgs = (if l.repayAmount ≠ 0 then
        [.execute s.config.osmosisProxyContract
          (.burnTokens l.queue.bidAsset.info.toText l.repayAmount env.contractAddress) []]
      else []) →
      burnedBy (Response.addMessages {} msgs) = l.repayAmount ∧
        sentBy (Response.addMessages {} msgs) = 0 := by
    intro msgs hmsgs
    subst hmsgs
    by_cases hzero : l.repayAmount = 0
    · rw [if_neg (by simpa using hzero), hzero]
      exact ⟨rfl, rfl⟩
    · rw [if_pos hzero]
      simp [burnedBy, sentBy, Response.addMessages, SubMsg.new]
  obtain ⟨hburned, hsent⟩ := hresponse _ rfl
  refine ⟨queue, _, l.sums, hqueue, rfl, fun other hne => liquidatePremiums_sums_ne hne hloop,
    hburned, hsent, ?_, ?_⟩
  · rw [hburned]
    exact (hrepaid.trans (Nat.zero_add _)).symm.trans (Nat.add_comm _ _)
  rw [hburned]
  exact hrun.tail ⟨_, .burn l.repayAmount, .burn hle⟩

/-! ## Calls -/

def ExecuteMsg.about : ExecuteMsg → Option String
  | .submitBid bidInput _ => some bidInput.bidFor.toText
  | .retractBid _ bidFor _ => some bidFor.toText
  | .liquidate _ _ _ bidFor => some bidFor.toText
  | .claimLiquidations bidFor _ => some bidFor.toText
  | .addQueue bidFor _ _ => some bidFor.toText
  | .updateQueue bidFor _ _ => some bidFor.toText
  | .updateConfig _ => none

/-- What a call takes from the slots of its queue when it is a liquidation: the sums and the
    slot as they are right before, and what the slot repays. -/
inductive Call.Takes (s : State) (call : Call) : SlotSums → PremiumSlot → PoolFill → Prop where
  | slot {creditPrice collateralPrice collateralAmount bidFor queue premium visited slot fill}
      (liquidates : call.msg = .liquidate creditPrice collateralPrice collateralAmount bidFor)
      (found : s.queues.lookup bidFor.toText = some queue)
      (visits : Liquidation.Visits call.env s.config bidFor.toText (toDecimal256 collateralPrice)
        (toDecimal256 creditPrice) (List.range (queue.maxPremium + 1))
        ⟨queue, s.epochScaleSums, collateralAmount, 0⟩ premium visited)
      (takes : visited.Takes call.env s.config (toDecimal256 collateralPrice)
        (toDecimal256 creditPrice) premium slot fill) :
      Call.Takes s call (slotSums visited.sums bidFor.toText premium) slot fill

def Call.taken (s : State) (call : Call) : List (SlotSums × PremiumSlot × PoolFill) :=
  match call.msg with
  | .liquidate creditPrice collateralPrice collateralAmount bidFor =>
    match s.queues.lookup bidFor.toText with
    | some queue =>
      Liquidation.taken call.env s.config bidFor.toText (toDecimal256 collateralPrice)
        (toDecimal256 creditPrice) (List.range (queue.maxPremium + 1))
        ⟨queue, s.epochScaleSums, collateralAmount, 0⟩
    | none => []
  | _ => []

theorem Call.Takes.mem_taken {s : State} {call : Call} {sums : SlotSums} {slot : PremiumSlot}
    {fill : PoolFill} (takes : call.Takes s sums slot fill) :
    (sums, slot, fill) ∈ call.taken s := by
  cases takes with
  | slot liquidates found visits takes =>
    unfold Call.taken
    simp only [liquidates, found]
    exact visits.mem_taken takes

/-- The moves that a call makes of the queue it is about. -/
inductive Call.Makes (s : State) (call : Call) (start b : Book) : Move → Prop where
  | submit {bidInput bidOwner user m} (submits : call.msg = .submitBid bidInput bidOwner)
      (owner : validatePositionOwner call.deps call.info bidOwner = .ok user)
      (made : Submits user bidInput.liqPremium b m) : Call.Makes s call start b m
  | retract {bidId bidFor amount bid slot move refund}
      (retracts : call.msg = .retractBid bidId bidFor amount) (first : b = start)
      (read : readBid bidId b.queue = .ok bid) (owner : bid.user = call.info.sender)
      (found : b.queue.findSlot bid.liqPremium = some slot) (mem : bid ∈ slot.allBids)
      (retraction : Retraction s.config amount bid move refund) :
      Call.Makes s call start b (.slot bid.liqPremium move)
  | liquidate {creditPrice collateralPrice collateralAmount bidFor m}
      (liquidates : call.msg = .liquidate creditPrice collateralPrice collateralAmount bidFor)
      (made : Liquidates (call.Takes s) b m) : Call.Makes s call start b m
  | claim {bidFor bidIds bids m} (claims : call.msg = .claimLiquidations bidFor bidIds)
      (named : bidsToClaim start.queue call.info.sender bidIds = .ok bids)
      (made : Claims call.env.blockTime call.info.sender bids b m) : Call.Makes s call start b m
  | setMaxPremium {bidFor maxPremium bidThreshold}
      (edits : call.msg = .updateQueue bidFor (some maxPremium) bidThreshold) (first : b = start) :
      Call.Makes s call start b (.setMaxPremium maxPremium)
  | setBidThreshold {bidFor maxPremium bidThreshold}
      (edits : call.msg = .updateQueue bidFor maxPremium (some bidThreshold)) :
      Call.Makes s call start b (.setBidThreshold bidThreshold)

def Call.record (s : State) (call : Call) (queue : Queue) (response : Response OutMsg)
    (ledger : Ledger) : Ledger :=
  match call.msg with
  | .submitBid .. => { ledger with deposited := ledger.deposited + coinsAmount call.info.funds }
  | .retractBid .. => { ledger with refunded := ledger.refunded + sentBy response }
  | .liquidate creditPrice collateralPrice collateralAmount bidFor =>
    let taken := recordPremiums call.env s.config bidFor.toText (toDecimal256 collateralPrice)
      (toDecimal256 creditPrice) (List.range (queue.maxPremium + 1))
      ⟨queue, s.epochScaleSums, collateralAmount, 0⟩ ledger
    { taken with burned := taken.burned + burnedBy response }
  | .claimLiquidations bidFor bidIds =>
    match bidsToClaim queue call.info.sender bidIds with
    | .ok bids => recordClaims call.env.blockTime s.epochScaleSums bidFor.toText
        call.info.sender bids (queue, 0) ledger
    | .error _ => ledger
  | _ => ledger

def addedQueue (config : Config) (maxPremium bidThreshold : Nat) : Queue :=
  { bidAsset := ⟨config.bidAsset, 0⟩
    maxPremium := maxPremium
    slots := (List.range ((maxPremium + 1) % Uint64.limit)).map newSlot
    currentBidId := 1
    bidThreshold := bidThreshold }

section

variable {s s' : State} {call : Call} {response : Response OutMsg}

/-- What a call does: nothing to the queues, a new queue, or a run of moves of one. -/
inductive Call.Does (s : State) (call : Call) (response : Response OutMsg) (s' : State) : Prop where
  | nothing (about : call.msg.about = none) (queues : s'.queues = s.queues)
      (sums : s'.epochScaleSums = s.epochScaleSums) : Call.Does s call response s'
  | adds {bidFor maxPremium bidThreshold} (adds : call.msg =
    .addQueue bidFor maxPremium bidThreshold)
      (absent : s.queues.lookup bidFor.toText = none)
      (queues : s'.queues = s.queues.insert bidFor.toText
        (addedQueue s.config maxPremium bidThreshold))
      (sums : s'.epochScaleSums = s.epochScaleSums) : Call.Does s call response s'
  | moves {text queue queue'} (about : call.msg.about = some text)
      (found : s.queues.lookup text = some queue)
      (queues : s'.queues = s.queues.insert text queue')
      (sums : ∀ other, other ≠ text →
        slotSums s'.epochScaleSums other = slotSums s.epochScaleSums other)
      (runs : ∀ ledger,
        Book.Runs (call.Makes s ⟨queue, slotSums s.epochScaleSums text, ledger⟩)
          ⟨queue, slotSums s.epochScaleSums text, ledger⟩
          ⟨queue', slotSums s'.epochScaleSums text, call.record s queue response ledger⟩) :
      Call.Does s call response s'

/-- Every queue of a state is sound. -/
def State.Sound (s : State) : Prop :=
  ∀ text queue, s.queues.lookup text = some queue → queue.Sound

private theorem submit_does {bidInput : BidInput} {bidOwner : Option String}
    (submits : call.msg = .submitBid bidInput bidOwner)
    (done : submitBid call.deps call.env call.info bidInput bidOwner s = .ok (s', response)) :
    Call.Does s call response s' := by
  obtain ⟨sub, queue', slot', slot'', rest, howner, hplaced, hqueued, rfl, rfl⟩ := submitBid_eq done
  obtain ⟨denom, -, hfunds⟩ := sub.sent
  refine .moves (by rw [submits]; rfl) sub.found rfl (fun _ _ => rfl) fun ledger => ?_
  have hrun := Placed.runs (b := bookOf s bidInput.bidFor sub.queue ledger) sub.home sub.fits
    sub.premium hplaced hqueued
  have hrecord : call.record s sub.queue {} ledger =
      { ledger with deposited := ledger.deposited + sub.amount } := by
    unfold Call.record
    rw [submits, hfunds]
    simp [coinsAmount]
  rw [hrecord]
  exact RunWhere.mono (fun _ _ _ made _ => .submit submits howner made) hrun

private theorem retract_does {bidId : Nat} {bidFor : AssetInfo} {amount : Option Nat}
    (sound : s.Sound) (retracts : call.msg = .retractBid bidId bidFor amount)
    (done : retractBid call.info bidId bidFor amount s = .ok (s', response)) :
    Call.Does s call response s' := by
  obtain ⟨queue, queue', bid, slot, move, refund, hqueue, hread, howner, hslot, hmem, hretraction,
    rfl, rfl, -⟩ := retractBid_moves Ledger.blank (sound bidFor.toText) done
  refine .moves (by rw [retracts]; rfl) hqueue rfl (fun _ _ => rfl) fun ledger => ?_
  obtain ⟨queue₁, queue₁', bid₁, slot₁, move₁, refund₁, hqueue₁, hread₁, howner₁, hslot₁, hmem₁,
    hretraction₁, hs', hresponse, hmoves⟩ := retractBid_moves ledger (sound bidFor.toText) done
  obtain rfl : queue = queue₁ := Option.some.inj (hqueue.symm.trans hqueue₁)
  have hsaved : queue' = queue₁' := by
    have hqueues := congrArg (fun state => state.queues.lookup bidFor.toText) hs'
    simpa [saveQueue] using hqueues
  have hrecord : call.record s queue (payout ⟨queue.bidAsset.info, refund⟩ call.info.sender)
      ledger = ledger.record bid₁.liqPremium slot₁ move₁ := by
    have hrefund : refund = refund₁ := by
      have hsent := congrArg sentBy hresponse
      simpa only [sentBy_payout] using hsent
    unfold Call.record
    rw [retracts, hrefund]
    simp only [sentBy_payout]
    cases hretraction₁ <;> rfl
  rw [hrecord, hsaved]
  exact .single ⟨_, .retract retracts rfl hread₁ howner₁ hslot₁ hmem₁ hretraction₁, hmoves⟩

private theorem liquidate_does {creditPrice collateralPrice : PriceResponse}
    {collateralAmount : Nat} {bidFor : AssetInfo} (sound : s.Sound)
    (liquidates : call.msg = .liquidate creditPrice collateralPrice collateralAmount bidFor)
    {liquidated : Liquidated}
    (done : executeLiquidation call.env call.info collateralAmount bidFor collateralPrice
      creditPrice s = .ok (s', response, liquidated)) :
    Call.Does s call response s' := by
  have hruns := fun ledger => executeLiquidation_runs (call.Takes s) ledger
    (sound bidFor.toText) (fun queue hqueue premium visited slot fill hvisits htakes =>
      .slot liquidates hqueue hvisits htakes) done
  obtain ⟨queue, queue', sums', hqueue, hs', hsums, -, -, -, -⟩ := hruns Ledger.blank
  have hqueues : s'.queues = s.queues.insert bidFor.toText queue' := by
    rw [hs']
    rfl
  have hstored : s'.epochScaleSums = sums' := by
    rw [hs']
  refine .moves (by rw [liquidates]; rfl) hqueue hqueues (fun other hne => ?_) fun ledger => ?_
  · rw [hstored]
    exact hsums other hne
  · obtain ⟨queue₁, queue₁', sums₁, hqueue₁, hs₁, -, -, -, -, hrun⟩ := hruns ledger
    obtain rfl : queue = queue₁ := Option.some.inj (hqueue.symm.trans hqueue₁)
    have hsaved : queue' = queue₁' := by
      have hlookup := congrArg (fun state => state.queues.lookup bidFor.toText) (hs'.symm.trans hs₁)
      simpa [saveQueue] using hlookup
    have hstored₁ : s'.epochScaleSums = sums₁ := by
      rw [hs₁]
    rw [hsaved, hstored₁]
    have hrecord : call.record s queue response ledger =
        { recordPremiums call.env s.config bidFor.toText (toDecimal256 collateralPrice)
            (toDecimal256 creditPrice) (List.range (queue.maxPremium + 1))
            ⟨queue, s.epochScaleSums, collateralAmount, 0⟩ ledger with
          burned := (recordPremiums call.env s.config bidFor.toText (toDecimal256 collateralPrice)
            (toDecimal256 creditPrice) (List.range (queue.maxPremium + 1))
            ⟨queue, s.epochScaleSums, collateralAmount, 0⟩ ledger).burned +
              burnedBy response } := by
      unfold Call.record
      rw [liquidates]
    rw [hrecord]
    exact RunWhere.mono (fun _ _ _ made _ => .liquidate liquidates made) hrun

private theorem claim_does {bidFor : AssetInfo} {bidIds : Option (List Nat)} (sound : s.Sound)
    (claims : call.msg = .claimLiquidations bidFor bidIds)
    (done : claimLiquidations call.env call.info bidFor bidIds s = .ok (s', response)) :
    Call.Does s call response s' := by
  have hruns := fun ledger => claimLiquidations_runs ledger (sound bidFor.toText) done
  obtain ⟨queue, queue', bids, claimed, hqueue, hbids, hfold, hs', -, -⟩ := hruns Ledger.blank
  refine .moves (by rw [claims]; rfl) hqueue (by rw [hs']; rfl) (fun _ _ => by rw [hs']; rfl)
    fun ledger => ?_
  obtain ⟨queue₁, queue₁', bids₁, claimed₁, hqueue₁, hbids₁, hfold₁, -, -, hrun⟩ := hruns ledger
  obtain rfl : queue = queue₁ := Option.some.inj (hqueue.symm.trans hqueue₁)
  obtain rfl : bids = bids₁ := Except.ok.inj (hbids.symm.trans hbids₁)
  obtain ⟨rfl, -⟩ : queue' = queue₁' ∧ claimed = claimed₁ := by
    have heq := Except.ok.inj (hfold.symm.trans hfold₁)
    exact Prod.mk.inj heq
  have hrecord : call.record s queue response ledger = recordClaims call.env.blockTime
      s.epochScaleSums bidFor.toText call.info.sender bids (queue, 0) ledger := by
    unfold Call.record
    simp only [claims, hbids]
  have hstored : s'.epochScaleSums = s.epochScaleSums := by
    rw [hs']
    rfl
  rw [hrecord, hstored]
  exact RunWhere.mono (fun _ _ _ made _ => .claim claims hbids made) hrun

private theorem edit_does {bidFor : AssetInfo} {maxPremium bidThreshold : Option Nat}
    (edits : call.msg = .updateQueue bidFor maxPremium bidThreshold)
    (done : editQueue call.info bidFor maxPremium bidThreshold s = .ok (s', response)) :
    Call.Does s call response s' := by
  simp only [editQueue, bind_eq_ok, guardErr_eq_ok, loadQueue_eq_ok, pure_eq_ok,
    Prod.mk.injEq] at done
  obtain ⟨_, -, queue, hqueue, queue₁, hpremium, queue₂, hthreshold, rfl, rfl⟩ := done
  refine .moves (by rw [edits]; rfl) hqueue rfl (fun _ _ => rfl) fun ledger => ?_
  have hrecord : call.record s queue {} ledger = ledger := by
    unfold Call.record
    rw [edits]
  rw [hrecord]
  have hfirst : Book.Runs (call.Makes s (bookOf s bidFor queue ledger))
      (bookOf s bidFor queue ledger) (bookOf s bidFor queue₁ ledger) := by
    cases maxPremium with
    | none =>
      simp only [pure_eq_ok] at hpremium
      subst hpremium
      exact .refl
    | some newPremium =>
      exact .single ⟨_, .setMaxPremium edits rfl, .setMaxPremium hpremium⟩
  cases bidThreshold with
  | none =>
    simp only [pure_eq_ok] at hthreshold
    subst hthreshold
    exact hfirst
  | some threshold =>
    simp only [setBidThreshold, bind_eq_ok, pure_eq_ok] at hthreshold
    obtain ⟨_, -, rfl⟩ := hthreshold
    exact hfirst.tail ⟨_, .setBidThreshold edits, .setBidThreshold⟩

private theorem add_does {bidFor : AssetInfo} {maxPremium bidThreshold : Nat}
    (adds : call.msg = .addQueue bidFor maxPremium bidThreshold)
    (done : addQueue call.info bidFor maxPremium bidThreshold s = .ok (s', response)) :
    Call.Does s call response s' := by
  simp only [addQueue, bind_eq_ok, guardErr_eq_ok, Uint128.add_eq_ok, pure_eq_ok,
    Prod.mk.injEq] at done
  obtain ⟨_, -, _, ⟨-, rfl⟩, _, habsent, _, -, rfl, rfl⟩ := done
  exact .adds adds (by simpa using habsent) rfl rfl

theorem Call.does (sound : s.Sound) (done : call.Executes s s' response) :
    Call.Does s call response s' := by
  unfold Call.Executes execute at done
  split at done
  case h_1 bidInput bidOwner hmsg => exact submit_does hmsg done
  case h_2 bidId bidFor amount hmsg => exact retract_does sound hmsg done
  case h_3 creditPrice collateralPrice collateralAmount bidFor hmsg =>
    simp only [bind_eq_ok, pure_eq_ok, Prod.mk.injEq] at done
    obtain ⟨⟨s₁, response₁, liquidated⟩, hliquidation, rfl, rfl⟩ := done
    exact liquidate_does sound hmsg hliquidation
  case h_4 bidFor bidIds hmsg => exact claim_does sound hmsg done
  case h_5 bidFor maxPremium bidThreshold hmsg => exact add_does hmsg done
  case h_6 bidFor maxPremium bidThreshold hmsg => exact edit_does hmsg done
  case h_7 update hmsg =>
    simp only [updateConfig, bind_eq_ok, pure_eq_ok, Prod.mk.injEq] at done
    obtain ⟨_, -, _, -, _, -, _, -, rfl, -⟩ := done
    exact .nothing (by rw [hmsg]; rfl) rfl rfl

end

end Membrane.LiqQueue
