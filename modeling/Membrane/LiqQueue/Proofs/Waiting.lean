import Membrane.LiqQueue.Proofs.Reach

/-!
# Claims and waiting bids

A claim leaves the bids that wait alone, unless it names one whose wait is over: that one
is settled as if it had been activated.
-/

namespace Membrane.LiqQueue

open Outcome

/-- The waiting bids of a queue, by premium. -/
def Queue.waitingAt (queue : Queue) (premium : Nat) : Option (List Bid) :=
  (queue.findSlot premium).map PremiumSlot.waitingBids

/-- The bids of a claim that wait do so beyond its time. -/
def StillWait (blockTime : Nat) (bids : List Bid) : Prop :=
  ∀ bid ∈ bids, ∀ waitEnd, bid.waitEnd = some waitEnd → blockTime < waitEnd

theorem Book.Moves.waitingAt {b b' : Book} {m : Move} {blockTime : Nat} {sender : Addr}
    {bids : List Bid} (h : b.queue.Sound) (wait : StillWait blockTime bids)
    (claims : Claims blockTime sender bids b m) (moves : b.Moves m b') :
    b'.queue.waitingAt = b.queue.waitingAt := by
  obtain ⟨bid, hbid, -, hclaimable, got, rfl⟩ := claims
  have hnone : bid.waitEnd = none := by
    cases hwaitEnd : bid.waitEnd with
    | none => rfl
    | some waitEnd =>
      have hlt := wait bid hbid waitEnd hwaitEnd
      have hle := hclaimable waitEnd hwaitEnd
      omega
  cases moves with
  | @slot _ slot _ slot' sums' found ready moves =>
    have hhome := Queue.findSlot_premium found
    have hsame : slot'.waitingBids = slot.waitingBids := by
      cases moves with
      | claim _ _ _ _ waiting => exact waiting
      | claimWaiting waits =>
        have hsome := ((h.slots slot (Queue.findSlot_mem found)).waiting bid waits).1
        rw [hnone] at hsome
        cases hsome
    have hhome' : slot'.liqPremium = Decimal256.percent bid.liqPremium := by
      rw [moves.liqPremium_eq]
      exact hhome
    funext premium
    show ((b.queue.replaceSlots (Decimal256.percent bid.liqPremium) slot').findSlot premium).map
      PremiumSlot.waitingBids = (b.queue.findSlot premium).map PremiumSlot.waitingBids
    by_cases hpremium : bid.liqPremium = premium
    · subst hpremium
      rw [Queue.findSlot_replaceSlots_self b.queue hhome', found, Option.map_some,
        Option.map_some, hsame]
    · rw [Queue.findSlot_replaceSlots_ne b.queue hhome' hpremium]

theorem claimBids_active {blockTime : Nat} {sums : EpochScaleSums} {bidFor : String}
    {sender : Addr} {result : Queue × Nat} :
    ∀ {bids : List Bid} {acc : Queue × Nat}, StillWait blockTime bids →
      bids.foldlM (claimBid blockTime sums bidFor sender) acc = .ok result →
      (bids.filter fun bid => bid.waitEnd.isNone).foldlM (claimBid blockTime sums bidFor sender)
        acc = .ok result := by
  intro bids
  induction bids with
  | nil => intro acc _ done; exact done
  | cons bid rest ih =>
    intro acc hwait done
    have hrest : StillWait blockTime rest :=
      fun other hother => hwait other (List.mem_cons_of_mem _ hother)
    simp only [List.foldlM_cons, bind_eq_ok] at done
    obtain ⟨acc₁, hone, hfold⟩ := done
    cases hwaitEnd : bid.waitEnd with
    | none =>
      rw [List.filter_cons_of_pos (by simp [hwaitEnd]), List.foldlM_cons]
      simp only [bind_eq_ok]
      exact ⟨acc₁, hone, ih hrest hfold⟩
    | some waitEnd =>
      rw [List.filter_cons_of_neg (by simp [hwaitEnd])]
      have hlt := hwait bid List.mem_cons_self waitEnd hwaitEnd
      simp only [claimBid, hwaitEnd, Option.any_some, hlt, decide_true, if_true, bind_eq_ok,
        pure_eq_ok] at hone
      obtain ⟨-, -, rfl⟩ := hone
      exact ih hrest hfold

/-- A claim that names no bid whose wait is over leaves every waiting bid as it is, in
    every reachable state, and pays what the claim of its active bids alone pays. -/
theorem claim_keeps_waiting {start s s' : State} {env : Env} {info : MessageInfo}
    {bidFor : AssetInfo} {bidIds : Option (List Nat)} {response : Response OutMsg} {queue : Queue}
    {bids : List Bid} (fresh : Fresh start) (run : RunWhere Steps (fun _ _ => True) start s)
    (found : s.queues.lookup bidFor.toText = some queue)
    (named : bidsToClaim queue info.sender bidIds = .ok bids) (wait : StillWait env.blockTime bids)
    (done : claimLiquidations env info bidFor bidIds s = .ok (s', response)) :
    ∃ queue' claimed, s' = saveQueue s bidFor queue' ∧
      response = payout ⟨bidFor, claimed⟩ info.sender ∧
      queue'.waitingAt = queue.waitingAt ∧
      (bids.filter fun bid => bid.waitEnd.isNone).foldlM
        (claimBid env.blockTime s.epochScaleSums bidFor.toText info.sender) (queue, 0) =
          .ok (queue', claimed) := by
  have hsound := reachable_sound fresh run
  obtain ⟨queue₁, queue', bids₁, claimed, hqueue, hbids, hfold, hs', hresponse, hrun⟩ :=
    claimLiquidations_runs Ledger.blank (hsound bidFor.toText) done
  obtain rfl : queue = queue₁ := Option.some.inj (found.symm.trans hqueue)
  obtain rfl : bids = bids₁ := Except.ok.inj (named.symm.trans hbids)
  have hkeeps : ∀ b m b', (b.queue.Sound ∧ b.queue.waitingAt = queue.waitingAt) →
      Claims env.blockTime info.sender bids b m → b.Moves m b' →
      (b'.queue.Sound ∧ b'.queue.waitingAt = queue.waitingAt) := fun b m b' h hclaims hmoves =>
    ⟨hmoves.sound h.1, (hmoves.waitingAt h.1 wait hclaims).trans h.2⟩
  obtain ⟨-, hsame⟩ := RunWhere.keeps hkeeps hrun ⟨hsound bidFor.toText queue found, rfl⟩
  exact ⟨queue', claimed, hs', hresponse, hsame, claimBids_active wait hfold⟩

def sampleEmptied : List Call :=
  [sampleQueue 10 1000000, sampleBid 1 "ann" 3 900000, sampleBid 2 "bob" 3 500000,
    sampleLiquidation 3 2000000]

/-- A claim of one bid on the sample chain: the queue before, the bids it names, and what it
    leaves. -/
structure SampleClaim where
  state : State
  queue : Queue
  bids : List Bid
  after : State
  response : Response OutMsg

def sampleClaim (calls : List Call) (time : Nat) (user : Addr) (id : Nat) : Option SampleClaim :=
  (execAll Call.exec calls sampleStart).bind fun s =>
    (s.queues.lookup "atom").bind fun queue =>
      match bidsToClaim queue user (some [id]), claimLiquidations ⟨time, "queue"⟩
        (MessageInfo.noFunds user) (.nativeToken "atom") (some [id]) s with
      | .ok bids, .ok (s', response) => some ⟨s, queue, bids, s', response⟩
      | _, _ => none

theorem sampleClaim_eq {calls : List Call} {time : Nat} {user : Addr} {id : Nat}
    {run : SampleClaim} (done : sampleClaim calls time user id = some run) :
    execAll Call.exec calls sampleStart = some run.state ∧
      run.state.queues.lookup (AssetInfo.nativeToken "atom").toText = some run.queue ∧
      bidsToClaim run.queue user (some [id]) = .ok run.bids ∧
      claimLiquidations ⟨time, "queue"⟩ (MessageInfo.noFunds user) (.nativeToken "atom")
        (some [id]) run.state = .ok (run.after, run.response) := by
  obtain ⟨s, hrun, hrest⟩ := Option.bind_eq_some_iff.mp done
  obtain ⟨queue, hqueue, hrest⟩ := Option.bind_eq_some_iff.mp hrest
  split at hrest
  case h_1 bids s' response hbids hclaim =>
    obtain rfl := Option.some.inj hrest
    exact ⟨hrun, hqueue, hbids, hclaim⟩
  case h_2 => cases hrest

/-- A claim of a bid that is not to be claimed yet. -/
theorem claim_keeps_waiting_early :
    ∃ run, sampleClaim sampleEmptied 50 "bob" 3 = some run ∧
      ∃ queue', run.after.queues.lookup "atom" = some queue' ∧
        queue'.waitingAt = run.queue.waitingAt := by
  have hreads : (sampleClaim sampleEmptied 50 "bob" 3).map (fun run =>
      run.bids.all fun bid => bid.waitEnd.all fun waitEnd => 50 < waitEnd) = some true := by
    decide +kernel
  obtain ⟨run, hrun, hwait⟩ := Option.map_eq_some_iff.mp hreads
  obtain ⟨hcalls, hqueue, hbids, hclaim⟩ := sampleClaim_eq hrun
  have hsteps : RunWhere Steps (fun _ _ => True) sampleStart run.state :=
    execAll_run (fun _ _ _ h => h) (fun _ _ _ => trivial) hcalls
  have hstill : StillWait 50 run.bids := by
    intro bid hbid waitEnd hwaitEnd
    have hone := List.all_eq_true.mp hwait bid hbid
    simpa [hwaitEnd] using hone
  obtain ⟨queue', claimed, hs', -, hsame, -⟩ :=
    claim_keeps_waiting sampleStart_fresh hsteps hqueue hbids hstill hclaim
  refine ⟨run, hrun, queue', ?_, hsame⟩
  rw [hs']
  exact AList.lookup_insert _

/-- A claim does not leave every waiting bid: one whose slot was emptied while it waited is
    removed once its wait is over, with all that it was sent for. -/
theorem claim_not_keeps_waiting :
    ¬ ∀ (start s s' : State) env info (bidFor : AssetInfo) bidIds response queue queue'
        (bid : Bid) premium,
      Fresh start → RunWhere Steps (fun _ _ => True) start s →
      s.queues.lookup bidFor.toText = some queue →
      claimLiquidations env info bidFor bidIds s = .ok (s', response) →
      s'.queues.lookup bidFor.toText = some queue' →
      (∃ bids, queue.waitingAt premium = some bids ∧ bid ∈ bids) →
      ∃ bids, queue'.waitingAt premium = some bids ∧
        ∃ kept ∈ bids, kept.id = bid.id ∧ kept.user = bid.user ∧ kept.amount = bid.amount := by
  intro claim
  have hreads : (sampleClaim sampleEmptied 62 "bob" 3).map (fun run =>
      ((run.queue.waitingAt 3).map fun bids => bids.map fun bid => (bid.id, bid.amount),
        (run.after.queues.lookup "atom").map fun queue => queue.waitingAt 3)) =
      some (some [(3, 400000)], some (some [])) := by decide +kernel
  obtain ⟨run, hrun, hread⟩ := Option.map_eq_some_iff.mp hreads
  obtain ⟨hcalls, hqueue, -, hclaim⟩ := sampleClaim_eq hrun
  have hsteps : RunWhere Steps (fun _ _ => True) sampleStart run.state :=
    execAll_run (fun _ _ _ h => h) (fun _ _ _ => trivial) hcalls
  simp only [Prod.mk.injEq] at hread
  obtain ⟨queue', hqueue', hafter⟩ := Option.map_eq_some_iff.mp hread.2
  obtain ⟨bids, hbids, hids⟩ := Option.map_eq_some_iff.mp hread.1
  obtain ⟨bid, rest, rfl⟩ : ∃ bid rest, bids = bid :: rest := by
    cases bids with
    | nil => cases hids
    | cons bid rest => exact ⟨bid, rest, rfl⟩
  obtain ⟨kept, hkept, other, hother, -⟩ := claim sampleStart run.state run.after _ _ _ _ _
    run.queue queue' bid 3 sampleStart_fresh hsteps hqueue hclaim hqueue'
    ⟨_, hbids, List.mem_cons_self⟩
  rw [hafter] at hkept
  obtain rfl := Option.some.inj hkept
  cases hother

end Membrane.LiqQueue
