import Membrane.Launch.Proofs.Incentives

/-!
# What the lockdrop pays

The tickets are counted at the first claim, when no deposit moves any more. From then on a
user's share of the incentives is fixed, what is unlocked of it grows with the time, and a
claim mints what is unlocked and was not minted before.
-/

namespace Membrane.Launch

open Outcome

/-! ## Unlocking -/

def Lock.unlockedTickets (lock : Lock) (time : Nat) : Nat :=
  if lock.lockUpDuration * secondsPerDay < time then lock.ticketCount
  else lock.ticketCount * (time * Decimal.fractional / (lock.lockUpDuration * secondsPerDay)) /
    Decimal.fractional

def LockedUser.unlockedTickets (lockedUser : LockedUser) (time : Nat) : Nat :=
  (lockedUser.deposits.map (·.unlockedTickets time)).sum

theorem unlockedTickets_le (lock : Lock) (time : Nat) :
    lock.unlockedTickets time ≤ lock.ticketCount := by
  unfold Lock.unlockedTickets
  split
  case isTrue => exact Nat.le_refl _
  case isFalse hpart =>
    have hratio : time * Decimal.fractional / (lock.lockUpDuration * secondsPerDay) ≤
        Decimal.fractional :=
      Nat.div_le_of_le_mul (Nat.mul_le_mul_right _ (Nat.le_of_not_lt hpart))
    refine Nat.div_le_of_le_mul ?_
    rw [Nat.mul_comm Decimal.fractional]
    exact Nat.mul_le_mul_left _ hratio

theorem unlockedTickets_mono (lock : Lock) {time later : Nat} (le : time ≤ later) :
    lock.unlockedTickets time ≤ lock.unlockedTickets later := by
  by_cases hwhole : lock.lockUpDuration * secondsPerDay < later
  · calc lock.unlockedTickets time
        ≤ lock.ticketCount := unlockedTickets_le lock time
      _ = lock.unlockedTickets later := (if_pos hwhole).symm
  · have hpart : ¬ lock.lockUpDuration * secondsPerDay < time := by omega
    rw [Lock.unlockedTickets, Lock.unlockedTickets, if_neg hpart, if_neg hwhole]
    apply Nat.div_le_div_right
    apply Nat.mul_le_mul_left
    apply Nat.div_le_div_right
    exact Nat.mul_le_mul_right _ le

theorem LockedUser.unlockedTickets_le (lockedUser : LockedUser) (time : Nat) :
    lockedUser.unlockedTickets time ≤ lockedUser.ticketCount :=
  (sum_map_le fun lock _ => Launch.unlockedTickets_le lock time).1

theorem LockedUser.unlockedTickets_mono (lockedUser : LockedUser) {time later : Nat}
    (le : time ≤ later) : lockedUser.unlockedTickets time ≤ lockedUser.unlockedTickets later :=
  (sum_map_le fun lock _ => Launch.unlockedTickets_mono lock le).1

theorem withdrawableTickets_eq {lock : Lock} {time tickets : Nat}
    (done : lock.withdrawableTickets time = .ok tickets) : tickets = lock.unlockedTickets time := by
  simp only [Lock.withdrawableTickets, bind_eq_ok, Uint64.mul_eq_ok] at done
  obtain ⟨_, ⟨-, rfl⟩, done⟩ := done
  unfold Lock.unlockedTickets
  split at done
  case isTrue hwhole =>
    rw [if_pos hwhole]
    exact tickets_eq done
  case isFalse hpart =>
    simp only [bind_eq_ok] at done
    obtain ⟨_, hpassed, _, hall, ratio, hratio, _, htickets, hmul⟩ := done
    rw [Decimal.fromRatio_one hpassed, Decimal.fromRatio_one hall] at hratio
    obtain ⟨-, rfl⟩ := decimalDivision_whole hratio
    rw [if_neg hpart, Decimal.mulUint_eq_ok hmul, tickets_eq htickets]

theorem withdrawableTickets_fold {deposits : List Lock} {time start tickets : Nat}
    (done : deposits.foldlM (fun total lock => do
      Uint128.add total (← lock.withdrawableTickets time)) start =
        (.ok tickets : Outcome StdError Nat)) :
    tickets = start + (deposits.map (·.unlockedTickets time)).sum := by
  induction deposits generalizing start with
  | nil =>
    obtain rfl := pure_eq_ok.mp done
    rfl
  | cons lock rest ih =>
    simp only [List.foldlM_cons, bind_eq_ok, Uint128.add_eq_ok] at done
    obtain ⟨_, ⟨_, hlock, -, rfl⟩, hrest⟩ := done
    rw [ih hrest, withdrawableTickets_eq hlock, List.map_cons, List.sum_cons, Nat.add_assoc]

theorem unlockedIncentives_eq {lockedUser : LockedUser} {incentives time unlocked : Nat}
    (done : unlockedIncentives lockedUser incentives time = .ok unlocked) :
    unlocked = incentives *
      (lockedUser.unlockedTickets time * Decimal.fractional / lockedUser.totalTickets) /
        Decimal.fractional := by
  simp only [unlockedIncentives, bind_eq_ok] at done
  obtain ⟨tickets, htickets, _, hpart, _, hwhole, ratio, hratio, hmul⟩ := done
  rw [Decimal.fromRatio_one hpart, Decimal.fromRatio_one hwhole] at hratio
  obtain ⟨-, rfl⟩ := decimalDivision_whole hratio
  rw [Decimal.mulUint_eq_ok hmul, withdrawableTickets_fold htickets, Nat.zero_add]
  rfl

theorem unlockedIncentives_le {lockedUser : LockedUser} {incentives time unlocked : Nat}
    (counted : lockedUser.totalTickets = lockedUser.ticketCount)
    (done : unlockedIncentives lockedUser incentives time = .ok unlocked) :
    unlocked ≤ incentives := by
  rw [unlockedIncentives_eq done]
  have hratio : lockedUser.unlockedTickets time * Decimal.fractional / lockedUser.totalTickets ≤
      Decimal.fractional := by
    refine Nat.div_le_of_le_mul (Nat.mul_le_mul_right _ ?_)
    rw [counted]
    exact lockedUser.unlockedTickets_le time
  refine Nat.div_le_of_le_mul ?_
  rw [Nat.mul_comm Decimal.fractional]
  exact Nat.mul_le_mul_left _ hratio

theorem unlockedIncentives_mono {lockedUser : LockedUser}
    {incentives time later unlocked unlocked' : Nat}
    (le : time ≤ later) (done : unlockedIncentives lockedUser incentives time = .ok unlocked)
    (done' : unlockedIncentives lockedUser incentives later = .ok unlocked') :
    unlocked ≤ unlocked' := by
  rw [unlockedIncentives_eq done, unlockedIncentives_eq done']
  apply Nat.div_le_div_right
  apply Nat.mul_le_mul_left
  apply Nat.div_le_div_right
  exact Nat.mul_le_mul_right _ (lockedUser.unlockedTickets_mono le)

section

variable {s s' mid : State} {user : Addr} {time later : Nat}

structure Unlocked (s : State) (user : Addr) (time : Nat) (mid : State) (lockedUser : LockedUser)
    (incentives unlocked : Nat) : Prop where
  ended : s.lockdrop.withdrawalEnd < time
  distributed : distribute s = .ok mid
  share : getUserIncentives mid.incentiveRatios user mid.lockdrop.numOfIncentives = .ok incentives
  stored : mid.lockedUsers.lookup user = some lockedUser
  unlocks : unlockedIncentives lockedUser incentives (time - mid.lockdrop.withdrawalEnd) =
    .ok unlocked

theorem unlock_spec {lockedUser : LockedUser} {incentives unlocked : Nat}
    (done : unlock time user s = .ok (mid, lockedUser, incentives, unlocked)) :
    Unlocked s user time mid lockedUser incentives unlocked := by
  simp only [unlock, bind_eq_ok, guardErr_eq_ok, liftStd_eq_ok, ofOption_eq_ok, subUint_eq_ok,
    pure_eq_ok, Prod.mk.injEq] at done
  obtain ⟨_, hended, mid, hmid, incentives, hshare, lockedUser, hstored, _, ⟨-, rfl⟩, unlocked,
    hunlocks, rfl, rfl, rfl, rfl⟩ := done
  exact ⟨Nat.lt_of_not_le hended, hmid, hshare, hstored, hunlocks⟩

theorem distribute_lockdrop (done : distribute s = .ok mid) : mid.lockdrop = s.lockdrop := by
  unfold distribute at done
  split at done
  case isTrue =>
    simp only [bind_eq_ok, pure_eq_ok] at done
    obtain ⟨_, -, rfl⟩ := done
    rfl
  case isFalse =>
    obtain rfl := pure_eq_ok.mp done
    rfl

theorem unlockedAt_iff {unlocked : Nat} : s.unlockedAt user time = .ok unlocked ↔
    ∃ mid lockedUser incentives, Unlocked s user time mid lockedUser incentives unlocked := by
  simp only [State.unlockedAt, bind_eq_ok, pure_eq_ok]
  constructor
  · rintro ⟨⟨mid, lockedUser, incentives, _⟩, hunlock, rfl⟩
    exact ⟨mid, lockedUser, incentives, unlock_spec hunlock⟩
  · rintro ⟨mid, lockedUser, incentives, h⟩
    refine ⟨(mid, lockedUser, incentives, unlocked), ?_, rfl⟩
    have hended := h.ended
    have hends : mid.lockdrop.withdrawalEnd ≤ time := by
      rw [distribute_lockdrop h.distributed]
      exact Nat.le_of_lt hended
    simp only [unlock, bind_eq_ok, guardErr_eq_ok, liftStd_eq_ok, ofOption_eq_ok, subUint_eq_ok,
      pure_eq_ok]
    exact ⟨⟨⟩, Nat.not_le_of_lt hended, mid, h.distributed, incentives, h.share,
      lockedUser, h.stored,
      _, ⟨hends, rfl⟩, unlocked, h.unlocks, rfl⟩

theorem unlockedAt_mono {unlocked unlocked' : Nat} (le : time ≤ later)
    (done : s.unlockedAt user time = .ok unlocked)
    (done' : s.unlockedAt user later = .ok unlocked') : unlocked ≤ unlocked' := by
  obtain ⟨mid, lockedUser, incentives, h⟩ := unlockedAt_iff.mp done
  obtain ⟨mid', lockedUser', incentives', h'⟩ := unlockedAt_iff.mp done'
  obtain rfl := Except.ok.inj (h.distributed.symm.trans h'.distributed)
  obtain rfl := Except.ok.inj (h.share.symm.trans h'.share)
  obtain rfl := Option.some.inj (h.stored.symm.trans h'.stored)
  exact unlockedIncentives_mono (Nat.sub_le_sub_right le _) h.unlocks h'.unlocks

end

/-! ## Runs -/

/-- The tickets are counted, and the ratios add up to at most one. -/
structure Counted (s : State) : Prop where
  within : (s.incentiveRatios.map (·.ratio.atomics)).sum ≤ Decimal.fractional
  tickets : KeyMap.All (fun _ user => user.totalTickets = user.ticketCount) s.lockedUsers

/-- What holds of the lockdrop in every run. -/
structure Sound (w : World) : Prop where
  ends : w.state.lockdrop.depositEnd ≤ w.state.lockdrop.withdrawalEnd
  named : KeyMap.All (fun key user => user.user = key) w.state.lockedUsers
  ledger : ∀ user, w.state.locked user + w.withdrawn user = w.deposited user
  counted : ∀ user, w.minted user =
    KeyMap.measureAt LockedUser.incentivesWithdrawn w.state.lockedUsers user
  paid : ∀ user, w.minted user ≤ w.state.share user
  /-- Where the ratios are computed, the lockdrop is over. -/
  phase : w.state.incentiveRatios = [] ∨
    (w.state.lockdrop.withdrawalEnd < w.now ∧ Counted w.state)

theorem new_sound {addrValid : String → Bool} {env : Env} {msg : InstantiateMsg} {s : State}
    (done : instantiate addrValid env msg = .ok s) : Sound (World.new s env.blockTime) := by
  simp only [instantiate, bind_eq_ok, Uint64.add_eq_ok, pure_eq_ok] at done
  obtain ⟨_, -, _, -, _, ⟨-, rfl⟩, _, ⟨-, rfl⟩, rfl⟩ := done
  constructor
  · exact Nat.add_le_add_left (by decide) _
  · exact KeyMap.all_empty
  · intro user
    rfl
  · intro user
    rfl
  · intro user
    exact Nat.zero_le _
  · exact .inl rfl

section

variable {w w' : World} {event : Event} {env : Env} {info : MessageInfo} {msg : ExecuteMsg}
  {s' : State} {response : Response OutMsg}

theorem Sound.kept (sound : Sound w) (inOrder : w.now ≤ w'.now)
    (users : w'.state.lockedUsers = w.state.lockedUsers)
    (ratios : w'.state.incentiveRatios = w.state.incentiveRatios)
    (lockdrop : ∃ launched, w'.state.lockdrop = { w.state.lockdrop with launched := launched })
    (deposited : ∀ user, w'.deposited user = w.deposited user)
    (withdrawn : ∀ user, w'.withdrawn user = w.withdrawn user)
    (minted : ∀ user, w'.minted user = w.minted user) : Sound w' := by
  obtain ⟨launched, hlockdrop⟩ := lockdrop
  constructor
  · rw [hlockdrop]
    exact sound.ends
  · rw [users]
    exact sound.named
  · intro user
    rw [State.locked, users, withdrawn, deposited]
    exact sound.ledger user
  · intro user
    rw [minted, users]
    exact sound.counted user
  · intro user
    rw [minted, State.share, ratios, hlockdrop]
    exact sound.paid user
  · rw [ratios, hlockdrop]
    rcases sound.phase with hempty | ⟨hended, hcounted⟩
    · exact .inl hempty
    · refine .inr ⟨Nat.lt_of_lt_of_le hended inOrder, ?_, ?_⟩
      · rw [ratios]
        exact hcounted.within
      · rw [users]
        exact hcounted.tickets

theorem Sound.moved (sound : Sound w) (inOrder : w.now ≤ env.blockTime) {added taken : Nat}
    (moved : Moved env info.sender w.state s' added taken)
    (locks : lockedFunds info msg = added)
    (sends : ∀ user, (response.messages.map (sentTo user)).sum =
      if user = info.sender then taken else 0)
    (unminted : (response.messages.map mintedBy).sum = 0) :
    Sound (w.record env info msg s' response) := by
  obtain ⟨lockedUser, rfl, hname, hlocked, hwithdrawn⟩ := moved.written
  have hminted : ∀ user, (w.record env info msg
      { w.state with lockedUsers := w.state.lockedUsers.insert info.sender lockedUser }
      response).minted user = w.minted user := by
    intro user
    simp [World.record, unminted]
  constructor
  · exact sound.ends
  · exact KeyMap.all_insert sound.named (hname sound.named)
  · intro user
    have hledger := sound.ledger user
    simp only [World.record, State.locked, KeyMap.measureAt_insert, sends, locks]
    by_cases hsender : user = info.sender
    · subst hsender
      simp only [if_true]
      rw [State.locked] at hlocked hledger
      omega
    · rw [State.locked] at hledger
      simpa only [if_neg hsender, Nat.add_zero] using hledger
  · intro user
    rw [hminted, sound.counted]
    simp only [World.record, KeyMap.measureAt_insert]
    split
    case isTrue hsender => rw [hsender, hwithdrawn]
    case isFalse => rfl
  · intro user
    rw [hminted]
    exact sound.paid user
  · rcases sound.phase with hempty | ⟨hended, -⟩
    · exact .inl hempty
    · -- no deposit moves when the lockdrop is over
      have hends := sound.ends
      have hearly := moved.early
      omega

theorem Sound.distribute (sound : Sound w) {time : Nat} {mid : State}
    (ended : w.state.lockdrop.withdrawalEnd < time) (done : distribute w.state = .ok mid) :
    Sound { w with state := mid, now := time } ∧ Counted mid ∧ mid.lockdrop = w.state.lockdrop := by
  unfold Launch.distribute at done
  split at done
  case isTrue hempty =>
    simp only [bind_eq_ok, pure_eq_ok] at done
    obtain ⟨⟨users, ratios⟩, hcalc, rfl⟩ := done
    obtain ⟨hlookup, hwithin⟩ := calcTicketDistribution_spec sound.named hcalc
    have hmeasure : ∀ (measure : LockedUser → Nat), (∀ user, measure user.counted = measure user) →
        ∀ key, KeyMap.measureAt measure users key =
          KeyMap.measureAt measure w.state.lockedUsers key := by
      intro measure hsame key
      rw [KeyMap.measureAt, hlookup, KeyMap.measureAt]
      cases w.state.lockedUsers.lookup key with
      | none => rfl
      | some user => exact hsame user
    have hcounted : Counted { w.state with lockedUsers := users, incentiveRatios := ratios } := by
      refine ⟨hwithin, fun key user huser => ?_⟩
      rw [hlookup] at huser
      obtain ⟨stored, -, rfl⟩ := Option.map_eq_some_iff.mp huser
      rfl
    refine ⟨?_, hcounted, rfl⟩
    constructor
    · exact sound.ends
    · intro key user huser
      rw [hlookup] at huser
      obtain ⟨stored, hstored, rfl⟩ := Option.map_eq_some_iff.mp huser
      exact sound.named key stored hstored
    · intro user
      rw [State.locked, hmeasure _ fun _ => rfl]
      exact sound.ledger user
    · intro user
      rw [hmeasure _ fun _ => rfl]
      exact sound.counted user
    · intro user
      have hpaid := sound.paid user
      have hnone : w.state.share user = 0 := by
        rw [State.share, hempty]
        rfl
      rw [hnone] at hpaid
      exact Nat.le_trans hpaid (Nat.zero_le _)
    · exact .inr ⟨ended, hcounted⟩
  case isFalse hcomputed =>
    obtain rfl := pure_eq_ok.mp done
    obtain ⟨-, hcounted⟩ := sound.phase.resolve_left hcomputed
    exact ⟨⟨sound.ends, sound.named, sound.ledger, sound.counted, sound.paid,
      .inr ⟨ended, hcounted⟩⟩,
      hcounted, rfl⟩

/-- What a claim does: it mints what is unlocked and was not minted before. -/
structure Claimed (time : Nat) (sender : Addr) (s s' : State) (response : Response OutMsg)
    (mid : State) (lockedUser : LockedUser) (incentives unlocked : Nat) : Prop where
  start : Unlocked s sender time mid lockedUser incentives unlocked
  written : s' = { mid with lockedUsers := mid.lockedUsers.insert sender { lockedUser with
    incentivesWithdrawn :=
      lockedUser.incentivesWithdrawn + (unlocked - lockedUser.incentivesWithdrawn) } }
  mints : (response.messages.map mintedBy).sum = unlocked - lockedUser.incentivesWithdrawn
  sends : ∀ user, (response.messages.map (sentTo user)).sum = 0

theorem claim_spec {s : State} (done : claim env info s = .ok (s', response)) :
    ∃ mid lockedUser incentives unlocked,
      Claimed env.blockTime info.sender s s' response mid lockedUser incentives unlocked := by
  simp only [claim, bind_eq_ok, Uint128.add_eq_ok, pure_eq_ok, Prod.mk.injEq] at done
  obtain ⟨⟨mid, lockedUser, incentives, unlocked⟩, hunlock, _, -, _, ⟨-, rfl⟩, _, -, rfl, rfl⟩ :=
    done
  refine ⟨mid, lockedUser, incentives, unlocked, unlock_spec hunlock, rfl, ?_, fun user => ?_⟩
  · simp [Response.addMessages, SubMsg.new, mintedBy]
  · simp [Response.addMessages, SubMsg.new, sentTo]

theorem Sound.claimed (sound : Sound w) {mid : State} {lockedUser : LockedUser}
    {incentives unlocked : Nat} (claimed : Claimed env.blockTime info.sender w.state s' response mid
      lockedUser incentives unlocked) : Sound (w.record env info .claim s' response) := by
  obtain ⟨hmid, hcounted, hlockdrop⟩ :=
    sound.distribute claimed.start.ended claimed.start.distributed
  have hstored := claimed.start.stored
  have htickets : lockedUser.totalTickets = lockedUser.ticketCount :=
    hcounted.tickets info.sender lockedUser hstored
  obtain rfl := claimed.written
  have hminted : ∀ user, (w.record env info .claim { mid with
      lockedUsers := mid.lockedUsers.insert info.sender { lockedUser with
        incentivesWithdrawn :=
          lockedUser.incentivesWithdrawn + (unlocked - lockedUser.incentivesWithdrawn) } }
      response).minted user = w.minted user +
        if user = info.sender then unlocked - lockedUser.incentivesWithdrawn else 0 := by
    intro user
    simp only [World.record, claimed.mints]
  have hsender : w.minted info.sender = lockedUser.incentivesWithdrawn := by
    rw [hmid.counted info.sender, KeyMap.measureAt_of_lookup hstored]
  have hcounted' : Counted { mid with
      lockedUsers := mid.lockedUsers.insert info.sender { lockedUser with
        incentivesWithdrawn :=
          lockedUser.incentivesWithdrawn + (unlocked - lockedUser.incentivesWithdrawn) } } :=
    ⟨hcounted.within, KeyMap.all_insert hcounted.tickets htickets⟩
  constructor
  · exact hmid.ends
  · exact KeyMap.all_insert hmid.named (hmid.named info.sender lockedUser hstored)
  · intro user
    have hledger := hmid.ledger user
    simp only [World.record, State.locked, KeyMap.measureAt_insert, claimed.sends, lockedFunds,
      ite_self, Nat.add_zero] at hledger ⊢
    split
    case isTrue hsame =>
      rw [hsame, KeyMap.measureAt_of_lookup hstored] at hledger
      rw [hsame]
      exact hledger
    case isFalse => exact hledger
  · intro user
    rw [hminted]
    simp only [World.record, KeyMap.measureAt_insert]
    split
    case isTrue hsame => rw [hsame, hsender]
    case isFalse => exact hmid.counted user
  · intro user
    rw [hminted]
    have hpaid : w.minted user ≤ mid.share user := hmid.paid user
    show _ ≤ mid.share user
    split
    case isTrue hsame =>
      subst hsame
      have hle : unlocked ≤ incentives := unlockedIncentives_le htickets claimed.start.unlocks
      have hshare : mid.share info.sender = incentives := by
        rw [State.share, claimed.start.share]
        rfl
      omega
    case isFalse => exact hpaid
  · refine .inr ⟨?_, hcounted'⟩
    show mid.lockdrop.withdrawalEnd < env.blockTime
    rw [hlockdrop]
    exact claimed.start.ended

theorem step_sound (sound : Sound w) (inOrder : InOrder w event) (step : eventStep w event w') :
    Sound w' := by
  unfold eventStep World.exec at step
  cases event with
  | elsewhere env config addresses launched =>
    obtain rfl := Option.some.inj step
    exact sound.kept inOrder rfl rfl ⟨launched, rfl⟩ (fun _ => rfl) (fun _ => rfl) fun _ => rfl
  | call env info msg =>
    dsimp only at step
    split at step
    case h_2 => cases step
    case h_1 s' response hexecute =>
      obtain rfl := Option.some.inj step
      cases msg with
      | lock lockUpDuration =>
        obtain ⟨hmoved, hmessages⟩ := lock_spec hexecute
        refine sound.moved inOrder hmoved rfl (fun user => ?_) ?_
        · simp [hmessages]
        · simp [hmessages]
      | changeLockDuration uosmoAmount oldLockUpDuration newLockUpDuration =>
        obtain ⟨hmoved, hmessages⟩ := changeLockupDuration_spec hexecute
        refine sound.moved inOrder hmoved rfl (fun user => ?_) ?_
        · simp [hmessages]
        · simp [hmessages]
      | withdraw withdrawalAmount lockUpDuration =>
        obtain ⟨hmoved, denom, hmessages⟩ := withdraw_spec hexecute
        refine sound.moved inOrder hmoved rfl (fun user => ?_) ?_
        · simp [hmessages, sentTo, SubMsg.new, eq_comm]
        · simp [hmessages, mintedBy, SubMsg.new]
      | claim =>
        obtain ⟨mid, lockedUser, incentives, unlocked, hclaimed⟩ := claim_spec hexecute
        exact sound.claimed hclaimed
      | updateConfig update =>
        simp only [execute, updateConfig, bind_eq_ok, pure_eq_ok, Prod.mk.injEq] at hexecute
        obtain ⟨_, -, rfl, rfl⟩ := hexecute
        refine sound.kept inOrder rfl rfl ⟨w.state.lockdrop.launched, rfl⟩ (fun user => ?_)
          (fun user => ?_) fun user => ?_
        · simp [World.record, lockedFunds]
        · simp [World.record]
        · simp [World.record]

end

/-! ## What is unlocked in a run -/

def Kept (w w' : World) : Prop :=
  ∀ user time unlocked, w'.state.unlockedAt user time = .ok unlocked →
    w.state.unlockedAt user time = .ok unlocked

section

variable {w w' : World} {event : Event} {s s' : State} {user : Addr} {time unlocked : Nat}

theorem unlockedAt_kept (users : s'.lockedUsers = s.lockedUsers)
    (ratios : s'.incentiveRatios = s.incentiveRatios)
    (lockdrop : ∃ launched, s'.lockdrop = { s.lockdrop with launched := launched })
    (done : s'.unlockedAt user time = .ok unlocked) : s.unlockedAt user time = .ok unlocked := by
  obtain ⟨launched, hlockdrop⟩ := lockdrop
  obtain ⟨mid', lockedUser, incentives, h⟩ := unlockedAt_iff.mp done
  have hended := h.ended
  have hshare := h.share
  have hunlocks := h.unlocks
  rw [hlockdrop] at hended
  rw [distribute_lockdrop h.distributed, hlockdrop] at hshare hunlocks
  have hdistributed := h.distributed
  unfold distribute at hdistributed
  rw [ratios] at hdistributed
  split at hdistributed
  case isTrue hempty =>
    simp only [bind_eq_ok, pure_eq_ok] at hdistributed
    obtain ⟨⟨counted, computed⟩, hcalc, rfl⟩ := hdistributed
    rw [users] at hcalc
    refine unlockedAt_iff.mpr ⟨{ s with lockedUsers := counted, incentiveRatios := computed },
      lockedUser, incentives, hended, ?_, hshare, h.stored, hunlocks⟩
    unfold distribute
    rw [if_pos hempty, bind_eq_ok]
    exact ⟨_, hcalc, rfl⟩
  case isFalse hcomputed =>
    obtain rfl := pure_eq_ok.mp hdistributed
    have hstored := h.stored
    rw [ratios] at hshare
    rw [users] at hstored
    refine unlockedAt_iff.mpr ⟨s, lockedUser, incentives, hended, ?_, hshare, hstored, hunlocks⟩
    unfold distribute
    rw [if_neg hcomputed]
    rfl

theorem Claimed.kept {sender : Addr} {response : Response OutMsg} {mid : State}
    {lockedUser : LockedUser} {incentives unlocked' : Nat}
    (claimed : Claimed time sender s s' response mid lockedUser incentives unlocked) {later : Nat}
    (done : s'.unlockedAt user later = .ok unlocked') :
    s.unlockedAt user later = .ok unlocked' := by
  obtain ⟨mid', lockedUser', incentives', h⟩ := unlockedAt_iff.mp done
  have hcomputed : mid.incentiveRatios ≠ [] := by
    intro hempty
    obtain ⟨userRatio, hfound, -⟩ := getUserIncentives_eq claimed.start.share
    rw [hempty] at hfound
    cases hfound
  have hended := h.ended
  have hdistributed := h.distributed
  rw [claimed.written] at hended hdistributed
  unfold distribute at hdistributed
  rw [if_neg hcomputed] at hdistributed
  obtain rfl := pure_eq_ok.mp hdistributed
  have hends : mid.lockdrop = s.lockdrop := distribute_lockdrop claimed.start.distributed
  rw [hends] at hended
  have hstored := h.stored
  dsimp only at hstored
  by_cases hsame : user = sender
  · subst hsame
    rw [AList.lookup_insert] at hstored
    obtain rfl := Option.some.inj hstored
    exact unlockedAt_iff.mpr ⟨mid, lockedUser, incentives', hended,
      claimed.start.distributed, h.share,
      claimed.start.stored, h.unlocks⟩
  · rw [AList.lookup_insert_ne hsame] at hstored
    exact unlockedAt_iff.mpr ⟨mid, lockedUser', incentives', hended,
      claimed.start.distributed, h.share,
      hstored, h.unlocks⟩

theorem step_kept (sound : Sound w) (ended : w.state.lockdrop.withdrawalEnd < w.now)
    (inOrder : InOrder w event) (step : eventStep w event w') :
    Kept w w' ∧ w'.state.lockdrop.withdrawalEnd = w.state.lockdrop.withdrawalEnd ∧
      w.now ≤ w'.now := by
  unfold eventStep World.exec at step
  cases event with
  | elsewhere env config addresses launched =>
    obtain rfl := Option.some.inj step
    refine ⟨fun user time unlocked done => ?_, rfl, inOrder⟩
    refine unlockedAt_kept ?_ ?_ ⟨launched, ?_⟩ done
    · rfl
    · rfl
    · rfl
  | call env info msg =>
    dsimp only at step
    split at step
    case h_2 => cases step
    case h_1 s' response hexecute =>
      obtain rfl := Option.some.inj step
      have hlate : ¬ (env.blockTime ≤ w.state.lockdrop.depositEnd ∨
          env.blockTime ≤ w.state.lockdrop.withdrawalEnd) := by
        have hends := sound.ends
        have htime : w.now ≤ env.blockTime := inOrder
        omega
      cases msg with
      | lock lockUpDuration => exact absurd (lock_spec hexecute).1.early hlate
      | changeLockDuration uosmoAmount oldLockUpDuration newLockUpDuration =>
        exact absurd (changeLockupDuration_spec hexecute).1.early hlate
      | withdraw withdrawalAmount lockUpDuration =>
        exact absurd (withdraw_spec hexecute).1.early hlate
      | claim =>
        obtain ⟨mid, lockedUser, incentives, unlocked, hclaimed⟩ := claim_spec hexecute
        refine ⟨fun user time unlocked' done => hclaimed.kept done, ?_, inOrder⟩
        show s'.lockdrop.withdrawalEnd = _
        have hlockdrop : mid.lockdrop = w.state.lockdrop :=
          distribute_lockdrop hclaimed.start.distributed
        rw [hclaimed.written, ← hlockdrop]
      | updateConfig update =>
        simp only [execute, updateConfig, bind_eq_ok, pure_eq_ok, Prod.mk.injEq] at hexecute
        obtain ⟨_, -, rfl, rfl⟩ := hexecute
        refine ⟨fun user time unlocked done => ?_, rfl, inOrder⟩
        refine unlockedAt_kept ?_ ?_ ⟨w.state.lockdrop.launched, ?_⟩ done
        · rfl
        · rfl
        · rfl

theorem run_sound (sound : Sound w) (run : RunWhere eventStep InOrder w w') : Sound w' :=
  run.keeps (fun _ _ _ hsound hallowed hstep => step_sound hsound hallowed hstep) sound

theorem run_kept (sound : Sound w) (ended : w.state.lockdrop.withdrawalEnd < w.now)
    (run : RunWhere eventStep InOrder w w') : Kept w w' := by
  have hinv : Sound w' ∧ w'.state.lockdrop.withdrawalEnd < w'.now ∧ Kept w w' := by
    apply run.keeps
    · rintro mid event next ⟨hsound, hended, hkept⟩ hallowed hstep
      obtain ⟨hnext, hends, hle⟩ := step_kept hsound hended hallowed hstep
      refine ⟨step_sound hsound hallowed hstep, ?_, ?_⟩
      · rw [hends]
        exact Nat.lt_of_lt_of_le hended hle
      · exact fun user time unlocked done => hkept _ _ _ (hnext _ _ _ done)
    · exact ⟨sound, ended, fun _ _ _ done => done⟩
  exact hinv.2.2

end

/-- In every run each user is minted at most its share of the incentives, the shares of any
    users add up to at most all incentives, and a user's deposits are what it locked less what
    was sent back. Once the lockdrop is over, what is unlocked of a user's share does not
    fall, however the run goes on. -/
theorem incentives_bounded {addrValid : String → Bool} {env : Env} {msg : InstantiateMsg}
    {s : State}
    {w : World} (created : instantiate addrValid env msg = .ok s)
    (run : RunWhere eventStep InOrder (World.new s env.blockTime) w) :
    (∀ user, w.minted user ≤ w.state.share user) ∧
    (∀ users : List Addr, users.Nodup →
      (users.map w.state.share).sum ≤ w.state.lockdrop.numOfIncentives) ∧
    (∀ w', RunWhere eventStep InOrder w w' →
      w' = w ∨ w.state.lockdrop.withdrawalEnd < w.now → ∀ user time later unlocked unlocked',
        time ≤ later → w.state.unlockedAt user time = .ok unlocked →
        w'.state.unlockedAt user later = .ok unlocked' → unlocked ≤ unlocked') ∧
    ∀ user, w.state.locked user + w.withdrawn user = w.deposited user := by
  have hsound : Sound w := run_sound (new_sound created) run
  refine ⟨hsound.paid, ?_, ?_, hsound.ledger⟩
  · intro users hdistinct
    refine sum_getUserIncentives_le _ hdistinct ?_
    rcases hsound.phase with hempty | ⟨-, hcounted⟩
    · rw [hempty]
      exact Nat.zero_le _
    · exact hcounted.within
  · intro w' hrun hended user time later unlocked unlocked' hle hunlocked hunlocked'
    rcases hended with rfl | hended
    · exact unlockedAt_mono hle hunlocked hunlocked'
    · exact unlockedAt_mono hle hunlocked (run_kept hsound hended hrun _ _ _ hunlocked')

/-! ## A sample lockdrop -/

instance (w : World) (event : Event) : Decidable (InOrder w event) :=
  inferInstanceAs (Decidable (w.now ≤ event.time))

def sampleLock (time : Nat) (user : Addr) (amount : Nat) (positive : 0 < amount)
    (lockUpDuration : Nat) : Event :=
  .call ⟨time, "launch"⟩ (.oneCoin user ⟨"uosmo", amount⟩ positive) (.lock lockUpDuration)

theorem three_osmo_positive : 0 < 3000000 := by decide

theorem two_osmo_positive : 0 < 2000000 := by decide

/-- Two users lock OSMO, one takes a part of it back, and the other claims after a day. -/
def sampleEvents : List Event := [
  sampleLock 10 "alice" 3000000 three_osmo_positive 1,
  sampleLock 20 "bob" 2000000 two_osmo_positive 2,
  .call ⟨500000, "launch"⟩ (.noFunds "bob") (.withdraw 1000000 2),
  .call ⟨691201, "launch"⟩ (.noFunds "alice") .claim]

def sampleRun : Option (State × World) := do
  let s ← (instantiate (fun _ => true) ⟨0, "launch"⟩ ⟨"contributors", "router"⟩).toOption
  let w ← execAll (execWhere World.exec InOrder) sampleEvents (World.new s 0)
  pure (s, w)

/-- Two of three tickets claim two thirds of the incentives. -/
theorem incentives_bounded_twoUsers : ∃ s w, sampleRun = some (s, w) ∧
    w.minted "alice" = 6666666666666 ∧ w.state.share "alice" = 6666666666666 ∧
    w.withdrawn "bob" = 1000000 ∧ w.minted "alice" ≤ w.state.share "alice" ∧
    w.state.locked "bob" + w.withdrawn "bob" = w.deposited "bob" := by
  have hreads : sampleRun.any (fun run => decide (run.2.minted "alice" = 6666666666666 ∧
      run.2.state.share "alice" = 6666666666666 ∧ run.2.withdrawn "bob" = 1000000)) = true := by
    decide +kernel
  obtain ⟨⟨s, w⟩, hrun, hreads⟩ := (Option.any_eq_true _ _).mp hreads
  obtain ⟨hminted, hshare, hwithdrawn⟩ := of_decide_eq_true hreads
  have hparts := hrun
  simp only [sampleRun, bind, Option.bind_eq_some_iff, pure, Option.some.injEq,
    Prod.mk.injEq] at hparts
  obtain ⟨s, hnew, w, hw, rfl, rfl⟩ := hparts
  have hcreated : instantiate (fun _ => true) ⟨0, "launch"⟩ ⟨"contributors", "router"⟩ = .ok s := by
    cases hdone : instantiate (fun _ => true) ⟨0, "launch"⟩ ⟨"contributors", "router"⟩ with
    | error => simp [hdone, Except.toOption] at hnew
    | ok created =>
      simp only [hdone, Except.toOption, Option.some.injEq] at hnew
      rw [hnew]
  have hbounded := incentives_bounded hcreated (execWhere_run (fun _ _ _ step => step) hw)
  exact ⟨s, w, hrun, hminted, hshare, hwithdrawn, hbounded.1 "alice", hbounded.2.2.2 "bob"⟩

end Membrane.Launch
