import Membrane.Governance.Proofs.Tally
import Membrane.Points.Contract

/-!
# Points for votes, and MBRN for points

A vote is rewarded when the proposal was not voted on at the check and is at the giving of
points, which uses the check up. As long as voters stay among the voters of a proposal, a
vote is not rewarded again by a later check, but it is for every time that the proposal is
listed in one call. The MBRN that is paid stays within what is configured at each payment.
-/

namespace Membrane.Points

open Outcome

/-! ## The points system on the chain -/

/-- The points system with what it has done: each reward of a proposal to a user, the MBRN
    paid, and at each payment the total paid and the configured maximum. -/
structure World where
  state : State
  rewarded : List (Nat × Addr)
  paid : Nat
  payments : List (Nat × Nat)

/-- A new points system. -/
def World.new (state : State) : World := ⟨state, [], 0, []⟩

/-- What happens: a call from outside, or the reply to an accrual or a liquidation. -/
inductive Event where
  | call (deps : Deps) (env : Env) (info : MessageInfo) (msg : ExecuteMsg)
  | accrueReply (deps : Deps)
  | liqReply (deps : Deps) (env : Env)

/-- The amounts that messages mint. -/
def minted (msgs : List Msg) : List Nat :=
  msgs.filterMap fun msg => match msg with
    | .mintTokens _ _ amount _ => some amount
    | _ => none

def World.record (w : World) (sender : Addr) (state : State) (response : Response) : World where
  state := state
  rewarded := w.rewarded ++ response.given.newlyVotedProposals.map (·, sender)
  paid := w.paid + (minted response.msgs).sum
  payments := w.payments ++
    (minted response.msgs).map fun amount => (w.paid + amount, state.config.maxMbrnDistribution)

/-- The points system after an event that succeeds. -/
def World.exec (w : World) : Event → Option World
  | .call deps env info msg =>
    match execute deps env info msg w.state with
    | .ok (state, response) => some (w.record info.sender state response)
    | .error _ => none
  | .accrueReply deps =>
    match handleAccrueReply deps w.state with
    | .ok state => some { w with state := state }
    | .error _ => none
  | .liqReply deps env =>
    match handleLiqReply deps env w.state with
    | .ok (state, _) => some { w with state := state }
    | .error _ => none

def eventStep (w : World) (event : Event) (w' : World) : Prop := w.exec event = some w'

/-- The governance contract answers that who was rewarded for a vote is among the voters. -/
def VotesLast (w : World) (event : Event) : Prop :=
  match event with
  | .call deps _ _ _ => ∀ reward ∈ w.rewarded, ∀ governance proposal,
      deps.proposal governance reward.1 = .ok proposal → hasVoted proposal reward.2
  | _ => True

/-- A call for points lists no pending proposal twice. -/
def ListsOnce (w : World) (event : Event) : Prop :=
  match event with
  | .call _ _ _ (.givePoints _ _ _ vote) => ∀ claimCheck ∈ w.state.claimCheck,
      ((vote.getD []).filter fun id => claimCheck.votePending.contains id).Nodup
  | _ => True

/-! ## Votes -/

section

variable {deps : Deps} {env : Env} {config : Config} {info : MessageInfo} {user : Addr}
  {s s' : State} {response : Response}

theorem unvotedProposals_spec {votes acc unvoted : List Nat}
    (done : votes.foldlM (fun unvoted id => do
      let proposal ← Outcome.ofExcept (deps.proposal config.governanceContract id)
      pure (if hasVoted proposal user then unvoted else unvoted ++ [id])) acc =
        (.ok unvoted : Outcome StdError (List Nat))) :
    ∀ id ∈ unvoted, id ∈ acc ∨ ∃ proposal,
      deps.proposal config.governanceContract id = .ok proposal ∧ ¬ hasVoted proposal user := by
  induction votes generalizing acc with
  | nil =>
    obtain rfl := pure_eq_ok.mp done
    exact fun id hid => .inl hid
  | cons vote rest ih =>
    rw [List.foldlM_cons] at done
    simp only [bind_eq_ok, ofExcept_eq_ok, pure_eq_ok] at done
    obtain ⟨_, ⟨proposal, hproposal, rfl⟩, hrest⟩ := done
    intro id hid
    rcases ih hrest id hid with hacc | hunvoted
    · split at hacc
      case isTrue => exact .inl hacc
      case isFalse hnot =>
        rcases List.mem_append.mp hacc with hacc | hlast
        · exact .inl hacc
        · obtain rfl := List.mem_singleton.mp hlast
          exact .inr ⟨proposal, hproposal, hnot⟩
    · exact .inr hunvoted

theorem newlyVotedProposals_sublist {claimCheck : ClaimCheck} {votes voted : List Nat}
    (done : newlyVotedProposals deps env config user claimCheck votes = .ok voted) :
    voted.Sublist (votes.filter fun id => claimCheck.votePending.contains id) := by
  unfold newlyVotedProposals at done
  generalize votes.filter (fun id => claimCheck.votePending.contains id) = listed at done ⊢
  suffices h : ∀ (acc : List Nat), listed.foldlM (fun voted id => do
      let proposal ← Outcome.ofExcept (deps.proposal config.governanceContract id)
      let lastHour ← subUint env.blockTime (secondsPerDay / 24)
      pure (if lastHour ≤ proposal.startTime then voted
        else if hasVoted proposal user then voted ++ [id]
        else voted)) acc = (.ok voted : Outcome StdError (List Nat)) →
      ∃ added, added.Sublist listed ∧ voted = acc ++ added by
    obtain ⟨added, hadded, rfl⟩ := h [] done
    exact hadded
  clear done
  induction listed with
  | nil =>
    intro acc done
    obtain rfl := pure_eq_ok.mp done
    exact ⟨[], List.nil_sublist _, (List.append_nil _).symm⟩
  | cons vote rest ih =>
    intro acc done
    rw [List.foldlM_cons, bind_eq_ok] at done
    obtain ⟨mid, hmid, hrest⟩ := done
    simp only [bind_eq_ok, pure_eq_ok] at hmid
    obtain ⟨proposal, -, lastHour, -, rfl⟩ := hmid
    obtain ⟨added, hadded, rfl⟩ := ih _ hrest
    split
    case isTrue => exact ⟨added, hadded.cons _, rfl⟩
    case isFalse =>
      split
      case isTrue => exact ⟨vote :: added, hadded.cons_cons _, List.append_assoc _ _ _⟩
      case isFalse => exact ⟨added, hadded.cons _, rfl⟩

/-! ## Calls -/

structure Kept (s s' : State) (response : Response) : Prop where
  distributed : s'.config.totalMbrnDistribution = s.config.totalMbrnDistribution
  given : response.given.newlyVotedProposals = []
  unminted : minted response.msgs = []

theorem checkClaims_spec {cdpRepayment : Option UserInfo} {spClaims lqClaims : Bool}
    {vote : Option (List Nat)}
    (done : checkClaims deps info cdpRepayment spClaims lqClaims vote s = .ok (s', response)) :
    Kept s s' response ∧ ∃ claimCheck, s'.claimCheck = some claimCheck ∧
      claimCheck.user = info.sender ∧ ∀ id ∈ claimCheck.votePending, ∃ proposal,
        deps.proposal s.config.governanceContract id = .ok proposal ∧
          ¬ hasVoted proposal info.sender := by
  simp only [checkClaims, bind_eq_ok, liftStd_eq_ok, pure_eq_ok, Prod.mk.injEq] at done
  obtain ⟨_, -, lqPending, -, votePending, hpending, rfl, rfl⟩ := done
  refine ⟨⟨rfl, rfl, ?_⟩, _, rfl, rfl, fun id hid => ?_⟩
  · cases cdpRepayment <;> rfl
  · exact (unvotedProposals_spec hpending id hid).resolve_left List.not_mem_nil

/-- What giving points does: it uses a check of the sender up, and rewards proposals that
    are listed and pending. -/
structure PointsGiven (info : MessageInfo) (vote : Option (List Nat)) (s s' : State)
    (response : Response) (claimCheck : ClaimCheck) : Prop where
  checked : s.claimCheck = some claimCheck
  sender : info.sender = claimCheck.user
  used : s'.claimCheck = none
  rewards : response.given.newlyVotedProposals.Sublist
    ((vote.getD []).filter fun id => claimCheck.votePending.contains id)
  distributed : s'.config.totalMbrnDistribution = s.config.totalMbrnDistribution
  unminted : minted response.msgs = []

theorem givePoints_spec {cdpRepayment spClaims lqClaims : Bool} {vote : Option (List Nat)}
    (done : givePoints deps env info cdpRepayment spClaims lqClaims vote s = .ok (s', response)) :
    ∃ claimCheck, PointsGiven info vote s s' response claimCheck := by
  simp only [givePoints, bind_eq_ok, liftStd_eq_ok, ofOption_eq_ok, guardErr_eq_ok,
    Decidable.not_not, pure_eq_ok, Prod.mk.injEq] at done
  obtain ⟨claimCheck, hchecked, _, hsender, basket, -, revenuePaid, -, lqClaimDiff, -,
    voted, hvoted,
    userStats, -, rfl, rfl⟩ := done
  exact ⟨claimCheck, hchecked, hsender, rfl, newlyVotedProposals_sublist hvoted, rfl, rfl⟩

theorem allocatePoints_spec {cdtPrice : PriceResponse} {revenuePaid : Nat}
    {spClaimDiff lqClaimDiff : List Coin} {voted : List Nat}
    {userStats userStats' : KeyMap Addr UserStats}
    (done : allocatePoints deps config user cdtPrice revenuePaid spClaimDiff lqClaimDiff voted
      userStats = .ok userStats') :
    ∃ value points stats, (userStats.lookup user).getD ⟨Decimal.zero, Decimal.zero⟩ = stats ∧
      decimalMultiplication ⟨value + voted.length * Decimal.fractional⟩ config.pointsPerDollar =
        .ok points ∧
      userStats' = userStats.insert user ⟨⟨stats.totalPoints.atomics + points.atomics⟩,
        ⟨stats.claimablePoints.atomics + points.atomics⟩⟩ := by
  simp only [allocatePoints, bind_eq_ok, Decimal.add_eq_ok, pure_eq_ok] at done
  obtain ⟨claimed, -, paid, -, _, ⟨-, rfl⟩, votes, hvotes, _, ⟨-, rfl⟩, points, hpoints,
    _, ⟨-, rfl⟩,
    _, ⟨-, rfl⟩, rfl⟩ := done
  rw [Decimal.fromRatio_one hvotes] at hpoints
  exact ⟨claimed.atomics + paid.atomics, points, _, rfl, hpoints, rfl⟩

theorem givePoints_rewarded {cdpRepayment spClaims lqClaims : Bool} {vote : Option (List Nat)}
    (done : givePoints deps env info cdpRepayment spClaims lqClaims vote s = .ok (s', response))
    (w : World) :
    ∃ (voted : List Nat) (value : Nat) (points : Decimal) (stats : UserStats),
      (w.record info.sender s' response).rewarded = w.rewarded ++ voted.map (·, info.sender) ∧
      (s.userStats.lookup info.sender).getD ⟨Decimal.zero, Decimal.zero⟩ = stats ∧
      decimalMultiplication ⟨value + voted.length * Decimal.fractional⟩ s.config.pointsPerDollar =
        .ok points ∧
      s'.userStats = s.userStats.insert info.sender ⟨⟨stats.totalPoints.atomics + points.atomics⟩,
        ⟨stats.claimablePoints.atomics + points.atomics⟩⟩ := by
  simp only [givePoints, bind_eq_ok, liftStd_eq_ok, ofOption_eq_ok, guardErr_eq_ok,
    Decidable.not_not, pure_eq_ok, Prod.mk.injEq] at done
  obtain ⟨claimCheck, -, _, -, basket, -, revenuePaid, -, lqClaimDiff, -, voted, -, userStats,
    hallocated, rfl, rfl⟩ := done
  obtain ⟨value, points, stats, hstats, hpoints, rfl⟩ := allocatePoints_spec hallocated
  exact ⟨voted, value, points, stats, rfl, hstats, hpoints, rfl⟩

/-- What a claim does: it mints an amount that keeps the distribution within its maximum. -/
structure Claimed (s s' : State) (response : Response) (amount : Nat) : Prop where
  mints : minted response.msgs = [amount]
  distributed : s'.config.totalMbrnDistribution = s.config.totalMbrnDistribution + amount
  within : s'.config.totalMbrnDistribution ≤ s'.config.maxMbrnDistribution
  given : response.given.newlyVotedProposals = []
  check : s'.claimCheck = s.claimCheck

theorem claimMbrnFromPoints_spec (done : claimMbrnFromPoints info s = .ok (s', response)) :
    ∃ amount, Claimed s s' response amount := by
  simp only [claimMbrnFromPoints, bind_eq_ok, ofOption_eq_ok, Uint128.add_eq_ok, pure_eq_ok,
    Prod.mk.injEq] at done
  obtain ⟨stats, -, claimable, -, _, -, _, ⟨-, rfl⟩, amount, hamount, _, ⟨-, rfl⟩, rfl, rfl⟩ := done
  refine ⟨amount, rfl, rfl, ?_, rfl, rfl⟩
  show s.config.totalMbrnDistribution + amount ≤ s.config.maxMbrnDistribution
  split at hamount
  case isTrue =>
    rw [ofOption_eq_ok, Uint128.checkedSub_eq_some] at hamount
    omega
  case isFalse hwithin =>
    obtain rfl := pure_eq_ok.mp hamount
    omega

theorem updateConfig_spec {update : UpdateConfig}
    (done : updateConfig deps info update s = .ok (s', response)) :
    Kept s s' response ∧ s'.claimCheck = s.claimCheck := by
  simp only [updateConfig, bind_eq_ok, pure_eq_ok, Prod.mk.injEq] at done
  obtain ⟨_, -, _, -, _, -, _, -, _, -, _, -, _, -, _, -, rfl, rfl⟩ := done
  exact ⟨⟨rfl, rfl, rfl⟩, rfl⟩

theorem liquidateForUser_spec {positionId : Nat} {positionOwner : String}
    (done : liquidateForUser deps info positionId positionOwner s = .ok (s', response)) :
    Kept s s' response ∧ s'.claimCheck = s.claimCheck := by
  simp only [liquidateForUser, bind_eq_ok, pure_eq_ok, Prod.mk.injEq] at done
  obtain ⟨_, -, _, -, rfl, rfl⟩ := done
  exact ⟨⟨rfl, rfl, rfl⟩, rfl⟩

end

/-! ## Runs -/

/-- No reward is repeated, nothing pending was rewarded, and what is paid is what the
    contract counts, within the maximum of each payment. -/
structure Sound (w : World) : Prop where
  once : w.rewarded.Nodup
  pending : ∀ claimCheck ∈ w.state.claimCheck, ∀ id ∈ claimCheck.votePending,
    (id, claimCheck.user) ∉ w.rewarded
  counted : w.paid = w.state.config.totalMbrnDistribution
  within : ∀ payment ∈ w.payments, payment.1 ≤ payment.2

theorem new_sound {deps : Deps} {info : MessageInfo} {msg : InstantiateMsg} {s : State}
    (done : instantiate deps info msg = .ok s) : Sound (World.new s) := by
  simp only [instantiate, bind_eq_ok, liftStd_eq_ok, pure_eq_ok] at done
  obtain ⟨_, -, _, -, _, -, _, -, _, -, _, -, _, -, rfl⟩ := done
  refine ⟨List.nodup_nil, ?_, rfl, ?_⟩
  · intro claimCheck hcheck
    cases hcheck
  · intro payment hpayment
    cases hpayment

section

variable {w w' : World} {event : Event}

theorem Sound.kept (sound : Sound w) {sender : Addr} {s' : State} {response : Response}
    (kept : Kept w.state s' response)
    (pending : ∀ claimCheck ∈ s'.claimCheck, ∀ id ∈ claimCheck.votePending,
      (id, claimCheck.user) ∉ w.rewarded) : Sound (w.record sender s' response) := by
  have hrewarded : (w.record sender s' response).rewarded = w.rewarded := by
    simp [World.record, kept.given]
  constructor
  · rw [hrewarded]
    exact sound.once
  · rw [hrewarded]
    exact pending
  · simp [World.record, kept.unminted, kept.distributed, sound.counted]
  · simp only [World.record, kept.unminted, List.map_nil, List.append_nil]
    exact sound.within

theorem Sound.given (sound : Sound w) {info : MessageInfo} {vote : Option (List Nat)} {s' : State}
    {response : Response} {claimCheck : ClaimCheck}
    (given : PointsGiven info vote w.state s' response claimCheck)
    (once : ((vote.getD []).filter fun id => claimCheck.votePending.contains id).Nodup) :
    Sound (w.record info.sender s' response) := by
  constructor
  · refine List.Nodup.append sound.once ?_ ?_
    · exact (once.sublist given.rewards).map fun _ _ heq => congrArg Prod.fst heq
    · intro reward hold hnew
      obtain ⟨id, hid, rfl⟩ := List.mem_map.mp hnew
      have hpending := (List.mem_filter.mp (given.rewards.subset hid)).2
      rw [given.sender] at hold
      exact sound.pending claimCheck given.checked id (by simpa using hpending) hold
  · intro later hlater
    rw [show (w.record info.sender s' response).state.claimCheck = none from given.used] at hlater
    cases hlater
  · simp [World.record, given.unminted, given.distributed, sound.counted]
  · simp only [World.record, given.unminted, List.map_nil, List.append_nil]
    exact sound.within

theorem Sound.claimed (sound : Sound w) {sender : Addr} {s' : State} {response : Response}
    {amount : Nat} (claimed : Claimed w.state s' response amount) :
    Sound (w.record sender s' response) := by
  have hpaid : (w.record sender s' response).paid = w.paid + amount := by
    simp [World.record, claimed.mints]
  constructor
  · simp only [World.record, claimed.given, List.map_nil, List.append_nil]
    exact sound.once
  · simp only [World.record, claimed.given, claimed.check, List.map_nil, List.append_nil]
    exact sound.pending
  · rw [hpaid, sound.counted]
    exact claimed.distributed.symm
  · intro payment hpayment
    simp only [World.record, claimed.mints, List.map_cons, List.map_nil, List.mem_append,
      List.mem_singleton] at hpayment
    rcases hpayment with hold | rfl
    · exact sound.within payment hold
    · rw [sound.counted, ← claimed.distributed]
      exact claimed.within

theorem step_sound (sound : Sound w) (allowed : VotesLast w event ∧ ListsOnce w event)
    (step : eventStep w event w') : Sound w' := by
  obtain ⟨hlast, honce⟩ := allowed
  unfold eventStep World.exec at step
  cases event with
  | accrueReply deps =>
    dsimp only at step
    split at step
    case h_1 s' hreply =>
      obtain rfl := Option.some.inj step
      simp only [handleAccrueReply, bind_eq_ok, ofOption_eq_ok, pure_eq_ok] at hreply
      obtain ⟨basket, -, claimCheck, hcheck, rfl⟩ := hreply
      refine ⟨sound.once, fun later hlater => ?_, sound.counted, sound.within⟩
      obtain rfl := Option.some.inj hlater
      exact sound.pending claimCheck hcheck
    case h_2 => cases step
  | liqReply deps env =>
    dsimp only at step
    split at step
    case h_1 s' msgs hreply =>
      obtain rfl := Option.some.inj step
      simp only [handleLiqReply, bind_eq_ok, pure_eq_ok, Prod.mk.injEq] at hreply
      obtain ⟨_, -, _, -, _, -, _, -, _, -, rfl, -⟩ := hreply
      exact ⟨sound.once, sound.pending, sound.counted, sound.within⟩
    case h_2 => cases step
  | call deps env info msg =>
    dsimp only at step
    split at step
    case h_2 => cases step
    case h_1 s' response hexecute =>
      obtain rfl := Option.some.inj step
      cases msg with
      | updateConfig update =>
        obtain ⟨hkept, hcheck⟩ := updateConfig_spec hexecute
        exact sound.kept hkept (by rw [hcheck]; exact sound.pending)
      | checkClaims cdpRepayment spClaims lqClaims vote =>
        obtain ⟨hkept, claimCheck, hcheck, huser, hpending⟩ := checkClaims_spec hexecute
        refine sound.kept hkept fun later hlater id hid hrewarded => ?_
        obtain rfl := Option.some.inj (hcheck.symm.trans hlater)
        -- who was rewarded would still be a voter
        obtain ⟨proposal, hproposal, hnot⟩ := hpending id hid
        rw [huser] at hrewarded
        exact hnot (hlast _ hrewarded _ _ hproposal)
      | givePoints cdpRepayment spClaims lqClaims vote =>
        obtain ⟨claimCheck, hgiven⟩ := givePoints_spec hexecute
        exact sound.given hgiven (honce claimCheck hgiven.checked)
      | liquidate positionId positionOwner =>
        obtain ⟨hkept, hcheck⟩ := liquidateForUser_spec hexecute
        exact sound.kept hkept (by rw [hcheck]; exact sound.pending)
      | claimMBRN =>
        obtain ⟨amount, hclaimed⟩ := claimMbrnFromPoints_spec hexecute
        exact sound.claimed hclaimed

end

/-- In every run in which voters last and no call for points lists a pending proposal twice,
    no user is rewarded twice for a proposal, and what is paid is within the configured
    maximum at each payment. -/
theorem rewards_once {deps : Deps} {info : MessageInfo} {msg : InstantiateMsg} {s : State}
    {w : World}
    (created : instantiate deps info msg = .ok s)
    (run : RunWhere eventStep (fun w event => VotesLast w event ∧ ListsOnce w event)
      (World.new s) w) :
    w.rewarded.Nodup ∧ ∀ payment ∈ w.payments, payment.1 ≤ payment.2 := by
  have hsound : Sound w :=
    run.keeps (fun _ _ _ hsound hallowed hstep => step_sound hsound hallowed hstep)
      (new_sound created)
  exact ⟨hsound.once, hsound.within⟩

/-! ## On a sample chain -/

def sampleBasket : Basket where
  basketId := 1
  currentPositionId := 1
  collateralTypes := []
  collateralSupplyCaps := []
  lastestCollateralRates := []
  multiAssetSupplyCaps := []
  creditAsset := ⟨.nativeToken "ucdt", 0⟩
  creditPrice := ⟨Decimal.one, 6⟩
  baseInterestRate := Decimal.zero
  pendingRevenue := 0
  creditLastAccrued := 0
  ratesLastAccrued := 0
  oracleSet := true
  negativeRates := false
  frozen := false
  revToStakers := true
  cpcMarginOfError := Decimal.zero
  liqQueue := none

def sampleProposal (voters : List Addr) : Governance.Proposal where
  proposalId := 1
  submitter := "submitter"
  status := .active
  alignedVotes := ⟨0, []⟩
  forVotes := ⟨0, voters⟩
  againstVotes := ⟨0, []⟩
  amendmentVotes := ⟨0, []⟩
  removalVotes := ⟨0, []⟩
  startTime := 0
  endBlock := 100000
  delayedEndBlock := 100000
  expirationBlock := 100000
  title := "title"
  description := "description"
  link := none
  messages := none

def sampleDeps (voters : List Addr) : Deps where
  addrValid _ := true
  basket _ := .ok sampleBasket
  spClaims _ _ := .ok []
  lqClaims _ _ := .ok []
  proposal _ _ := .ok (sampleProposal voters)
  prices _ _ := .ok []
  balances _ := .ok []

def sampleCall (voters : List Addr) (msg : ExecuteMsg) : Event :=
  .call (sampleDeps voters) ⟨7200, "points"⟩ (.noFunds "user") msg

def sampleNew : Result State :=
  instantiate (sampleDeps []) (.noFunds "owner") ⟨"ucdt", "oracle", "cdp", "sp", "lq",
    "gov", "proxy"⟩

/-- The points system after the check of a proposal, then the giving of points for a vote on
    it, and then the claim of MBRN for them. -/
def sampleRun (votes : List Nat) : Option (State × World × World × World) := do
  let s ← sampleNew.toOption
  let checked ← (World.new s).exec (sampleCall [] (.checkClaims none false false (some [1])))
  let given ← checked.exec (sampleCall ["user"] (.givePoints false false false (some votes)))
  let claimed ← given.exec (sampleCall ["user"] .claimMBRN)
  pure (s, checked, given, claimed)

def sampleCheck : ClaimCheck := ⟨"user", 0, [], [], [1]⟩

theorem sampleRun_spec {votes : List Nat} {s : State} {checked given claimed : World}
    (done : sampleRun votes = some (s, checked, given, claimed)) :
    sampleNew = .ok s ∧
      eventStep (World.new s) (sampleCall [] (.checkClaims none false false (some [1]))) checked ∧
      eventStep checked (sampleCall ["user"] (.givePoints false false false (some votes))) given ∧
      eventStep given (sampleCall ["user"] .claimMBRN) claimed := by
  simp only [sampleRun, bind, Option.bind_eq_some_iff, pure, Option.some.injEq,
    Prod.mk.injEq] at done
  obtain ⟨s, hnew, checked, hchecked, given, hgiven, claimed, hclaimed, rfl, rfl, rfl, rfl⟩ := done
  refine ⟨?_, hchecked, hgiven, hclaimed⟩
  cases hcreated : sampleNew with
  | error => simp [hcreated, Except.toOption] at hnew
  | ok created =>
    simp only [hcreated, Except.toOption, Option.some.injEq] at hnew
    rw [hnew]

/-- A vote that is listed once is rewarded once, and its point is worth a million of MBRN's
    units. -/
theorem rewards_once_listed : ∃ s checked given claimed,
    sampleRun [1] = some (s, checked, given, claimed) ∧ claimed.rewarded = [(1, "user")] ∧
      claimed.payments = [(1000000, 100000000000)] ∧ claimed.rewarded.Nodup ∧
      ∀ payment ∈ claimed.payments, payment.1 ≤ payment.2 := by
  have hreads :
      (sampleRun [1]).any (fun run => decide (run.2.1.state.claimCheck = some sampleCheck ∧
      run.2.1.rewarded = [] ∧ run.2.2.1.rewarded = [(1, "user")] ∧
      run.2.2.2.rewarded = [(1, "user")] ∧ run.2.2.2.payments = [(1000000, 100000000000)])) =
        true := by
    decide +kernel
  obtain ⟨⟨s, checked, given, claimed⟩, hrun, hreads⟩ := (Option.any_eq_true _ _).mp hreads
  obtain ⟨hcheck, hnone, hgiven, hclaimed, hpayments⟩ := of_decide_eq_true hreads
  obtain ⟨hcreated, hfirst, hsecond, hthird⟩ := sampleRun_spec hrun
  refine ⟨s, checked, given, claimed, hrun, hclaimed, hpayments, rewards_once hcreated
    (.snoc (.snoc (.snoc .refl _ ⟨?_, by trivial⟩ hfirst) _ ⟨?_, ?_⟩ hsecond) _
      ⟨?_, by trivial⟩ hthird)⟩
  · intro reward hreward
    cases hreward
  · intro reward hreward
    rw [hnone] at hreward
    cases hreward
  · intro claimCheck hsome
    obtain rfl := Option.some.inj (hcheck.symm.trans hsome)
    decide
  · intro reward hreward governance proposal hproposal
    rw [hgiven] at hreward
    obtain rfl := List.mem_singleton.mp hreward
    obtain rfl := Except.ok.inj hproposal
    decide

/-- A vote that is listed twice is rewarded twice. -/
theorem not_rewards_once :
    ¬ ∀ deps info msg s w, instantiate deps info msg = .ok s →
      RunWhere eventStep VotesLast (World.new s) w → w.rewarded.Nodup := by
  intro claim
  have hreads : (sampleRun [1, 1]).any (fun run => decide (run.2.1.rewarded = [] ∧
      run.2.2.1.rewarded = [(1, "user"), (1, "user")])) = true := by
    decide +kernel
  obtain ⟨⟨s, checked, given, claimed⟩, hrun, hreads⟩ := (Option.any_eq_true _ _).mp hreads
  obtain ⟨hnone, hgiven⟩ := of_decide_eq_true hreads
  obtain ⟨hcreated, hfirst, hsecond, -⟩ := sampleRun_spec hrun
  have honce := claim _ _ _ _ given hcreated (.snoc (.snoc .refl _ ?_ hfirst) _ ?_ hsecond)
  · rw [hgiven] at honce
    exact absurd honce (by decide)
  · intro reward hreward
    cases hreward
  · intro reward hreward
    rw [hnone] at hreward
    cases hreward

end Membrane.Points
