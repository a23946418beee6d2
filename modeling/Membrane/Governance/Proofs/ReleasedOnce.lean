import Membrane.Lib.Run
import Membrane.Governance.Proofs.Lifecycle

/-!
# The life of a proposal over runs

Over every run in time, a proposal keeps its content until it is removed for good, a decided one
keeps its votes and its result as well, its messages are released once at most, and what is released
was passed by the majority of the votes cast.
-/

namespace Membrane.Governance

open Outcome

/-! ## The contract in time -/

/-- A release of a proposal's messages: when, the proposal as it was stored, and the messages. -/
structure Released where
  proposalId : Nat
  time : Nat
  proposal : Proposal
  messages : List ReleasedMsg

/-- The contract with the time of the last call and the releases so far. -/
structure Timeline where
  state : State
  now : Nat
  released : List Released

def Timeline.record (h : Timeline) (call : LifecycleCall) (messages : List ReleasedMsg) :
    List Released :=
  match call.msg with
  | .executeProposal proposalId =>
    match h.state.proposals.lookup proposalId with
    | some proposal => h.released ++ [⟨proposalId, call.env.blockTime, proposal, messages⟩]
    | none => h.released
  | _ => h.released

/-- A successful call, no earlier than the one before. -/
def LifecycleCall.exec (h : Timeline) (call : LifecycleCall) : Option Timeline :=
  if h.now ≤ call.env.blockTime then
    match executeLifecycle call.deps call.env call.info call.msg h.state with
    | .ok (s, messages) => some ⟨s, call.env.blockTime, h.record call messages⟩
    | .error _ => none
  else none

def lifecycleStep (h : Timeline) (call : LifecycleCall) (h' : Timeline) : Prop :=
  call.exec h = some h'

/-- What holds of the proposals at a time: ids are counted, a proposal is open or pending, a
    pending one is not decided, a decided one had its vote ended before, and what passed had the
    majority. -/
structure Orderly (now : Nat) (s : State) : Prop where
  counted : ∀ id, s.proposalCount < id → s.entry id = (none, none)
  apart : ∀ id, (s.entry id).1 ≠ none → (s.entry id).2 = none
  pending : ∀ id p, s.entry id = (none, some p) → p.status = .active
  ended : ∀ id p, s.entry id = (some p, none) → Decided p → p.endBlock < now
  majority : ∀ id p, s.entry id = (some p, none) → p.status = .passed ∨ p.status = .executed →
    Majority p
  threshold : Decimal.percent 51 ≤ s.config.proposalRequiredThreshold

section Runs

variable {s s' : State} {now t : Nat}

theorem Orderly.moved (orderly : Orderly now s) (later : now ≤ t) (moved : Moved t s s') :
    Orderly t s' := by
  refine ⟨fun id beyond => ?_, fun id some => ?_, fun id p found => ?_,
    fun id p found decided => ?_,
    fun id p found passed => ?_, moved.threshold orderly.threshold⟩
  · have hbefore := orderly.counted id (Nat.lt_of_le_of_lt moved.count beyond)
    have hmove := moved.moves id
    rw [hbefore] at hmove
    generalize he : s'.entry id = e at hmove
    cases hmove with
    | stays => rfl
    | opens isFresh => exact absurd isFresh.2 beyond.ne'
    | waits isFresh => exact absurd isFresh.2 beyond.ne'
  · have happart := orderly.apart id
    have hmove := moved.moves id
    generalize s.entry id = e at hmove happart
    generalize s'.entry id = e' at hmove some ⊢
    cases hmove with
    | stays => exact happart some
    | opens => rfl
    | waits => exact absurd rfl some
    | voted => rfl
    | aligned => exact absurd rfl some
    | activated => rfl
    | ends => rfl
    | executes => rfl
    | removed => rfl
    | expires => rfl
  · have hpending := orderly.pending id
    have hmove := moved.moves id
    rw [found] at hmove
    generalize s.entry id = e at hmove hpending
    cases hmove with
    | stays => exact hpending p rfl
    | waits isFresh active => exact active
    | aligned same => exact same.status.trans (hpending _ rfl)
  · have hended := orderly.ended id
    have hpending := orderly.pending id
    have hmove := moved.moves id
    rw [found] at hmove
    generalize s.entry id = e at hmove hended hpending
    cases hmove with
    | stays => exact (hended p rfl decided).trans_le later
    | opens isFresh active => exact absurd active decided
    | voted inTime same =>
      rw [same.endBlock]
      exact (hended _ rfl (fun active => decided (same.status.trans active))).trans_le later
    | activated same => exact absurd (same.status.trans (hpending _ rfl)) decided
    | ends active ended content keeps => exact (keeps decided).trans_lt ended
    | executes passed =>
      refine (hended _ rfl fun active => ?_).trans_le later
      rw [passed] at active
      cases active
  · have hmajority := orderly.majority id
    have hended := orderly.ended id
    have hpending := orderly.pending id
    have hmove := moved.moves id
    rw [found] at hmove
    generalize s.entry id = e at hmove hmajority hended hpending
    have hdecided : p.status ≠ .active := by
      rcases passed with h | h
      · rw [h]
        decide
      · rw [h]
        decide
    cases hmove with
    | stays => exact hmajority p rfl passed
    | opens isFresh active => exact absurd active hdecided
    | voted inTime same =>
      -- a decided proposal can no longer be voted on
      have hbefore := hended _ rfl fun active => hdecided (same.status.trans active)
      omega
    | activated same => exact absurd (same.status.trans (hpending _ rfl)) hdecided
    | ends active ended content keeps majority notExecuted =>
      exact majority (passed.resolve_right notExecuted)
    | executes wasPassed => exact majority_status.mpr (hmajority _ rfl (.inl wasPassed))

end Runs

section Steps

variable {h h' : Timeline} {call : LifecycleCall}

theorem lifecycleStep_iff : lifecycleStep h call h' ↔ h.now ≤ call.env.blockTime ∧
    ∃ s messages, executeLifecycle call.deps call.env call.info call.msg h.state =
      .ok (s, messages) ∧
      h' = ⟨s, call.env.blockTime, h.record call messages⟩ := by
  unfold lifecycleStep LifecycleCall.exec
  constructor
  · intro step
    split at step
    · rename_i hlater
      split at step
      · rename_i s messages hdone
        exact ⟨hlater, s, messages, hdone, (Option.some.inj step).symm⟩
      · cases step
    · cases step
  · rintro ⟨hlater, s, messages, hdone, rfl⟩
    rw [if_pos hlater, hdone]

theorem step_moved (orderly : Orderly h.now h.state) (step : lifecycleStep h call h') :
    h.now ≤ h'.now ∧ Moved h'.now h.state h'.state := by
  obtain ⟨hlater, s, messages, hdone, rfl⟩ := lifecycleStep_iff.mp step
  refine ⟨hlater, ?_⟩
  dsimp only
  unfold executeLifecycle at hdone
  cases hmsg : call.msg with
  | vote msg =>
    simp only [hmsg, bind_eq_ok, liftContract_eq_ok] at hdone
    obtain ⟨s, hvote, hpair⟩ := hdone
    cases pure_eq_ok.mp hpair
    unfold execute at hvote
    cases msg with
    | submitProposal => exact submitProposal_moves orderly.counted hvote
    | castVote => exact castVote_moves orderly.apart hvote
    | updateConfig => exact updateConfig_moves hvote
  | endProposal proposalId =>
    simp only [hmsg, bind_eq_ok] at hdone
    obtain ⟨s, hend, hpair⟩ := hdone
    cases pure_eq_ok.mp hpair
    exact endProposal_moves orderly.apart orderly.threshold hend
  | executeProposal proposalId =>
    simp only [hmsg] at hdone
    exact executeProposal_moves orderly.apart hdone
  | removeCompletedProposal proposalId =>
    simp only [hmsg, bind_eq_ok] at hdone
    obtain ⟨s, hremove, hpair⟩ := hdone
    cases pure_eq_ok.mp hpair
    exact removeCompletedProposal_moves orderly.apart hremove

theorem step_orderly (orderly : Orderly h.now h.state) (step : lifecycleStep h call h') :
    Orderly h'.now h'.state := by
  obtain ⟨hlater, hmoved⟩ := step_moved orderly step
  exact orderly.moved hlater hmoved

end Steps

/-! ## A proposal until it is removed -/

/-- What is stored under an id later on. Nothing comes back, a proposal keeps its content, and a
    decided one is kept whole but for the mark that it was executed. -/
inductive Follows :
    Option Proposal × Option Proposal → Option Proposal × Option Proposal → Prop
  | gone (e) : Follows e (none, none)
  | kept {p p'} (content : SameContent p p')
      (final : Decided p → p' = p ∨ p.status = .passed ∧ p' = { p with status := .executed }) :
      Follows (some p, none) (some p', none)
  | waits {p p'} (content : SameContent p p') : Follows (none, some p) (none, some p')
  | opened {p p'} (content : SameContent p p') : Follows (none, some p) (some p', none)

theorem Follows.trans {e e' e'' : Option Proposal × Option Proposal} (first : Follows e e')
    (second : Follows e' e'') (active : ∀ p, e = (none, some p) → p.status = .active) :
    Follows e e'' := by
  cases second with
  | gone => exact .gone e
  | kept content final =>
    cases first with
    | kept before finalBefore =>
      refine .kept (before.trans content) fun decided => ?_
      rcases finalBefore decided with rfl | ⟨hpassed, rfl⟩
      · exact final decided
      · -- an executed proposal stays as it is
        have hexecuted := final (by rintro ⟨⟩)
        refine .inr ⟨hpassed, hexecuted.resolve_right ?_⟩
        rintro ⟨⟨⟩, -⟩
    | opened before => exact .opened (before.trans content)
  | waits content =>
    cases first with
    | waits before => exact .waits (before.trans content)
  | opened content =>
    cases first with
    | waits before => exact .opened (before.trans content)

section Follow

variable {h h' : Timeline} {call : LifecycleCall}

theorem step_follows {id : Nat} (orderly : Orderly h.now h.state) (step : lifecycleStep h call h')
    (counted : id ≤ h.state.proposalCount) :
    Follows (h.state.entry id) (h'.state.entry id) := by
  obtain ⟨hlater, hmoved⟩ := step_moved orderly step
  have hended := orderly.ended id
  have hapart := orderly.apart id
  have hmove := hmoved.moves id
  generalize h.state.entry id = e at hmove hended hapart ⊢
  generalize h'.state.entry id = e' at hmove ⊢
  cases hmove with
  | stays =>
    obtain ⟨_ | p, _ | q⟩ := e
    · exact .gone _
    · exact .waits (.refl q)
    · exact .kept (.refl p) fun _ => .inl rfl
    · cases hapart (by simp)
  | opens isFresh => exact absurd isFresh.1 (Nat.not_lt.mpr counted)
  | waits isFresh => exact absurd isFresh.1 (Nat.not_lt.mpr counted)
  | @voted p p' inTime same =>
    refine .kept same.content fun decided => ?_
    have hbefore := hended p rfl decided
    omega
  | aligned same => exact .waits same.content
  | activated same => exact .opened same.content
  | ends active ended content => exact .kept content fun decided => absurd active decided
  | executes passed => exact .kept ⟨rfl, rfl, rfl, rfl, rfl⟩ fun _ => .inr ⟨passed, rfl⟩
  | removed p => exact .gone _
  | expires p => exact .gone _

end Follow

/-! ## Runs -/

/-- A run of the contract in time. -/
abbrev LifecycleRun : Timeline → Timeline → Prop := RunWhere lifecycleStep fun _ _ => True

/-- A new contract, with nothing released. -/
def Timeline.IsNew (h : Timeline) : Prop :=
  h.released = [] ∧ ∃ deps msg, instantiate deps msg = .ok h.state

theorem Timeline.IsNew.orderly {h : Timeline} (isNew : h.IsNew) : Orderly h.now h.state := by
  obtain ⟨-, deps, msg, hcreated⟩ := isNew
  simp only [instantiate, bind_eq_ok, liftStd_eq_ok] at hcreated
  obtain ⟨_, -, _, -, _, -, _, -, _, -, _, hvalid, hstate⟩ := hcreated
  have hstate := pure_eq_ok.mp hstate
  have hempty : ∀ id, h.state.entry id = (none, none) := by
    intro id
    rw [← hstate]
    rfl
  refine ⟨fun id _ => hempty id, fun id some => ?_, fun id p found => ?_, fun id p found => ?_,
    fun id p found => ?_, ?_⟩
  · rw [hempty id]
  · rw [hempty id] at found
    cases found
  · rw [hempty id] at found
    cases found
  · rw [hempty id] at found
    cases found
  · rw [← hstate]
    exact validate_threshold hvalid

theorem run_orderly {h h' : Timeline} (orderly : Orderly h.now h.state) (run : LifecycleRun h h') :
    Orderly h'.now h'.state := by
  have hkeeps : ∀ mid call later, Orderly mid.now mid.state → True → lifecycleStep mid call later →
      Orderly later.now later.state :=
    fun _ _ _ horderly _ hstep => step_orderly horderly hstep
  exact RunWhere.keeps hkeeps run orderly

/-- In every run, from whatever point of it, a proposal that was submitted keeps its submitter, its
    times but the end of its vote, and its messages until it is removed, and its id is not used
    again. Once it is decided no vote is counted and the result does not change, but that a
    passed proposal is marked as executed. -/
theorem proposal_kept {start h h' : Timeline} (isNew : start.IsNew) (before : LifecycleRun start h)
    (run : LifecycleRun h h') (id : Nat) (counted : id ≤ h.state.proposalCount) :
    Follows (h.state.entry id) (h'.state.entry id) := by
  have horderly := run_orderly isNew.orderly before
  have hkeeps : ∀ mid call later,
      (Orderly mid.now mid.state ∧ id ≤ mid.state.proposalCount ∧
        Follows (h.state.entry id) (mid.state.entry id)) → True → lifecycleStep mid call later →
      Orderly later.now later.state ∧ id ≤ later.state.proposalCount ∧
        Follows (h.state.entry id) (later.state.entry id) := by
    rintro mid call later ⟨hmid, hcounted, hfollows⟩ - hstep
    refine ⟨step_orderly hmid hstep,
      Nat.le_trans hcounted (step_moved hmid hstep).2.count, ?_⟩
    exact hfollows.trans (step_follows hmid hstep hcounted) (horderly.pending id)
  refine (RunWhere.keeps hkeeps run ⟨horderly, counted, ?_⟩).2.2
  · have happart := horderly.apart id
    generalize h.state.entry id = e at happart ⊢
    obtain ⟨_ | p, _ | q⟩ := e
    · exact .gone _
    · exact .waits (.refl q)
    · exact .kept (.refl p) fun _ => .inl rfl
    · cases happart (by simp)

/-! ## A sample run -/

def lifeDeps : Deps :=
  { sampleDeps 1000000 with
    staked := fun _ _ => .ok [⟨"proposer", 2000000000000, 0, none⟩, ⟨"voter", 1000000, 0, none⟩] }

def lifeCall (time : Nat) (sender : Addr) (msg : LifecycleMsg) : LifecycleCall :=
  ⟨lifeDeps, ⟨time, "gov"⟩, MessageInfo.noFunds sender, msg⟩

def lifePasses : List LifecycleCall := [
  lifeCall 100 "proposer" (.vote (.submitProposal
    ⟨"Title", "Description", none, some [⟨2⟩, ⟨1⟩], none, false⟩)),
  lifeCall 200 "voter" (.vote (.castVote 1 .for_ none)),
  lifeCall 604901 "anyone" (.endProposal 1)]

def lifeReleases : List LifecycleCall := [lifeCall 604902 "anyone" (.executeProposal 1)]

def lifeStart : Option Timeline := newContract.map fun created => ⟨created, 0, []⟩

theorem lifeStart_isNew {start : Timeline} (created : lifeStart = some start) : start.IsNew := by
  obtain ⟨s, hnew, rfl⟩ := Option.map_eq_some_iff.mp created
  unfold newContract at hnew
  split at hnew
  case h_1 s' hmade =>
    obtain rfl := Option.some.inj hnew
    exact ⟨rfl, _, _, hmade⟩
  case h_2 => cases hnew

theorem lifecycle_execAll {calls : List LifecycleCall} {h h' : Timeline}
    (done : execAll LifecycleCall.exec calls h = some h') : LifecycleRun h h' :=
  execAll_run (fun _ _ _ step => step) (fun _ _ _ => trivial) done

/-- The result of the proposal under an id. -/
def Timeline.result (h : Timeline) (id : Nat) : Option ProposalStatus :=
  (h.state.entry id).1.map Proposal.status

theorem proposal_kept_executed :
    ∃ start passed executed, lifeStart = some start ∧
      execAll LifecycleCall.exec lifePasses start = some passed ∧
      execAll LifecycleCall.exec lifeReleases passed = some executed ∧
      passed.result 1 = some .passed ∧ executed.result 1 = some .executed ∧
      Follows (passed.state.entry 1) (executed.state.entry 1) := by
  have hresults : (lifeStart.bind fun start =>
      (execAll LifecycleCall.exec lifePasses start).bind fun passed =>
        (execAll LifecycleCall.exec lifeReleases passed).map fun executed =>
          (passed.result 1, executed.result 1, passed.state.proposalCount)) =
      some (some .passed, some .executed, 1) := by decide +kernel
  obtain ⟨start, hstart, hresults⟩ := Option.bind_eq_some_iff.mp hresults
  obtain ⟨passed, hpasses, hresults⟩ := Option.bind_eq_some_iff.mp hresults
  obtain ⟨executed, hreleases, hresults⟩ := Option.map_eq_some_iff.mp hresults
  have hpassed : passed.result 1 = some .passed := congrArg Prod.fst hresults
  have hexecuted : executed.result 1 = some .executed := congrArg (fun r => r.2.1) hresults
  have hcount : passed.state.proposalCount = 1 := congrArg (fun r => r.2.2) hresults
  exact ⟨start, passed, executed, hstart, hpasses, hreleases, hpassed, hexecuted,
    proposal_kept (lifeStart_isNew hstart) (lifecycle_execAll hpasses)
      (lifecycle_execAll hreleases) 1 hcount.ge⟩

/-! ## Releases -/

/-- A release of a passed proposal: it had the majority when its vote had ended, its delay is over,
    it is not expired, and its messages are released by their order with the check last. -/
structure Released.Proper (r : Released) : Prop where
  passed : r.proposal.status = .passed
  majority : Majority r.proposal
  ended : r.proposal.endBlock < r.time
  delayed : r.proposal.delayedEndBlock ≤ r.time
  unexpired : r.time ≤ r.proposal.expirationBlock
  ordered : ∃ messages : List ProposalMessage,
    r.messages = messages.map .proposal ++ [.checkMessagesPassed (some false)] ∧
    messages.Perm (r.proposal.messages.getD []) ∧ messages.Pairwise (·.order ≤ ·.order)

def Spent (e : Option Proposal × Option Proposal) : Prop :=
  e.2 = none ∧ ∀ p, e.1 = some p → p.status = .executed

theorem Follows.spent {e e' : Option Proposal × Option Proposal} (follows : Follows e e')
    (spent : Spent e) : Spent e' := by
  cases follows with
  | gone => exact ⟨rfl, fun p found => by cases found⟩
  | @kept p p' content final =>
    refine ⟨rfl, fun q found => ?_⟩
    obtain rfl := Option.some.inj found
    have hexecuted := spent.2 p rfl
    rcases final (by rw [Decided, hexecuted]; decide) with rfl | ⟨hpassed, -⟩
    · exact hexecuted
    · rw [hexecuted] at hpassed
      cases hpassed
  | waits => cases spent.1
  | opened => cases spent.1

/-- What holds of the releases: each is proper, of a proposal that is executed or removed, and no
    proposal is released twice. -/
structure Releases (h : Timeline) : Prop where
  orderly : Orderly h.now h.state
  proper : ∀ r ∈ h.released, r.Proper
  spent : ∀ r ∈ h.released, r.proposalId ≤ h.state.proposalCount ∧
    Spent (h.state.entry r.proposalId)
  once : (h.released.map Released.proposalId).Nodup

section Release

variable {h h' : Timeline} {call : LifecycleCall}

theorem step_released (orderly : Orderly h.now h.state) (step : lifecycleStep h call h') :
    h'.released = h.released ∨ ∃ r : Released, h'.released = h.released ++ [r] ∧ r.Proper ∧
      h.state.entry r.proposalId = (some r.proposal, none) ∧
      Spent (h'.state.entry r.proposalId) := by
  obtain ⟨hlater, s, messages, hdone, rfl⟩ := lifecycleStep_iff.mp step
  cases hmsg : call.msg with
  | vote msg => exact .inl (by simp only [Timeline.record, hmsg])
  | endProposal proposalId => exact .inl (by simp only [Timeline.record, hmsg])
  | removeCompletedProposal proposalId => exact .inl (by simp only [Timeline.record, hmsg])
  | executeProposal proposalId =>
    simp only [executeLifecycle, hmsg] at hdone
    obtain ⟨p, hfound, hpassed, hdelayed, hunexpired, rfl, hmessages⟩ :=
      executeProposal_spec hdone
    have hentry := entry_open orderly.apart hfound
    refine .inr ⟨⟨proposalId, call.env.blockTime, p, messages⟩, ?_, ?_, hentry, ?_⟩
    · simp only [Timeline.record, hmsg, hfound]
    · have hdecided : Decided p := by
        rw [Decided, hpassed]
        decide
      have hended := orderly.ended proposalId p hentry hdecided
      exact ⟨hpassed, orderly.majority proposalId p hentry (.inl hpassed),
        Nat.lt_of_lt_of_le hended hlater, hdelayed, hunexpired, _, hmessages,
        List.perm_insertionSort _ _, List.pairwise_insertionSort _ _⟩
    · dsimp only
      rw [entry_saveStatus, hentry]
      refine ⟨rfl, fun q found => ?_⟩
      obtain rfl := Option.some.inj found
      rfl

theorem step_releases (releases : Releases h) (step : lifecycleStep h call h') : Releases h' := by
  have hcount := (step_moved releases.orderly step).2.count
  have hspent : ∀ r ∈ h.released, r.proposalId ≤ h'.state.proposalCount ∧
      Spent (h'.state.entry r.proposalId) := by
    intro r mem
    obtain ⟨hcounted, hbefore⟩ := releases.spent r mem
    exact ⟨Nat.le_trans hcounted hcount,
      (step_follows releases.orderly step hcounted).spent hbefore⟩
  rcases step_released releases.orderly step with hsame | ⟨r, hreleased, hproper, hentry, hnow⟩
  · exact ⟨step_orderly releases.orderly step, hsame ▸ releases.proper, hsame ▸ hspent,
      hsame ▸ releases.once⟩
  · have hpassed : ∀ r' ∈ h.released, r'.proposalId ≠ r.proposalId := by
      intro r' mem same
      have hexecuted := (releases.spent r' mem).2.2 r.proposal (by rw [same, hentry])
      rw [hproper.passed] at hexecuted
      cases hexecuted
    have hcounted : r.proposalId ≤ h'.state.proposalCount := by
      by_contra beyond
      have hnone := releases.orderly.counted r.proposalId (by omega)
      rw [hentry] at hnone
      cases hnone
    refine ⟨step_orderly releases.orderly step, ?_, ?_, ?_⟩
    · rw [hreleased]
      intro r' mem
      rcases List.mem_append.mp mem with hold | hnew
      · exact releases.proper r' hold
      · exact List.mem_singleton.mp hnew ▸ hproper
    · rw [hreleased]
      intro r' mem
      rcases List.mem_append.mp mem with hold | hnew
      · exact hspent r' hold
      · exact List.mem_singleton.mp hnew ▸ ⟨hcounted, hnow⟩
    · rw [hreleased, List.map_append, List.nodup_append']
      refine ⟨releases.once, List.nodup_singleton _, ?_⟩
      rw [List.map_singleton, List.disjoint_singleton]
      intro mem
      obtain ⟨r', hold, hsame⟩ := List.mem_map.mp mem
      exact hpassed r' hold hsame

end Release

/-- In every run no proposal's messages are released twice, and a release is of a proposal that was
    passed with the majority of the votes cast after its vote had ended, when its delay was over
    and before it expired: all its messages, by their order. -/
theorem released_once {start h : Timeline} (isNew : start.IsNew) (run : LifecycleRun start h) :
    (h.released.map Released.proposalId).Nodup ∧ ∀ r ∈ h.released, r.Proper := by
  have hstart : Releases start := by
    refine ⟨isNew.orderly, ?_, ?_, ?_⟩
    · simp [isNew.1]
    · simp [isNew.1]
    · simp [isNew.1]
  have hreleases : Releases h := by
    refine RunWhere.keeps ?_ run hstart
    intro _ _ _ hbefore _ hstep
    exact step_releases hbefore hstep
  exact ⟨hreleases.once, hreleases.proper⟩

/-- The sample proposal's messages are released by their order. -/
theorem released_once_sample :
    ∃ start h, lifeStart = some start ∧
      execAll LifecycleCall.exec (lifePasses ++ lifeReleases) start = some h ∧
      h.released.map Released.messages = [[.proposal ⟨1⟩, .proposal ⟨2⟩,
        .checkMessagesPassed (some false)]] ∧
      (h.released.map Released.proposalId).Nodup ∧ ∀ r ∈ h.released, r.Proper := by
  have hreleased : (lifeStart.bind fun start =>
      (execAll LifecycleCall.exec (lifePasses ++ lifeReleases) start).map fun h =>
        h.released.map Released.messages) =
      some [[.proposal ⟨1⟩, .proposal ⟨2⟩, .checkMessagesPassed (some false)]] := by
    decide +kernel
  obtain ⟨start, hstart, hreleased⟩ := Option.bind_eq_some_iff.mp hreleased
  obtain ⟨h, hrun, hreleased⟩ := Option.map_eq_some_iff.mp hreleased
  exact ⟨start, h, hstart, hrun, hreleased,
    released_once (lifeStart_isNew hstart) (lifecycle_execAll hrun)⟩

end Membrane.Governance
