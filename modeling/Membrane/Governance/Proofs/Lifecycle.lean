import Membrane.Governance.Lifecycle
import Membrane.Governance.Proofs.Tally

/-!
# What a call does to a proposal

A proposal is opened, voted on, decided after its vote has ended, and executed or removed. What a
call can do to a proposal is one of ten moves, and each handler only makes such moves.
-/

namespace Membrane.Governance

open Outcome

/-! ## What a proposal keeps -/

structure SameTerms (p p' : Proposal) : Prop where
  submitter : p'.submitter = p.submitter
  status : p'.status = p.status
  startTime : p'.startTime = p.startTime
  endBlock : p'.endBlock = p.endBlock
  delayedEndBlock : p'.delayedEndBlock = p.delayedEndBlock
  expirationBlock : p'.expirationBlock = p.expirationBlock
  messages : p'.messages = p.messages

structure SameContent (p p' : Proposal) : Prop where
  submitter : p'.submitter = p.submitter
  startTime : p'.startTime = p.startTime
  delayedEndBlock : p'.delayedEndBlock = p.delayedEndBlock
  expirationBlock : p'.expirationBlock = p.expirationBlock
  messages : p'.messages = p.messages

namespace SameContent

variable {p p' p'' : Proposal}

theorem refl (p : Proposal) : SameContent p p := ⟨rfl, rfl, rfl, rfl, rfl⟩

theorem trans (first : SameContent p p') (second : SameContent p' p'') : SameContent p p'' where
  submitter := second.submitter.trans first.submitter
  startTime := second.startTime.trans first.startTime
  delayedEndBlock := second.delayedEndBlock.trans first.delayedEndBlock
  expirationBlock := second.expirationBlock.trans first.expirationBlock
  messages := second.messages.trans first.messages

end SameContent

namespace SameTerms

variable {p p' p'' : Proposal}

theorem content (same : SameTerms p p') : SameContent p p' :=
  ⟨same.submitter, same.startTime, same.delayedEndBlock, same.expirationBlock, same.messages⟩

theorem refl (p : Proposal) : SameTerms p p := ⟨rfl, rfl, rfl, rfl, rfl, rfl, rfl⟩

theorem trans (first : SameTerms p p') (second : SameTerms p' p'') : SameTerms p p'' where
  submitter := second.submitter.trans first.submitter
  status := second.status.trans first.status
  startTime := second.startTime.trans first.startTime
  endBlock := second.endBlock.trans first.endBlock
  delayedEndBlock := second.delayedEndBlock.trans first.delayedEndBlock
  expirationBlock := second.expirationBlock.trans first.expirationBlock
  messages := second.messages.trans first.messages

theorem setVotes (tally : Tally) (option : ProposalVoteOption) :
    SameTerms p (p.setVotes tally option) := by
  cases option <;> exact ⟨rfl, rfl, rfl, rfl, rfl, rfl, rfl⟩

end SameTerms

section Votes

variable {config : Config} {p p' : Proposal} {voter : Addr} {power : Nat}
  {option : ProposalVoteOption}

theorem removeVote_terms (done : removeVote p voter power = .ok p') : SameTerms p p' := by
  unfold removeVote at done
  split at done
  · obtain ⟨_, -, hset⟩ := bind_eq_ok.mp done
    obtain rfl := pure_eq_ok.mp hset
    exact .setVotes _ _
  · obtain rfl := pure_eq_ok.mp done
    exact .refl p

theorem addVote_terms (done : addVote p voter power option = .ok p') : SameTerms p p' := by
  obtain ⟨_, -, hset⟩ := bind_eq_ok.mp done
  obtain rfl := pure_eq_ok.mp hset
  exact .setVotes _ _

theorem alignVote_terms (done : alignVote config p voter power = .ok p') : SameTerms p p' := by
  unfold alignVote at done
  split at done
  · simp only [bind_eq_ok] at done
    obtain ⟨squared, -, added, hadd, hdamp⟩ := done
    split at hdamp
    · obtain ⟨_, -, hset⟩ := bind_eq_ok.mp hdamp
      obtain rfl := pure_eq_ok.mp hset
      exact (addVote_terms hadd).trans (.setVotes _ _)
    · obtain rfl := pure_eq_ok.mp hdamp
      exact addVote_terms hadd
  · exact addVote_terms done

end Votes

/-! ## The majority -/

def Proposal.votesCast (p : Proposal) : Nat :=
  p.forVotes.power + p.againstVotes.power + p.amendmentVotes.power + p.removalVotes.power

/-- Somebody voted, at least half of the votes are for the proposal, and 51% if it has messages to
    execute. -/
structure Majority (p : Proposal) : Prop where
  voted : 0 < p.votesCast
  half : p.votesCast ≤ 2 * p.forVotes.power
  executable : p.executes → 51 * p.votesCast ≤ 100 * p.forVotes.power

theorem majority_status {p : Proposal} {status : ProposalStatus} :
    Majority { p with status := status } ↔ Majority p :=
  ⟨fun h => ⟨h.voted, h.half, h.executable⟩, fun h => ⟨h.voted, h.half, h.executable⟩⟩

theorem totalVotes_eq {p : Proposal} {total : Nat} (done : p.totalVotes = .ok total) :
    total = p.votesCast := by
  simp only [Proposal.totalVotes, bind_eq_ok, Uint128.add_eq_ok] at done
  obtain ⟨_, ⟨-, rfl⟩, _, ⟨-, rfl⟩, -, rfl⟩ := done
  rfl

theorem validate_threshold {config : Config} (valid : config.validate = .ok ⟨⟩) :
    Decimal.percent 51 ≤ config.proposalRequiredThreshold := by
  simp only [Config.validate, bind_eq_ok, guardErr_eq_ok] at valid
  obtain ⟨_, hthreshold, -⟩ := valid
  exact Nat.not_lt.mp fun hless => hthreshold (.inr hless)

theorem percent_le_ratio {percent part total : Nat} (some : 0 < total)
    (le : Decimal.percent percent ≤ ⟨part * Decimal.fractional / total⟩) :
    percent * total ≤ 100 * part := by
  have hle : percent * 10000000000000000 * total ≤ part * 1000000000000000000 :=
    (Nat.le_div_iff_mul_le some).mp le
  refine Nat.le_of_mul_le_mul_right (c := 10000000000000000) ?_ (by decide)
  calc percent * total * 10000000000000000 = percent * 10000000000000000 * total :=
        Nat.mul_right_comm _ _ _
    _ ≤ part * 1000000000000000000 := hle
    _ = 100 * part * 10000000000000000 := by omega

theorem voteShares_majority {config : Config} {p : Proposal} {shares : Shares}
    (threshold : Decimal.percent 51 ≤ config.proposalRequiredThreshold)
    (done : voteShares config p.votesCast p = .ok shares)
    (passes : shares.required ≤ shares.passes) :
    Majority p := by
  unfold voteShares at done
  split at done
  · obtain rfl := pure_eq_ok.mp done
    have hzero : config.proposalRequiredThreshold.atomics ≤ 0 := passes
    have hsome : 510000000000000000 ≤ config.proposalRequiredThreshold.atomics := threshold
    omega
  · rename_i hvoted
    simp only [bind_eq_ok, Decimal.fromRatio_eq_ok] at done
    obtain ⟨share, ⟨-, -, rfl⟩, _, -, _, -, _, -, hshares⟩ := done
    obtain rfl := pure_eq_ok.mp hshares
    have hsome : 0 < p.votesCast := Nat.pos_of_ne_zero hvoted
    dsimp only at passes
    refine ⟨hsome, ?_, fun executes => ?_⟩
    · have hhalf : 50 * p.votesCast ≤ 100 * p.forVotes.power := by
        refine percent_le_ratio hsome ?_
        split at passes
        · refine Nat.le_trans ?_ passes
          exact Nat.le_trans (by decide) threshold
        · exact passes
      omega
    · rw [if_pos executes] at passes
      exact percent_le_ratio hsome (Nat.le_trans threshold passes)

/-! ## What a call does to one proposal -/

/-- What is stored under an id: the open proposal and the pending one. -/
def State.entry (s : State) (id : Nat) : Option Proposal × Option Proposal :=
  (s.proposals.lookup id, s.pendingProposals.lookup id)

def Decided (p : Proposal) : Prop := p.status ≠ .active

/-- A move of one proposal by a call at a time, of a new one only where it is fresh. -/
inductive Move (fresh : Prop) (t : Nat) :
    Option Proposal × Option Proposal → Option Proposal × Option Proposal → Prop
  | stays (e) : Move fresh t e e
  | opens {p} (isFresh : fresh) (active : p.status = .active) :
      Move fresh t (none, none) (some p, none)
  | waits {p} (isFresh : fresh) (active : p.status = .active) :
      Move fresh t (none, none) (none, some p)
  | voted {p p'} (inTime : t ≤ p.endBlock) (same : SameTerms p p') :
      Move fresh t (some p, none) (some p', none)
  | aligned {p p'} (same : SameTerms p p') : Move fresh t (none, some p) (none, some p')
  | activated {p p'} (same : SameTerms p p') : Move fresh t (none, some p) (some p', none)
  | ends {p p'} (active : p.status = .active) (ended : p.endBlock < t) (content : SameContent p p')
      (decided : Decided p' → p'.endBlock = p.endBlock)
      (majority : p'.status = .passed → Majority p')
      (notExecuted : p'.status ≠ .executed) : Move fresh t (some p, none) (some p', none)
  | executes {p} (passed : p.status = .passed) (delayed : p.delayedEndBlock ≤ t)
      (unexpired : t ≤ p.expirationBlock) :
      Move fresh t (some p, none) (some { p with status := .executed }, none)
  | removed (p) : Move fresh t (some p, none) (none, none)
  | expires (p) : Move fresh t (none, some p) (none, none)

theorem Move.mono {fresh : Prop} {t : Nat} {e e' : Option Proposal × Option Proposal}
    (move : Move False t e e') : Move fresh t e e' := by
  cases move with
  | stays => exact .stays _
  | opens isFresh => exact isFresh.elim
  | waits isFresh => exact isFresh.elim
  | voted inTime same => exact .voted inTime same
  | aligned same => exact .aligned same
  | activated same => exact .activated same
  | ends active ended content decided majority notExecuted =>
    exact .ends active ended content decided majority notExecuted
  | executes passed delayed unexpired => exact .executes passed delayed unexpired
  | removed p => exact .removed p
  | expires p => exact .expires p

/-- What a call does to the proposals: each makes a move, and a new one has the next id. -/
structure Moved (t : Nat) (s s' : State) : Prop where
  count : s.proposalCount ≤ s'.proposalCount
  moves : ∀ id, Move (s.proposalCount < id ∧ id = s'.proposalCount) t (s.entry id) (s'.entry id)
  threshold : Decimal.percent 51 ≤ s.config.proposalRequiredThreshold →
    Decimal.percent 51 ≤ s'.config.proposalRequiredThreshold

section Moves

variable {t id : Nat} {s s' : State}

theorem moved_one (id : Nat) (move : Move False t (s.entry id) (s'.entry id))
    (others : ∀ other, other ≠ id → s'.entry other = s.entry other)
    (count : s'.proposalCount = s.proposalCount) (config : s'.config = s.config) :
    Moved t s s' := by
  refine ⟨count.ge, fun other => ?_, fun threshold => config ▸ threshold⟩
  by_cases same : other = id
  · exact same ▸ move.mono
  · rw [others other same]
    exact .stays _

theorem entry_saveStatus_ne {p : Proposal} {status : ProposalStatus} {other : Nat}
    (ne : other ≠ id) : (saveStatus s id p status).entry other = s.entry other := by
  simp [State.entry, saveStatus, AList.lookup_insert_ne ne]

theorem entry_saveStatus {p : Proposal} {status : ProposalStatus} :
    (saveStatus s id p status).entry id = (some { p with status := status }, (s.entry id).2) := by
  simp [State.entry, saveStatus]

theorem entry_removed : State.entry { s with proposals := s.proposals.erase id } id =
    (none, (s.entry id).2) := by
  rw [State.entry, AList.lookup_erase]
  rfl

theorem entry_removed_ne {other : Nat} (ne : other ≠ id) :
    State.entry { s with proposals := s.proposals.erase id } other = s.entry other := by
  rw [State.entry, State.entry, AList.lookup_erase_ne ne]

theorem entry_open {p : Proposal} (apart : ∀ id, (s.entry id).1 ≠ none → (s.entry id).2 = none)
    (found : s.proposals.lookup id = some p) : s.entry id = (some p, none) := by
  refine Prod.ext found (apart id ?_)
  simp [State.entry, found]

theorem proposalQuorum_terms {config : Config} {votes power : Nat} {p p' : Proposal}
    {quorum : Decimal} (done : proposalQuorum config votes power p = .ok (p', quorum)) :
    SameTerms p p' ∧ p'.forVotes = p.forVotes ∧ p'.votesCast = p.votesCast := by
  unfold proposalQuorum at done
  split at done
  · cases pure_eq_ok.mp done
    exact ⟨.refl p, rfl, rfl⟩
  · simp only [bind_eq_ok] at done
    obtain ⟨counted, hcounted, _, -, _, -, hmade⟩ := done
    cases pure_eq_ok.mp hmade
    split at hcounted
    · simp only [rootAligned, bind_eq_ok] at hcounted
      obtain ⟨_, -, _, -, _, -, hset⟩ := hcounted
      cases pure_eq_ok.mp hset
      exact ⟨⟨rfl, rfl, rfl, rfl, rfl, rfl, rfl⟩, rfl, rfl⟩
    · cases pure_eq_ok.mp hcounted
      exact ⟨.refl p, rfl, rfl⟩

theorem endProposal_moves {deps : Deps} {env : Env}
    (apart : ∀ id, (s.entry id).1 ≠ none → (s.entry id).2 = none)
    (threshold : Decimal.percent 51 ≤ s.config.proposalRequiredThreshold)
    (done : endProposal deps env id s = .ok s') :
    Moved env.blockTime s s' := by
  simp only [endProposal, bind_eq_ok, guardErr_eq_ok, State.loadProposals, ofOption_eq_ok] at done
  obtain ⟨p, hfound, _, hactive, _, hended, votes, hvotes, power, -, ⟨p', quorum⟩, hquorum, shares,
    hshares, hdecide⟩ := done
  obtain ⟨hterms, hfor, hcast⟩ := proposalQuorum_terms hquorum
  obtain rfl := totalVotes_eq hvotes
  have hactive : p.status = .active := not_not.mp hactive
  have hended : p.endBlock < env.blockTime := Nat.not_le.mp hended
  have hentry := entry_open apart hfound
  -- each result but the removal stores the proposal with a status
  have hstores : ∀ {q : Proposal} {status : ProposalStatus}, SameContent p q →
      (status ≠ .active → q.endBlock = p.endBlock) → (status = .passed → Majority q) →
      status ≠ .executed → s' = saveStatus s id q status →
      Moved env.blockTime s s' := by
    rintro q status hcontent hend hmajority hexecuted rfl
    refine moved_one id ?_ (fun other ne => entry_saveStatus_ne ne) rfl rfl
    rw [entry_saveStatus, hentry]
    have hsame : SameContent p { q with status := status } :=
      hcontent.trans ⟨rfl, rfl, rfl, rfl, rfl⟩
    exact .ends hactive hended hsame hend (fun passed => majority_status.mpr (hmajority passed))
      hexecuted
  unfold decideProposal at hdecide
  split at hdecide
  · split at hdecide
    · rename_i hpasses
      refine hstores hterms.content (fun _ => hterms.endBlock) (fun _ => ?_) (by decide)
        (pure_eq_ok.mp hdecide).symm
      rw [← hcast] at hshares
      exact voteShares_majority threshold hshares hpasses
    · split at hdecide
      · exact hstores hterms.content (fun _ => hterms.endBlock) (fun h => by cases h) (by decide)
          (pure_eq_ok.mp hdecide).symm
      · split at hdecide
        · obtain rfl := pure_eq_ok.mp hdecide
          refine moved_one id ?_ (fun other ne => entry_removed_ne ne) rfl rfl
          rw [entry_removed, hentry]
          exact .removed p
        · exact hstores hterms.content (fun _ => hterms.endBlock) (fun h => by cases h) (by decide)
            (pure_eq_ok.mp hdecide).symm
  · simp only [bind_eq_ok] at hdecide
    obtain ⟨_, -, _, -, hdecide⟩ := hdecide
    split at hdecide
    · simp only [bind_eq_ok] at hdecide
      obtain ⟨_, -, endBlock, -, extended, hextended, hsave⟩ := hdecide
      have hcontent : SameContent p extended := by
        refine hterms.content.trans ?_
        split at hextended
        · simp only [unrootAligned, bind_eq_ok] at hextended
          obtain ⟨_, -, _, -, _, -, hset⟩ := hextended
          cases pure_eq_ok.mp hset
          exact ⟨rfl, rfl, rfl, rfl, rfl⟩
        · cases pure_eq_ok.mp hextended
          exact ⟨rfl, rfl, rfl, rfl, rfl⟩
      exact hstores hcontent (fun h => absurd rfl h) (fun h => by cases h) (by decide)
        (pure_eq_ok.mp hsave).symm
    · exact hstores hterms.content (fun _ => hterms.endBlock) (fun h => by cases h) (by decide)
        (pure_eq_ok.mp hdecide).symm

theorem executeProposal_spec {env : Env} {messages : List ReleasedMsg}
    (done : executeProposal env id s = .ok (s', messages)) :
    ∃ p, s.proposals.lookup id = some p ∧ p.status = .passed ∧ p.delayedEndBlock ≤ env.blockTime ∧
      env.blockTime ≤ p.expirationBlock ∧ s' = saveStatus s id p .executed ∧
      messages = ((p.messages.getD []).insertionSort fun a b => a.order ≤ b.order).map
        ReleasedMsg.proposal ++ [.checkMessagesPassed (some false)] := by
  simp only [executeProposal, bind_eq_ok, guardErr_eq_ok, State.loadProposals,
    ofOption_eq_ok] at done
  obtain ⟨p, hfound, _, hpassed, _, hdelayed, _, hunexpired, hsave⟩ := done
  cases pure_eq_ok.mp hsave
  exact ⟨p, hfound, not_not.mp hpassed, Nat.not_lt.mp hdelayed, Nat.not_lt.mp hunexpired, rfl, rfl⟩

theorem executeProposal_moves {env : Env} {messages : List ReleasedMsg}
    (apart : ∀ id, (s.entry id).1 ≠ none → (s.entry id).2 = none)
    (done : executeProposal env id s = .ok (s', messages)) :
    Moved env.blockTime s s' := by
  obtain ⟨p, hfound, hpassed, hdelayed, hunexpired, rfl, -⟩ := executeProposal_spec done
  refine moved_one id ?_ (fun other ne => entry_saveStatus_ne ne) rfl rfl
  rw [entry_saveStatus, entry_open apart hfound]
  exact .executes hpassed hdelayed hunexpired

theorem removeCompletedProposal_moves {env : Env} {info : MessageInfo}
    (apart : ∀ id, (s.entry id).1 ≠ none → (s.entry id).2 = none)
    (done : removeCompletedProposal env info id s = .ok s') :
    Moved env.blockTime s s' := by
  simp only [removeCompletedProposal, bind_eq_ok, liftContract_eq_ok] at done
  obtain ⟨⟨pending, p⟩, hload, expires, -, hrest⟩ := done
  -- a removal from the open proposals removes nothing where the proposal is pending
  have hremoved : s' = { s with proposals := s.proposals.erase id } →
      Moved env.blockTime s s' := by
    rintro rfl
    refine moved_one id ?_ (fun other ne => entry_removed_ne ne) rfl rfl
    rcases loadProposal_spec hload with ⟨-, hfound⟩ | ⟨-, habsent, hfound⟩
    · rw [entry_removed, entry_open apart hfound]
      exact .removed p
    · have hentry : s.entry id = (none, some p) := Prod.ext habsent hfound
      rw [entry_removed, hentry]
      exact .stays _
  dsimp only at hrest
  generalize (if expires < env.blockTime then ProposalStatus.expired else p.status) =
    status at hrest
  split at hrest
  · rename_i hexpired
    obtain rfl := pure_eq_ok.mp hrest
    rcases loadProposal_spec hload with ⟨rfl, -⟩ | ⟨-, habsent, hfound⟩
    · cases hexpired.2
    · refine moved_one id ?_ (fun other ne => ?_) rfl rfl
      · have hentry : s.entry id = (none, some p) := Prod.ext habsent hfound
        have hgone : State.entry { s with pendingProposals := s.pendingProposals.erase id } id =
            (none, none) := by
          rw [State.entry, AList.lookup_erase]
          exact congrArg (fun open_ => (open_, none)) habsent
        rw [hgone, hentry]
        exact .expires p
      · rw [State.entry, State.entry, AList.lookup_erase_ne ne]
  · split at hrest
    · exact hremoved (pure_eq_ok.mp hrest).symm
    · split at hrest
      · exact hremoved (pure_eq_ok.mp hrest).symm
      · cases hrest

theorem castVote_moves {deps : Deps} {env : Env} {info : MessageInfo} {option : ProposalVoteOption}
    {recipient : Option String} (apart : ∀ id, (s.entry id).1 ≠ none → (s.entry id).2 = none)
    (done : castVote deps env info id option recipient s = .ok s') :
    Moved env.blockTime s s' := by
  simp only [castVote, bind_eq_ok, guardErr_eq_ok, liftStd_eq_ok] at done
  obtain ⟨⟨pending, p⟩, hload, _, -, _, -, _, hopen, power, -, _, -, mid, hmid, hrest⟩ := done
  have hintime : env.blockTime ≤ p.endBlock := Nat.not_lt.mp hopen
  -- the proposal is stored where it was, or a pending one becomes open
  have hsaves : ∀ {p'}, SameTerms p p' → s' = saveProposal s id pending p' →
      Moved env.blockTime s s' := by
    rintro p' hsame rfl
    rcases loadProposal_spec hload with ⟨rfl, hfound⟩ | ⟨rfl, habsent, hfound⟩
    · refine moved_one id ?_ (fun other ne => ?_) rfl rfl
      · have hentry : (saveProposal s id false p').entry id = (some p', (s.entry id).2) := by
          simp [saveProposal, State.entry]
        rw [hentry, entry_open apart hfound]
        exact .voted hintime hsame
      · simp [saveProposal, State.entry, AList.lookup_insert_ne ne]
    · refine moved_one id ?_ (fun other ne => ?_) rfl rfl
      · have hentry : (saveProposal s id true p').entry id = ((s.entry id).1, some p') := by
          simp [saveProposal, State.entry]
        have hbefore : s.entry id = (none, some p) := Prod.ext habsent hfound
        rw [hentry, hbefore]
        exact .aligned hsame
      · simp [saveProposal, State.entry, AList.lookup_insert_ne ne]
  have hactivates : ∀ {p'}, SameTerms p p' → s' = activateProposal s id p' →
      Moved env.blockTime s s' := by
    rintro p' hsame rfl
    refine moved_one id ?_ (fun other ne => ?_) rfl rfl
    · have hentry : (activateProposal s id p').entry id = (some p', none) := by
        simp [activateProposal, State.entry]
      rw [hentry]
      rcases loadProposal_spec hload with ⟨-, hfound⟩ | ⟨-, habsent, hfound⟩
      · rw [entry_open apart hfound]
        exact .voted hintime hsame
      · have hbefore : s.entry id = (none, some p) := Prod.ext habsent hfound
        rw [hbefore]
        exact .activated hsame
    · simp [activateProposal, State.entry, AList.lookup_insert_ne ne, AList.lookup_erase_ne ne]
  have hback := removeVote_terms hmid
  cases option with
  | align =>
    simp only [bind_eq_ok] at hrest
    obtain ⟨p', halign, hsave⟩ := hrest
    have hsame := hback.trans (alignVote_terms halign)
    split at hsave
    · exact hactivates hsame (pure_eq_ok.mp hsave).symm
    · exact hsaves hsame (pure_eq_ok.mp hsave).symm
  | for_ | against | amend | remove =>
    simp only [bind_eq_ok] at hrest
    obtain ⟨_, -, p', hadd, hsave⟩ := hrest
    exact hsaves (hback.trans (addVote_terms hadd)) (pure_eq_ok.mp hsave).symm

theorem submitProposal_moves {deps : Deps} {env : Env} {info : MessageInfo} {msg : SubmitProposal}
    (counted : ∀ id, s.proposalCount < id → s.entry id = (none, none))
    (done : submitProposal deps env info msg s = .ok s') : Moved env.blockTime s s' := by
  simp only [submitProposal, bind_eq_ok] at done
  obtain ⟨_, -, _, -, ⟨_, _⟩, -, _, -, count, hcount, _, -, _, -, _, -, _, -, _, -, _, -, hrest⟩ :=
    done
  have hnext : count = s.proposalCount + 1 := by
    split at hcount
    · exact (pure_eq_ok.mp hcount).symm
    · cases hcount
  subst hnext
  have hfresh := counted (s.proposalCount + 1) (Nat.lt_succ_self _)
  split at hrest
  · obtain ⟨endBlock, -, hsave⟩ := bind_eq_ok.mp hrest
    obtain rfl := pure_eq_ok.mp hsave
    refine ⟨Nat.le_succ _, fun other => ?_, fun threshold => threshold⟩
    by_cases same : other = s.proposalCount + 1
    · subst same
      have hopen : s.proposals.lookup (s.proposalCount + 1) = none := congrArg Prod.fst hfresh
      rw [hfresh]
      simp only [State.entry, AList.lookup_insert, hopen]
      exact .waits ⟨Nat.lt_succ_self _, trivial⟩ rfl
    · simp only [State.entry, AList.lookup_insert_ne same]
      exact .stays _
  · obtain rfl := pure_eq_ok.mp hrest
    refine ⟨Nat.le_succ _, fun other => ?_, fun threshold => threshold⟩
    by_cases same : other = s.proposalCount + 1
    · subst same
      have hpending : s.pendingProposals.lookup (s.proposalCount + 1) = none :=
        congrArg Prod.snd hfresh
      rw [hfresh]
      simp only [State.entry, AList.lookup_insert, hpending]
      exact .opens ⟨Nat.lt_succ_self _, trivial⟩ rfl
    · simp only [State.entry, AList.lookup_insert_ne same]
      exact .stays _

theorem updateConfig_moves {deps : Deps} {env : Env} {info : MessageInfo} {update : UpdateConfig}
    {t : Nat} (done : updateConfig deps env info update s = .ok s') : Moved t s s' := by
  simp only [updateConfig, bind_eq_ok, liftStd_eq_ok] at done
  obtain ⟨_, -, _, -, _, -, _, -, _, -, _, -, _, -, _, hvalid, hsave⟩ := done
  obtain rfl := pure_eq_ok.mp hsave
  exact ⟨Nat.le_refl _, fun other => .stays _, fun _ => validate_threshold hvalid⟩

end Moves

end Membrane.Governance
