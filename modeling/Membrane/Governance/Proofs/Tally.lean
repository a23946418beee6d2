import Mathlib.Algebra.BigOperators.Group.List.Lemmas
import Membrane.Lib.Run
import Membrane.Governance.Contract

/-!
# The tally of votes

A vote is not stored with its power, so taking a vote back subtracts the voter's
present power. A history beside the state records the power that each vote was
cast with; the tally of an option is the sum of its voters' recorded powers as
long as no voter whose vote is taken back has another power by then.
-/

namespace Membrane.Governance

open Outcome ProposalVoteOption

/-- The contract with the power of each address's last vote on each proposal. -/
structure History where
  state : State
  contributed : Nat → Addr → Nat

def powerCast (call : Call) (proposalId : Nat) (recipient : Option String) (s : State) :
    Result Nat := do
  let (_, proposal) ← loadProposal s proposalId
  liftStd (votePower call.deps s.config call.info recipient proposal)

def recorded (h : History) (call : Call) : Nat → Addr → Nat :=
  match call.msg with
  | .castVote proposalId _ recipient =>
    match powerCast call proposalId recipient h.state with
    | .ok power => fun id voter =>
      if id = proposalId ∧ voter = call.info.sender then power else h.contributed id voter
    | .error _ => h.contributed
  | _ => h.contributed

/-- A successful call, recorded. -/
def Call.exec (h : History) (call : Call) : Option History :=
  match execute call.deps call.env call.info call.msg h.state with
  | .ok s => some ⟨s, recorded h call⟩
  | .error _ => none

/-- A step of the contract. -/
def callStep (h : History) (call : Call) (h' : History) : Prop := Call.exec h call = some h'

/-! ## Voters -/

/-- An address is in at most one of the lists of voters, and there once. -/
structure VotesOnce (p : Proposal) : Prop where
  nodup : ∀ option, (p.votes option).voters.Nodup
  apart : ∀ option option' voter, voter ∈ (p.votes option).voters →
    voter ∈ (p.votes option').voters → option = option'

def Tallied (contributed : Addr → Nat) (p : Proposal) : Prop :=
  ∀ option, option ≠ align →
    (p.votes option).power = ((p.votes option).voters.map contributed).sum

def Unopened (p : Proposal) : Prop := ∀ option, option ≠ align → p.votes option = ⟨0, []⟩

theorem Unopened.tallied {p : Proposal} (unopened : Unopened p) (contributed : Addr → Nat) :
    Tallied contributed p := by
  intro option hoption
  rw [unopened option hoption]
  rfl

theorem Tallied.congr {contributed contributed' : Addr → Nat} {p : Proposal}
    (tallied : Tallied contributed p)
    (same : ∀ option voter, voter ∈ (p.votes option).voters →
      contributed' voter = contributed voter) : Tallied contributed' p := by
  intro option hoption
  rw [tallied option hoption]
  exact congrArg List.sum (List.map_congr_left fun voter hmem => (same option voter hmem).symm)

/-! ## Taking a vote back -/

theorem votedFor_eq_some {p : Proposal} {voter : Addr} {option : ProposalVoteOption}
    (found : p.votedFor voter = some option) : voter ∈ (p.votes option).voters := by
  simpa using List.find?_some found

theorem votedFor_eq_none {p : Proposal} {voter : Addr} (absent : p.votedFor voter = none)
    (option : ProposalVoteOption) : voter ∉ (p.votes option).voters := by
  have hall := List.find?_eq_none.mp absent option (by cases option <;> simp)
  simpa using hall

/-- What taking a vote back leaves: the voter is in no list, the others are where they
    were, and an option loses the power given for its voter. -/
structure TakenBack (p p' : Proposal) (voter : Addr) (power : Nat) : Prop where
  voters : ∀ option, (p'.votes option).voters = (p.votes option).voters.erase voter
  lost : ∀ option, voter ∈ (p.votes option).voters →
    power ≤ (p.votes option).power ∧ (p'.votes option).power = (p.votes option).power - power
  kept : ∀ option, voter ∉ (p.votes option).voters →
    (p'.votes option).power = (p.votes option).power

theorem removeVote_spec {p p' : Proposal} {voter : Addr} {power : Nat} (once : VotesOnce p)
    (done : removeVote p voter power = .ok p') : TakenBack p p' voter power := by
  unfold removeVote at done
  split at done
  case h_1 voted hvoted =>
    have hmem := votedFor_eq_some hvoted
    simp only [bind_eq_ok, checkedSub_eq_ok, pure_eq_ok] at done
    obtain ⟨_, ⟨hle, rfl⟩, rfl⟩ := done
    refine ⟨fun option => ?_, fun option hoption => ?_, fun option hoption => ?_⟩
    · rw [Proposal.votes_setVotes]
      by_cases h : option = voted
      · rw [if_pos h, h]
      · have habsent : voter ∉ (p.votes option).voters :=
          fun hother => h (once.apart option voted voter hother hmem)
        rw [if_neg h, List.erase_of_not_mem habsent]
    · obtain rfl := once.apart option voted voter hoption hmem
      rw [Proposal.votes_setVotes_same]
      exact ⟨hle, rfl⟩
    · have h : option ≠ voted := fun heq => hoption (heq ▸ hmem)
      rw [Proposal.votes_setVotes, if_neg h]
  case h_2 hnone =>
    rw [pure_eq_ok] at done
    subst done
    refine ⟨fun option => ?_, fun option hoption => ?_, fun _ _ => rfl⟩
    · rw [List.erase_of_not_mem (votedFor_eq_none hnone option)]
    · exact absurd hoption (votedFor_eq_none hnone option)

theorem TakenBack.absent {p p' : Proposal} {voter : Addr} {power : Nat}
    (taken : TakenBack p p' voter power) (once : VotesOnce p) (option : ProposalVoteOption) :
    voter ∉ (p'.votes option).voters := by
  rw [taken.voters option]
  exact (once.nodup option).not_mem_erase

theorem TakenBack.once {p p' : Proposal} {voter : Addr} {power : Nat}
    (taken : TakenBack p p' voter power) (once : VotesOnce p) : VotesOnce p' where
  nodup option := by
    rw [taken.voters option]
    exact (once.nodup option).erase voter
  apart option option' other hmem hmem' := by
    rw [taken.voters] at hmem hmem'
    exact once.apart option option' other (List.mem_of_mem_erase hmem) (List.mem_of_mem_erase hmem')

theorem TakenBack.tallied {p p' : Proposal} {voter : Addr} {power : Nat}
    {contributed : Addr → Nat} (taken : TakenBack p p' voter power)
    (tallied : Tallied contributed p)
    (same : ∀ option, option ≠ align → voter ∈ (p.votes option).voters →
      power = contributed voter) : Tallied contributed p' := by
  intro option hoption
  rw [taken.voters option]
  by_cases hmem : voter ∈ (p.votes option).voters
  · obtain ⟨-, hpower⟩ := taken.lost option hmem
    have hsum := List.sum_map_erase contributed hmem
    rw [hpower, tallied option hoption, ← hsum, same option hoption hmem]
    omega
  · rw [taken.kept option hmem, tallied option hoption, List.erase_of_not_mem hmem]

/-! ## Adding a vote -/

/-- What adding a vote does: the voter joins one list, and an option other than alignment
    gains the vote's power. -/
structure VoteAdded (p p' : Proposal) (voter : Addr) (power : Nat) (option : ProposalVoteOption) :
    Prop where
  voters : ∀ option', (p'.votes option').voters =
    if option' = option then (p.votes option).voters ++ [voter] else (p.votes option').voters
  power : ∀ option', option' ≠ align → (p'.votes option').power =
    if option' = option then (p.votes option).power + power else (p.votes option').power

theorem addVote_spec {p p' : Proposal} {voter : Addr} {power : Nat} {option : ProposalVoteOption}
    (done : addVote p voter power option = .ok p') : VoteAdded p p' voter power option := by
  simp only [addVote, bind_eq_ok, checkedAdd_eq_ok, pure_eq_ok] at done
  obtain ⟨_, ⟨-, rfl⟩, rfl⟩ := done
  refine ⟨fun option' => ?_, fun option' _ => ?_⟩
  · rw [Proposal.votes_setVotes]
    split <;> rfl
  · rw [Proposal.votes_setVotes]
    split <;> rfl

theorem alignVote_spec {config : Config} {p p' : Proposal} {voter : Addr} {power : Nat}
    (done : alignVote config p voter power = .ok p') : VoteAdded p p' voter power align := by
  have hother : ∀ {q : Proposal} {added : Nat}, VoteAdded p q voter added align →
      VoteAdded p q voter power align := fun hadded => ⟨hadded.voters, fun option' hne => by
    rw [hadded.power option' hne, if_neg hne, if_neg hne]⟩
  unfold alignVote at done
  split at done
  case isTrue =>
    simp only [bind_eq_ok] at done
    obtain ⟨squared, -, q, hadd, done⟩ := done
    have hadded := hother (addVote_spec hadd)
    split at done
    case isTrue =>
      simp only [bind_eq_ok, pure_eq_ok] at done
      obtain ⟨damped, -, rfl⟩ := done
      refine ⟨fun option' => ?_, fun option' hne => ?_⟩
      · rw [← hadded.voters option', Proposal.votes_setVotes]
        split
        case isTrue h => rw [h]; rfl
        case isFalse => rfl
      · rw [Proposal.votes_setVotes, if_neg hne]
        exact hadded.power option' hne
    case isFalse =>
      rw [pure_eq_ok] at done
      exact done ▸ hadded
  case isFalse => exact addVote_spec done

theorem VoteAdded.once {p p' : Proposal} {voter : Addr} {power : Nat} {option : ProposalVoteOption}
    (added : VoteAdded p p' voter power option) (once : VotesOnce p)
    (absent : ∀ option', voter ∉ (p.votes option').voters) : VotesOnce p' where
  nodup option' := by
    rw [added.voters option']
    split
    case isTrue =>
      rw [List.nodup_append]
      refine ⟨once.nodup option, by simp, fun other hmem other' hmem' heq => ?_⟩
      obtain rfl : other' = voter := by simpa using hmem'
      exact absent option (heq ▸ hmem)
    case isFalse => exact once.nodup option'
  apart option₁ option₂ other hmem₁ hmem₂ := by
    rw [added.voters] at hmem₁ hmem₂
    by_cases hvoter : other = voter
    · subst hvoter
      have hoption : ∀ o, other ∈ (if o = option then (p.votes option).voters ++ [other]
          else (p.votes o).voters) → o = option := by
        intro o hmem
        by_contra hne
        rw [if_neg hne] at hmem
        exact absent o hmem
      rw [hoption option₁ hmem₁, hoption option₂ hmem₂]
    · have hold : ∀ o, other ∈ (if o = option then (p.votes option).voters ++ [voter]
          else (p.votes o).voters) → other ∈ (p.votes o).voters := by
        intro o hmem
        split at hmem
        case isTrue heq => simpa [heq, hvoter] using hmem
        case isFalse => exact hmem
      exact once.apart option₁ option₂ other (hold option₁ hmem₁) (hold option₂ hmem₂)

theorem VoteAdded.tallied {p p' : Proposal} {voter : Addr} {power : Nat}
    {option : ProposalVoteOption} {contributed contributed' : Addr → Nat}
    (added : VoteAdded p p' voter power option)
    (absent : ∀ option', voter ∉ (p.votes option').voters) (tallied : Tallied contributed p)
    (mine : contributed' voter = power)
    (others : ∀ other, other ≠ voter → contributed' other = contributed other) :
    Tallied contributed' p' := by
  have hsame : Tallied contributed' p := tallied.congr fun option' other hmem =>
    others other fun heq => absent option' (heq ▸ hmem)
  intro option' hoption'
  rw [added.voters option', added.power option' hoption']
  split
  case isTrue heq =>
    subst heq
    rw [hsame option' hoption', List.map_append, List.sum_append]
    simp [mine]
  case isFalse => exact hsame option' hoption'

/-! ## What a call does to the proposals -/

/-- What a successful vote does: the proposal it is cast on is stored again, with the
    voter's previous vote taken back and the new one added. -/
structure Voted (call : Call) (proposalId : Nat) (option : ProposalVoteOption)
    (recipient : Option String) (s s' : State) (p p' : Proposal) (pending : Bool) (power : Nat) :
    Prop where
  loaded : loadProposal s proposalId = .ok (pending, p)
  cast : powerCast call proposalId recipient s = .ok power
  counted : ∃ mid, removeVote p call.info.sender power = .ok mid ∧
    VoteAdded mid p' call.info.sender power option
  open_ : option ≠ align → pending = false
  stored : s' = saveProposal s proposalId pending p' ∨
    (option = align ∧ s' = activateProposal s proposalId p')

theorem castVote_spec {call : Call} {proposalId : Nat} {option : ProposalVoteOption}
    {recipient : Option String} {s s' : State}
    (done : castVote call.deps call.env call.info proposalId option recipient s = .ok s') :
    ∃ p p' pending power, Voted call proposalId option recipient s s' p p' pending power := by
  simp only [castVote, bind_eq_ok, guardErr_eq_ok, liftStd_eq_ok] at done
  obtain ⟨⟨pending, p⟩, hload, _, -, _, -, _, -, power, hpower, _, -, mid, hmid, done⟩ := done
  have hcast : powerCast call proposalId recipient s = .ok power := by
    simp only [powerCast, bind_eq_ok, liftStd_eq_ok]
    exact ⟨(pending, p), hload, hpower⟩
  cases option with
  | align =>
    simp only [bind_eq_ok] at done
    obtain ⟨p', halign, done⟩ := done
    have hadded := alignVote_spec halign
    split at done
    case isTrue =>
      rw [pure_eq_ok] at done
      exact ⟨p, p', pending, power, hload, hcast, ⟨mid, hmid, hadded⟩, absurd rfl,
        .inr ⟨rfl, done.symm⟩⟩
    case isFalse =>
      rw [pure_eq_ok] at done
      exact ⟨p, p', pending, power, hload, hcast, ⟨mid, hmid, hadded⟩, absurd rfl,
        .inl done.symm⟩
  | for_ | against | amend | remove =>
    simp only [bind_eq_ok, guardErr_eq_ok, pure_eq_ok] at done
    obtain ⟨_, hopen, p', hadd, rfl⟩ := done
    exact ⟨p, p', pending, power, hload, hcast, ⟨mid, hmid, addVote_spec hadd⟩,
      fun _ => by simpa using hopen, .inl rfl⟩

/-- What a new proposal is: nobody has voted, and only its submitter is aligned. -/
structure Submitted (p : Proposal) (submitter : Addr) : Prop where
  unopened : Unopened p
  aligned : p.alignedVotes.voters = [submitter]

theorem Submitted.once {p : Proposal} {submitter : Addr} (submitted : Submitted p submitter) :
    VotesOnce p where
  nodup option := by
    by_cases h : option = align
    · subst h
      change (p.alignedVotes.voters).Nodup
      simp [submitted.aligned]
    · simp [submitted.unopened option h]
  apart option option' voter hmem hmem' := by
    have hoption : ∀ o, voter ∈ (p.votes o).voters → o = align := by
      intro o hmem
      by_contra hne
      rw [submitted.unopened o hne] at hmem
      cases hmem
    rw [hoption option hmem, hoption option' hmem']

theorem submitProposal_spec {deps : Deps} {env : Env} {info : MessageInfo} {msg : SubmitProposal}
    {s s' : State} (done : submitProposal deps env info msg s = .ok s') :
    ∃ p, Submitted p info.sender ∧
      ((s'.proposals = s.proposals ∧
          s'.pendingProposals = s.pendingProposals.insert s'.proposalCount p) ∨
        (s'.pendingProposals = s.pendingProposals ∧
          s'.proposals = s.proposals.insert s'.proposalCount p)) := by
  simp only [submitProposal, bind_eq_ok] at done
  obtain ⟨_, -, _, -, ⟨_, _⟩, -, _, -, _, -, _, -, _, -, _, -, _, -, _, -, _, -, done⟩ := done
  have hsubmitted : ∀ p : Proposal, p.forVotes = ⟨0, []⟩ → p.againstVotes = ⟨0, []⟩ →
      p.amendmentVotes = ⟨0, []⟩ → p.removalVotes = ⟨0, []⟩ →
      p.alignedVotes.voters = [info.sender] → Submitted p info.sender := by
    intro p hfor hagainst hamend hremove haligned
    refine ⟨fun option hoption => ?_, haligned⟩
    cases option
    case for_ => exact hfor
    case against => exact hagainst
    case amend => exact hamend
    case remove => exact hremove
    case align => exact absurd rfl hoption
  split at done
  case isTrue =>
    simp only [bind_eq_ok, pure_eq_ok] at done
    obtain ⟨_, -, rfl⟩ := done
    exact ⟨_, hsubmitted _ rfl rfl rfl rfl rfl, .inl ⟨rfl, rfl⟩⟩
  case isFalse =>
    simp only [pure_eq_ok] at done
    obtain rfl := done
    exact ⟨_, hsubmitted _ rfl rfl rfl rfl rfl, .inr ⟨rfl, rfl⟩⟩

theorem updateConfig_spec {deps : Deps} {env : Env} {info : MessageInfo} {update : UpdateConfig}
    {s s' : State} (done : updateConfig deps env info update s = .ok s') :
    s'.proposals = s.proposals ∧ s'.pendingProposals = s.pendingProposals := by
  simp only [updateConfig, bind_eq_ok, pure_eq_ok] at done
  obtain ⟨_, -, _, -, _, -, _, -, _, -, _, -, _, -, _, -, rfl⟩ := done
  exact ⟨rfl, rfl⟩

/-! ## Runs -/

/-- A voter who has voted on the proposal, other than to align, has the power that its
    vote was cast with. -/
def hasCastPower (h : History) (call : Call) (proposalId : Nat) (recipient : Option String) :
    Bool :=
  match loadProposal h.state proposalId, powerCast call proposalId recipient h.state with
  | .ok (_, p), .ok power =>
    ! ([for_, against, amend, remove].any fun option =>
      (p.votes option).voters.contains call.info.sender) ||
    power == h.contributed proposalId call.info.sender
  | _, _ => true

/-- The condition on a call: a vote is changed at the power it was cast with. -/
def KeepsPower (h : History) (call : Call) : Prop :=
  (match call.msg with
    | .castVote proposalId _ recipient => hasCastPower h call proposalId recipient
    | _ => true) = true

instance (h : History) (call : Call) : Decidable (KeepsPower h call) :=
  inferInstanceAs (Decidable (_ = true))

theorem hasCastPower_spec {h : History} {call : Call} {proposalId : Nat} {recipient : Option String}
    {pending : Bool} {p : Proposal} {power : Nat}
    (allowed : hasCastPower h call proposalId recipient = true)
    (loaded : loadProposal h.state proposalId = .ok (pending, p))
    (cast : powerCast call proposalId recipient h.state = .ok power)
    (option : ProposalVoteOption) (hoption : option ≠ align)
    (voted : call.info.sender ∈ (p.votes option).voters) :
    power = h.contributed proposalId call.info.sender := by
  unfold hasCastPower at allowed
  simp only [loaded, cast, Bool.or_eq_true, Bool.not_eq_true', beq_iff_eq] at allowed
  refine allowed.resolve_left fun hnone => ?_
  have hmem : option ∈ [for_, against, amend, remove] := by cases option <;> simp at hoption ⊢
  have hnot := List.any_eq_false.mp hnone option hmem
  exact hnot (List.contains_iff_mem.mpr voted)

/-- What holds of the stored proposals: voters are apart, tallies agree with the record, and
    nobody has voted on a pending proposal but to align. -/
structure Sound (h : History) : Prop where
  once : KeyMap.All (fun _ p => VotesOnce p) h.state.proposals
  tallied : KeyMap.All (fun id p => Tallied (h.contributed id) p) h.state.proposals
  oncePending : KeyMap.All (fun _ p => VotesOnce p) h.state.pendingProposals
  unopened : KeyMap.All (fun _ p => Unopened p) h.state.pendingProposals

theorem loadProposal_spec {s : State} {proposalId : Nat} {pending : Bool} {p : Proposal}
    (loaded : loadProposal s proposalId = .ok (pending, p)) :
    (pending = false ∧ s.proposals.lookup proposalId = some p) ∨
      (pending = true ∧ s.proposals.lookup proposalId = none ∧
        s.pendingProposals.lookup proposalId = some p) := by
  unfold loadProposal at loaded
  split at loaded
  case h_1 _ hfound =>
    simp only [pure_eq_ok, Prod.mk.injEq] at loaded
    obtain ⟨rfl, rfl⟩ := loaded
    exact .inl ⟨rfl, hfound⟩
  case h_2 habsent =>
    split at loaded
    case h_1 _ hfound =>
      simp only [pure_eq_ok, Prod.mk.injEq] at loaded
      obtain ⟨rfl, rfl⟩ := loaded
      exact .inr ⟨rfl, habsent, hfound⟩
    case h_2 => simp at loaded

theorem recorded_vote {h : History} {call : Call} {proposalId : Nat} {option : ProposalVoteOption}
    {recipient : Option String} {power : Nat}
    (msg : call.msg = .castVote proposalId option recipient)
    (cast : powerCast call proposalId recipient h.state = .ok power) :
    recorded h call = fun id voter =>
      if id = proposalId ∧ voter = call.info.sender then power else h.contributed id voter := by
  unfold recorded
  simp only [msg, cast]

theorem VoteAdded.unopened {p mid p' : Proposal} {voter : Addr} {power power' : Nat}
    (added : VoteAdded mid p' voter power align) (taken : TakenBack p mid voter power')
    (unopened : Unopened p) : Unopened p' := by
  intro option hoption
  have hp := unopened option hoption
  have hvoters : (p'.votes option).voters = [] := by
    rw [added.voters option, if_neg hoption, taken.voters option, hp]
    rfl
  have hpower : (p'.votes option).power = 0 := by
    rw [added.power option hoption, if_neg hoption, taken.kept option (by simp [hp]), hp]
  cases htally : p'.votes option with
  | mk power voters =>
    rw [htally] at hvoters hpower
    simp only at hvoters hpower
    rw [hvoters, hpower]

theorem castVote_sound {h : History} {call : Call} {s' : State} {proposalId : Nat}
    {option : ProposalVoteOption} {recipient : Option String} (sound : Sound h)
    (msg : call.msg = .castVote proposalId option recipient) (allowed : KeepsPower h call)
    (done : castVote call.deps call.env call.info proposalId option recipient h.state = .ok s') :
    Sound ⟨s', recorded h call⟩ := by
  obtain ⟨p, p', pending, power, voted⟩ := castVote_spec done
  obtain ⟨mid, hmid, hadded⟩ := voted.counted
  rw [recorded_vote msg voted.cast]
  -- on other proposals nothing is recorded
  have hothers : ∀ id q, id ≠ proposalId → h.state.proposals.lookup id = some q →
      Tallied (fun voter => if id = proposalId ∧ voter = call.info.sender then power
        else h.contributed id voter) q := by
    intro id q hne hfound
    simp only [hne, false_and, if_false]
    exact sound.tallied id q hfound
  have honceOthers : ∀ id q, id ≠ proposalId → h.state.proposals.lookup id = some q → VotesOnce q :=
    fun id q _ hfound => sound.once id q hfound
  rcases loadProposal_spec voted.loaded with ⟨rfl, hfound⟩ | ⟨rfl, habsent, hfound⟩
  · have honce := sound.once proposalId p hfound
    have htaken := removeVote_spec honce hmid
    have hgone := htaken.absent honce
    have htallied : Tallied (h.contributed proposalId) mid := by
      refine htaken.tallied (sound.tallied proposalId p hfound) fun option' hne hmem => ?_
      unfold KeepsPower at allowed
      rw [msg] at allowed
      exact hasCastPower_spec allowed voted.loaded voted.cast option' hne hmem
    have honce' : VotesOnce p' := hadded.once (htaken.once honce) hgone
    have htallied' : Tallied (fun voter => if proposalId = proposalId ∧ voter = call.info.sender
        then power else h.contributed proposalId voter) p' := by
      refine hadded.tallied hgone htallied (by simp) fun other hne => by simp [hne]
    rcases voted.stored with rfl | ⟨-, rfl⟩
    · exact ⟨KeyMap.all_insert_ne honceOthers honce', KeyMap.all_insert_ne hothers htallied',
        sound.oncePending, sound.unopened⟩
    · exact ⟨KeyMap.all_insert_ne honceOthers honce', KeyMap.all_insert_ne hothers htallied',
        KeyMap.all_erase sound.oncePending, KeyMap.all_erase sound.unopened⟩
  · have honce := sound.oncePending proposalId p hfound
    have htaken := removeVote_spec honce hmid
    have honce' : VotesOnce p' := hadded.once (htaken.once honce) (htaken.absent honce)
    have halign : option = align := by
      by_contra hne
      exact Bool.noConfusion (voted.open_ hne)
    subst halign
    have hunopened := hadded.unopened htaken (sound.unopened proposalId p hfound)
    rcases voted.stored with rfl | ⟨-, rfl⟩
    · refine ⟨sound.once, fun id q hq => hothers id q ?_ hq,
        KeyMap.all_insert sound.oncePending honce', KeyMap.all_insert sound.unopened hunopened⟩
      rintro rfl
      exact Option.some_ne_none q (hq.symm.trans habsent)
    · exact ⟨KeyMap.all_insert_ne honceOthers honce',
        KeyMap.all_insert_ne hothers (hunopened.tallied _), KeyMap.all_erase sound.oncePending,
        KeyMap.all_erase sound.unopened⟩

theorem step_sound {h h' : History} {call : Call} (sound : Sound h) (allowed : KeepsPower h call)
    (step : callStep h call h') : Sound h' := by
  unfold callStep Call.exec at step
  split at step
  case h_2 => cases step
  case h_1 s' hdone =>
    obtain rfl := Option.some.inj step
    unfold execute at hdone
    cases hmsg : call.msg <;> simp only [hmsg] at hdone
    case submitProposal =>
      have hrecorded : recorded h call = h.contributed := by
        unfold recorded
        rw [hmsg]
      obtain ⟨p, hsubmitted, hstored⟩ := submitProposal_spec hdone
      rw [hrecorded]
      rcases hstored with ⟨hactive, hpending⟩ | ⟨hpending, hactive⟩
      · refine ⟨?_, ?_, ?_, ?_⟩ <;> simp only [hactive, hpending]
        · exact sound.once
        · exact sound.tallied
        · exact KeyMap.all_insert sound.oncePending hsubmitted.once
        · exact KeyMap.all_insert sound.unopened hsubmitted.unopened
      · refine ⟨?_, ?_, ?_, ?_⟩ <;> simp only [hactive, hpending]
        · exact KeyMap.all_insert sound.once hsubmitted.once
        · exact KeyMap.all_insert sound.tallied (hsubmitted.unopened.tallied _)
        · exact sound.oncePending
        · exact sound.unopened
    case castVote => exact castVote_sound sound hmsg allowed hdone
    case updateConfig =>
      have hrecorded : recorded h call = h.contributed := by
        unfold recorded
        rw [hmsg]
      obtain ⟨hactive, hpending⟩ := updateConfig_spec hdone
      rw [hrecorded]
      refine ⟨?_, ?_, ?_, ?_⟩ <;> simp only [hactive, hpending]
      · exact sound.once
      · exact sound.tallied
      · exact sound.oncePending
      · exact sound.unopened

/-- In every state that a run of such calls reaches from a contract without proposals, under
    whatever configuration, an address is in at most one list of voters of a proposal, and
    the power of each option but alignment is what its voters contributed. -/
theorem votes_tallied {s : State} {contributed : Nat → Addr → Nat} {h : History}
    (noProposals : s.proposals = ∅) (noPending : s.pendingProposals = ∅)
    (run : RunWhere callStep KeepsPower ⟨s, contributed⟩ h) (id : Nat) (p : Proposal)
    (stored : h.state.proposals.lookup id = some p ∨ h.state.pendingProposals.lookup id = some p) :
    (∀ option, (p.votes option).voters.Nodup) ∧
    (∀ option option' voter, voter ∈ (p.votes option).voters →
      voter ∈ (p.votes option').voters → option = option') ∧
    ∀ option, option ≠ align →
      (p.votes option).power = ((p.votes option).voters.map (h.contributed id)).sum := by
  have hstart : Sound ⟨s, contributed⟩ := by
    refine ⟨?_, ?_, ?_, ?_⟩ <;> simp only [noProposals, noPending] <;> exact KeyMap.all_empty
  have hkeeps : ∀ h call h', Sound h → KeepsPower h call → callStep h call h' → Sound h' :=
    fun _ _ _ sound allowed step => step_sound sound allowed step
  have hsound := RunWhere.keeps hkeeps run hstart
  rcases stored with hfound | hfound
  · have honce := hsound.once id p hfound
    exact ⟨honce.nodup, honce.apart, hsound.tallied id p hfound⟩
  · have honce := hsound.oncePending id p hfound
    exact ⟨honce.nodup, honce.apart, (hsound.unopened id p hfound).tallied _⟩

/-! ## Runs on a sample chain -/

/-- A chain on which one user has a large stake and another has `stake`. -/
def sampleDeps (stake : Nat) : Deps where
  addrValid _ := true
  mbrnDenom _ := .ok "umbrn"
  stakingTotals _ := .ok 3000000000000
  totalStaked _ := .ok 3000000000000
  userStake _ staker :=
    .ok (if staker = "proposer" then [⟨"proposer", 2000000000000, 0, none⟩]
      else [⟨staker, stake, 0, none⟩])
  staked _ _ := .ok []
  delegations _ _ _ := .ok []
  allocation _ _ := .error (.genericErr "Invalid recipient")
  recipients _ := .ok []

def genesis : InstantiateMsg where
  mbrnStakingContractAddr := "staking"
  vestingContractAddr := "vesting"
  vestingVotingPowerMultiplier := Decimal.percent 50
  proposalVotingPeriod := 7 * blocksPerDay
  expeditedProposalVotingPeriod := 3 * blocksPerDay
  proposalEffectiveDelay := 0
  proposalExpirationPeriod := blocksPerDay
  proposalRequiredStake := 1000000000
  proposalRequiredQuorum := .ok (Decimal.percent 33)
  proposalRequiredThreshold := .ok (Decimal.percent 66)
  whitelistedLinks := []

/-- A contract instantiated by `genesis`. -/
def newContract : Option State :=
  match instantiate (sampleDeps 0) genesis with
  | .ok created => some created
  | .error _ => none

theorem newContract_spec {created : State} (done : newContract = some created) :
    created.proposals = ∅ ∧ created.pendingProposals = ∅ := by
  unfold newContract at done
  split at done
  case h_1 s h =>
    obtain rfl := Option.some.inj done
    simp only [instantiate, bind_eq_ok, pure_eq_ok] at h
    obtain ⟨_, -, _, -, _, -, _, -, _, -, _, -, rfl⟩ := h
    exact ⟨rfl, rfl⟩
  case h_2 => cases done

def samplePropose : Call :=
  ⟨sampleDeps 0, ⟨100, "gov"⟩, MessageInfo.noFunds "proposer",
    .submitProposal ⟨"Title", "Description", none, none, none, false⟩⟩

def sampleVote (stake : Nat) (vote : ProposalVoteOption) : Call :=
  ⟨sampleDeps stake, ⟨200, "gov"⟩, MessageInfo.noFunds "voter", .castVote 1 vote none⟩

def afterGenesis (calls : List Call) : Option History :=
  newContract.bind fun created => execAll Call.exec calls ⟨created, fun _ _ => 0⟩

def changedMind : List Call := [samplePropose, sampleVote 1000000 for_, sampleVote 1000000 against]

theorem votes_tallied_changed :
    ∃ created h p, newContract = some created ∧
      execAll (execWhere Call.exec KeepsPower) changedMind ⟨created, fun _ _ => 0⟩ = some h ∧
      h.state.proposals.lookup 1 = some p ∧ p.againstVotes = ⟨1000, ["voter"]⟩ ∧
      p.forVotes.power = (p.forVotes.voters.map (h.contributed 1)).sum := by
  have hvotes : (newContract.bind fun created => execAll (execWhere Call.exec KeepsPower)
      changedMind ⟨created, fun _ _ => 0⟩).bind (fun h => (h.state.proposals.lookup 1).map
        fun p => p.againstVotes) = some ⟨1000, ["voter"]⟩ := by decide +kernel
  obtain ⟨h, hh, hvotes⟩ := Option.bind_eq_some_iff.mp hvotes
  obtain ⟨p, hp, hvotes⟩ := Option.map_eq_some_iff.mp hvotes
  obtain ⟨created, hnew, hrun⟩ := Option.bind_eq_some_iff.mp hh
  obtain ⟨hactive, hpending⟩ := newContract_spec hnew
  have htallied := votes_tallied hactive hpending (execWhere_run (fun _ _ _ h => h) hrun) 1 p
    (.inl hp)
  exact ⟨created, h, p, hnew, hrun, hp, hvotes, htallied.2.2 for_ (by decide)⟩

/-- The calls the tallies are to agree over. -/
def VoteCall : ExecuteMsg → Prop
  | .submitProposal _ | .castVote .. => True
  | .updateConfig _ => False

/-- The tallies are not what the voters contributed. A user votes against with some stake,
    which leaves it free to unstake, unstakes three quarters of it and votes for: half of the
    first vote's power stays with an option that has no voters. -/
theorem votes_not_tallied :
    ¬ ∀ calls h, (∀ call ∈ calls, VoteCall call.msg) → afterGenesis calls = some h →
      ∀ id p, h.state.proposals.lookup id = some p → ∀ option, option ≠ align →
        (p.votes option).power = ((p.votes option).voters.map (h.contributed id)).sum := by
  intro claim
  have hvotes :
      (afterGenesis [samplePropose, sampleVote 1000000 against, sampleVote 250000 for_]).bind
      (fun h => (h.state.proposals.lookup 1).map fun p => p.againstVotes) = some ⟨500, []⟩ := by
    decide +kernel
  obtain ⟨h, hh, hvotes⟩ := Option.bind_eq_some_iff.mp hvotes
  obtain ⟨p, hp, hvotes⟩ := Option.map_eq_some_iff.mp hvotes
  have hclaim := claim _ h (by
    intro call hcall
    simp only [List.mem_cons, List.not_mem_nil, or_false] at hcall
    rcases hcall with rfl | rfl | rfl <;> trivial) hh 1 p hp against (by decide)
  change p.againstVotes.power = (p.againstVotes.voters.map (h.contributed 1)).sum at hclaim
  rw [hvotes] at hclaim
  cases hclaim

end Membrane.Governance
