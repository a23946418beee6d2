import Mathlib.Data.List.Sort
import Membrane.Governance.Contract

/-!
# The life of a proposal

`end_proposal`, `execute_proposal` and `remove_completed_proposal` of `contracts.rs`: the end
of a vote, the release of the messages of a passed proposal, and its removal. With the messages
that open proposals and vote on them these are all that change a stored proposal.
-/

namespace Membrane.Governance

/-- `ContractError`, with the cases that these handlers raise. -/
inductive LifecycleError where
  | contract (error : ContractError)
  | votingPeriodNotEnded
  | executeProposalExpired
  | proposalNotPassed
  | cantRemove
  | proposalDelayNotEnded
  deriving DecidableEq, Repr

def LifecycleError.toText : LifecycleError → String
  | .contract error => error.toText
  | .votingPeriodNotEnded => "Voting period not ended yet!"
  | .executeProposalExpired => "Proposal expired!"
  | .proposalNotPassed => "Proposal not passed!"
  | .cantRemove => "Proposal can't be removed!"
  | .proposalDelayNotEnded => "Proposal delay not ended!"

/-- A call of one of these handlers. -/
abbrev LifecycleResult (α : Type) := Outcome LifecycleError α

/-- `?` on an error of the contract. -/
def liftContract {α : Type} (x : Result α) : LifecycleResult α := Outcome.mapErr .contract x

@[simp]
theorem liftContract_eq_ok {α : Type} {x : Result α} {a : α} :
    liftContract x = .ok a ↔ x = .ok a := Outcome.mapErr_eq_ok

/-- `PROPOSALS.load`. -/
def State.loadProposals (s : State) (proposalId : Nat) : LifecycleResult Proposal :=
  Outcome.ofOption (s.proposals.lookup proposalId)
    (.contract (.std (.notFound "membrane::governance::Proposal")))

/-! ## The end of a vote -/

/-- The required stake in the aligned power of a proposal, counted by its square root. -/
def rootAligned (config : Config) (p : Proposal) : LifecycleResult Proposal := do
  let beyond ← liftContract (checkedSub p.alignedVotes.power config.proposalRequiredStake)
  let power ← Uint128.add beyond (← sqrtOf config.proposalRequiredStake).toUintFloor
  pure { p with alignedVotes := ⟨power, p.alignedVotes.voters⟩ }

/-- The reverse of `rootAligned`. -/
def unrootAligned (config : Config) (p : Proposal) : LifecycleResult Proposal := do
  let raised ← liftContract (checkedAdd p.alignedVotes.power config.proposalRequiredStake)
  let power ← subUint raised (← sqrtOf config.proposalRequiredStake).toUintFloor
  pure { p with alignedVotes := ⟨power, p.alignedVotes.voters⟩ }

def Proposal.totalVotes (p : Proposal) : LifecycleResult Nat := do
  let votes ← Uint128.add p.forVotes.power p.againstVotes.power
  let votes ← Uint128.add votes p.amendmentVotes.power
  Uint128.add votes p.removalVotes.power

/-- The proposal as it is counted, and its quorum. -/
def proposalQuorum (config : Config) (totalVotes totalVotingPower : Nat) (p : Proposal) :
    LifecycleResult (Proposal × Decimal) :=
  if totalVotingPower = 0 then pure (p, Decimal.zero)
  else do
    let p ← (if config.quadraticVoting then rootAligned config p else pure p)
    let votes ← Uint128.add totalVotes p.alignedVotes.power
    let quorum ← Decimal.fromRatio votes totalVotingPower
    pure (p, quorum)

/-- The shares of the votes by which a proposal passes, is to be amended and is removed, and the
    threshold they are compared with. -/
structure Shares where
  passes : Decimal
  amends : Decimal
  removes : Decimal
  required : Decimal
  deriving DecidableEq, Repr

def Proposal.executes (p : Proposal) : Prop := p.messages.getD [] ≠ []

instance (p : Proposal) : Decidable p.executes := inferInstanceAs (Decidable (_ ≠ _))

/-- The shares of a proposal: a half is enough for one without messages. -/
def voteShares (config : Config) (totalVotes : Nat) (p : Proposal) : LifecycleResult Shares :=
  if totalVotes = 0 then
    pure ⟨Decimal.zero, Decimal.zero, Decimal.zero, config.proposalRequiredThreshold⟩
  else do
    let passes ← Decimal.fromRatio p.forVotes.power totalVotes
    let amending ← Uint128.add p.forVotes.power p.amendmentVotes.power
    let amends ← Decimal.fromRatio amending totalVotes
    let removes ← Decimal.fromRatio p.removalVotes.power totalVotes
    pure ⟨passes, amends, removes,
      if p.executes then config.proposalRequiredThreshold else Decimal.percent 50⟩

def saveStatus (s : State) (proposalId : Nat) (p : Proposal) (status : ProposalStatus) : State :=
  { s with proposals := s.proposals.insert proposalId { p with status := status } }

/-- The last step of `end_proposal`: the result by quorum and shares, an expedited proposal without
    quorum being open for the normal period. -/
def decideProposal (s : State) (proposalId : Nat) (p : Proposal) (quorum : Decimal)
    (shares : Shares) : LifecycleResult State :=
  if s.config.proposalRequiredQuorum ≤ quorum then
    if shares.required ≤ shares.passes then pure (saveStatus s proposalId p .passed)
    else if shares.required ≤ shares.amends then pure (saveStatus s proposalId p .amendmentDesired)
    else if shares.required ≤ shares.removes then
      pure { s with proposals := s.proposals.erase proposalId }
    else pure (saveStatus s proposalId p .rejected)
  else do
    let period ← subUint p.endBlock p.startTime
    let expedited ← Uint64.mul s.config.expeditedProposalVotingPeriod 6
    if period = expedited then do
      let normal ← Uint64.mul s.config.proposalVotingPeriod 6
      let endBlock ← Uint64.add p.startTime normal
      let p ← (if s.config.quadraticVoting then
          unrootAligned s.config { p with endBlock := endBlock }
        else pure { p with endBlock := endBlock })
      pure (saveStatus s proposalId p .active)
    else pure (saveStatus s proposalId p .rejected)

def endProposal (deps : Deps) (env : Env) (proposalId : Nat) (s : State) :
    LifecycleResult State := do
  let proposal ← s.loadProposals proposalId
  Outcome.guardErr (proposal.status ≠ .active) (.contract .proposalNotActive)
  Outcome.guardErr (env.blockTime ≤ proposal.endBlock) .votingPeriodNotEnded
  let totalVotes ← proposal.totalVotes
  -- where the total cannot be calculated the proposal can still be ended
  let totalVotingPower ← Outcome.recover (calcTotalVotingPowerAt deps s.config
    s.config.quadraticVoting proposal.startTime) 1
  let (proposal, quorum) ← proposalQuorum s.config totalVotes totalVotingPower proposal
  let shares ← voteShares s.config totalVotes proposal
  decideProposal s proposalId proposal quorum shares

/-! ## Execution and removal -/

/-- A message that `execute_proposal` returns: one of the proposal, or the contract's own check. -/
inductive ReleasedMsg where
  | proposal (message : ProposalMessage)
  | checkMessagesPassed (error : Option Bool)
  deriving DecidableEq, Repr

/-- `execute_proposal`: the messages by their order, and the check after them. -/
def executeProposal (env : Env) (proposalId : Nat) (s : State) :
    LifecycleResult (State × List ReleasedMsg) := do
  let proposal ← s.loadProposals proposalId
  Outcome.guardErr (proposal.status ≠ .passed) .proposalNotPassed
  Outcome.guardErr (env.blockTime < proposal.delayedEndBlock) .proposalDelayNotEnded
  Outcome.guardErr (proposal.expirationBlock < env.blockTime) .executeProposalExpired
  let messages := (proposal.messages.getD []).insertionSort fun a b => a.order ≤ b.order
  pure (saveStatus s proposalId proposal .executed,
    messages.map ReleasedMsg.proposal ++ [.checkMessagesPassed (some false)])

/-- `remove_completed_proposal`: of an expired or a rejected proposal by anybody, of another by its
    submitter. -/
def removeCompletedProposal (env : Env) (info : MessageInfo) (proposalId : Nat) (s : State) :
    LifecycleResult State := do
  let config := s.config
  let (pending, proposal) ← liftContract (loadProposal s proposalId)
  let expires ← (if pending then pure proposal.endBlock
    else do
      let blocks ← Uint64.add config.proposalEffectiveDelay config.proposalExpirationPeriod
      Uint64.add proposal.endBlock (← Uint64.mul blocks 6))
  let status := if expires < env.blockTime then ProposalStatus.expired else proposal.status
  if status = .expired ∧ pending = true then
    pure { s with pendingProposals := s.pendingProposals.erase proposalId }
  else if status = .expired ∨ status = .rejected then
    pure { s with proposals := s.proposals.erase proposalId }
  else if info.sender = proposal.submitter then
    pure { s with proposals := s.proposals.erase proposalId }
  else Outcome.fail .cantRemove

/-! ## Calls -/

/-- `ExecuteMsg`, with the messages that end, execute and remove proposals. -/
inductive LifecycleMsg where
  | vote (msg : ExecuteMsg)
  | endProposal (proposalId : Nat)
  | executeProposal (proposalId : Nat)
  | removeCompletedProposal (proposalId : Nat)

/-- `execute`, with the messages it returns. -/
def executeLifecycle (deps : Deps) (env : Env) (info : MessageInfo) (msg : LifecycleMsg)
    (s : State) :
    LifecycleResult (State × List ReleasedMsg) :=
  match msg with
  | .vote msg => do pure (← liftContract (execute deps env info msg s), [])
  | .endProposal proposalId => do pure (← endProposal deps env proposalId s, [])
  | .executeProposal proposalId => executeProposal env proposalId s
  | .removeCompletedProposal proposalId => do
      pure (← removeCompletedProposal env info proposalId s, [])

/-- One call, with what it can ask of the chain, its block and its sender. -/
structure LifecycleCall where
  deps : Deps
  env : Env
  info : MessageInfo
  msg : LifecycleMsg

end Membrane.Governance
