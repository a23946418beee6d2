import Membrane.Governance.VotingPower

/-!
# Proposals and votes

`instantiate`, `submit_proposal`, `cast_vote` and `update_config` of `contracts.rs`, and
the checks of `packages/membrane/src/governance.rs`.
-/

namespace Membrane.Governance

/-! ## Configuration -/

/-- `BLOCKS_PER_DAY`. -/
def blocksPerDay : Nat := 14400

/-- The checks of `Config::validate`, each with its error. -/
def Config.validate (config : Config) : Outcome StdError PUnit := do
  Outcome.guardErr (Decimal.percent 100 < config.proposalRequiredThreshold ∨
      config.proposalRequiredThreshold < Decimal.percent 51)
    (.genericErr
      "The required threshold for a proposal cannot be lower than 51% or higher than 100%")
  Outcome.guardErr (Decimal.percent 100 < config.proposalRequiredQuorum ∨
      config.proposalRequiredQuorum < Decimal.percent 33)
    (.genericErr "The required quorum for a proposal cannot be lower than 33% or higher than 100%")
  Outcome.guardErr (blocksPerDay < config.proposalEffectiveDelay)
    (.genericErr "The effective delay for a proposal cannot be lower than 0 or higher than 14400")
  Outcome.guardErr (config.proposalExpirationPeriod < blocksPerDay ∨
      14 * blocksPerDay < config.proposalExpirationPeriod)
    (.genericErr
      "The expiration period for a proposal cannot be lower than 14400 or higher than 201600")
  Outcome.guardErr (config.proposalVotingPeriod < blocksPerDay ∨
      14 * blocksPerDay < config.proposalVotingPeriod)
    (.genericErr
      "The voting period for a proposal should be more than 14400 or less than 201600 blocks.")
  Outcome.guardErr (config.proposalRequiredStake < 1000000000 ∨
      5000000000 < config.proposalRequiredStake)
    (.genericErr "The required deposit for a proposal cannot be lower than 1000000000")

/-- `InstantiateMsg`, its two decimals as `Decimal::from_str` reads them. -/
structure InstantiateMsg where
  mbrnStakingContractAddr : String
  vestingContractAddr : String
  vestingVotingPowerMultiplier : Decimal
  proposalVotingPeriod : Nat
  expeditedProposalVotingPeriod : Nat
  proposalEffectiveDelay : Nat
  proposalExpirationPeriod : Nat
  proposalRequiredStake : Nat
  proposalRequiredQuorum : Except StdError Decimal
  proposalRequiredThreshold : Except StdError Decimal
  whitelistedLinks : List String

def instantiate (deps : Deps) (msg : InstantiateMsg) : Result State := do
  let stakingContractAddr ← liftStd (addrValidate deps.addrValid msg.mbrnStakingContractAddr)
  let mbrnDenom ← liftStd (Outcome.ofExcept (deps.mbrnDenom stakingContractAddr))
  let vestingContractAddr ← liftStd (addrValidate deps.addrValid msg.vestingContractAddr)
  let quorum ← liftStd (Outcome.ofExcept msg.proposalRequiredQuorum)
  let threshold ← liftStd (Outcome.ofExcept msg.proposalRequiredThreshold)
  let config : Config := {
    mbrnDenom := mbrnDenom
    minimumTotalStake := 1000000000000
    stakingContractAddr := stakingContractAddr
    vestingContractAddr := vestingContractAddr
    vestingVotingPowerMultiplier := msg.vestingVotingPowerMultiplier
    proposalVotingPeriod := msg.proposalVotingPeriod
    expeditedProposalVotingPeriod := msg.expeditedProposalVotingPeriod
    proposalEffectiveDelay := msg.proposalEffectiveDelay
    proposalExpirationPeriod := msg.proposalExpirationPeriod
    proposalRequiredStake := msg.proposalRequiredStake
    proposalRequiredQuorum := quorum
    proposalRequiredThreshold := threshold
    whitelistedLinks := msg.whitelistedLinks
    quadraticVoting := true }
  liftStd config.validate
  pure ⟨config, 0, ∅, ∅⟩

def isSafeLink (link : String) : Bool :=
  link.toList.all fun c => c.isAlphanum || "-_:/?#@!$&()*+,;=.~[]'%".toList.contains c

def validateLinks (links : List String) : Outcome StdError PUnit :=
  links.forM fun link =>
    Outcome.guardErr
      (¬ (isSafeLink link = true ∧ '.' ∈ link.toList ∧ link.toList.getLast? = some '/'))
      (.genericErr ("Link is not properly formatted or contains unsafe characters: " ++
        link ++ "."))

/-- `UpdateConfig`, its two decimals as `Decimal::from_str` reads them. The fields that
    `update_config` does not read are left out. -/
structure UpdateConfig where
  mbrnDenom : Option String := none
  minimumTotalStake : Option Nat := none
  stakingContract : Option String := none
  vestingContractAddr : Option String := none
  proposalVotingPeriod : Option Nat := none
  expeditedProposalVotingPeriod : Option Nat := none
  proposalEffectiveDelay : Option Nat := none
  proposalExpirationPeriod : Option Nat := none
  proposalRequiredStake : Option Nat := none
  proposalRequiredQuorum : Option (Except StdError Decimal) := none
  proposalRequiredThreshold : Option (Except StdError Decimal) := none
  whitelistRemove : Option (List String) := none
  whitelistAdd : Option (List String) := none

/-- An optional address of a message, validated, or the one there is. -/
def setAddr (deps : Deps) (update : Option String) (current : Addr) : Result Addr :=
  match update with
  | some text => liftStd (addrValidate deps.addrValid text)
  | none => pure current

/-- An optional decimal of a message, as read, or the one there is. -/
def setDecimal (update : Option (Except StdError Decimal)) (current : Decimal) : Result Decimal :=
  match update with
  | some read => liftStd (Outcome.ofExcept read)
  | none => pure current

def updateConfig (deps : Deps) (env : Env) (info : MessageInfo) (update : UpdateConfig)
    (s : State) : Result State := do
  Outcome.guardErr (info.sender ≠ env.contractAddress) .unauthorized
  let config := s.config
  let stakingContractAddr ← setAddr deps update.stakingContract config.stakingContractAddr
  let vestingContractAddr ← setAddr deps update.vestingContractAddr config.vestingContractAddr
  let quorum ← setDecimal update.proposalRequiredQuorum config.proposalRequiredQuorum
  let threshold ← setDecimal update.proposalRequiredThreshold config.proposalRequiredThreshold
  let added ← (match update.whitelistAdd with
    | some links => do
        liftStd (validateLinks links)
        pure (config.whitelistedLinks ++
          links.filter fun link => ! config.whitelistedLinks.contains link)
    | none => pure config.whitelistedLinks)
  let whitelistedLinks ← (match update.whitelistRemove with
    | some links => do
        let kept := added.filter fun link => ! links.contains link
        Outcome.guardErr (kept = []) .whitelistEmpty
        pure kept
    | none => pure added)
  let config := { config with
    mbrnDenom := update.mbrnDenom.getD config.mbrnDenom
    minimumTotalStake := update.minimumTotalStake.getD config.minimumTotalStake
    stakingContractAddr := stakingContractAddr
    vestingContractAddr := vestingContractAddr
    proposalVotingPeriod := update.proposalVotingPeriod.getD config.proposalVotingPeriod
    expeditedProposalVotingPeriod :=
      update.expeditedProposalVotingPeriod.getD config.expeditedProposalVotingPeriod
    proposalEffectiveDelay := update.proposalEffectiveDelay.getD config.proposalEffectiveDelay
    proposalExpirationPeriod := update.proposalExpirationPeriod.getD config.proposalExpirationPeriod
    proposalRequiredStake := update.proposalRequiredStake.getD config.proposalRequiredStake
    proposalRequiredQuorum := quorum
    proposalRequiredThreshold := threshold
    whitelistedLinks := whitelistedLinks }
  liftStd config.validate
  pure { s with config := config }

/-! ## Submitting a proposal -/

structure SubmitProposal where
  title : String
  description : String
  link : Option String
  messages : Option (List ProposalMessage)
  recipient : Option String
  expedited : Bool

/-- A text of only letters, digits, blanks and the allowed punctuation. -/
def isSafeText (text : String) : Bool :=
  text.toList.all fun c => c.isAlphanum || [' ', '\t', '\n', '\x0c', '\r'].contains c ||
    "!&?#()*+'-./\"".toList.contains c

def Proposal.validate (p : Proposal) (whitelistedLinks : List String) :
    Outcome StdError PUnit := do
  Outcome.guardErr (p.title.utf8ByteSize < 4) (.genericErr "Title too short!")
  Outcome.guardErr (64 < p.title.utf8ByteSize) (.genericErr "Title too long!")
  Outcome.guardErr (isSafeText p.title = false) (.genericErr "Title is not in alphanumeric format!")
  Outcome.guardErr (p.description.utf8ByteSize < 4) (.genericErr "Description too short!")
  Outcome.guardErr (1024 < p.description.utf8ByteSize) (.genericErr "Description too long!")
  Outcome.guardErr (isSafeText p.description = false)
    (.genericErr "Description is not in alphanumeric format")
  match p.link with
  | some link => do
      Outcome.guardErr (link.utf8ByteSize < 12) (.genericErr "Link too short!")
      Outcome.guardErr (128 < link.utf8ByteSize) (.genericErr "Link too long!")
      Outcome.guardErr
        ((whitelistedLinks.any fun listed => listed.toList.isPrefixOf link.toList) = false)
        (.genericErr "Link is not whitelisted!")
      Outcome.guardErr (isSafeLink link = false)
        (.genericErr "Link is not properly formatted or contains unsafe characters!")
  | none => pure ⟨⟩

/-- A time later by a number of blocks of six seconds. -/
def laterByBlocks (time blocks : Nat) : Result Nat := do
  Uint64.add time (← Uint64.mul blocks 6)

/-- The end of voting: sooner when expedited, after seven days at least with messages. -/
def votingEnd (config : Config) (env : Env) (msg : SubmitProposal) (expedited : Bool) :
    Result Nat :=
  if expedited then laterByBlocks env.blockTime config.expeditedProposalVotingPeriod
  else if msg.messages.isSome = true ∧ config.proposalVotingPeriod < 7 * blocksPerDay then
    laterByBlocks env.blockTime (7 * blocksPerDay)
  else laterByBlocks env.blockTime config.proposalVotingPeriod

/-- Aligned power past the required stake counts by its square root. -/
def dampAligned (config : Config) (power : Nat) : Result Nat := do
  let difference ← checkedSub power config.proposalRequiredStake
  checkedAdd config.proposalRequiredStake (← sqrtOf difference).toUintFloor

def submitProposal (deps : Deps) (env : Env) (info : MessageInfo) (msg : SubmitProposal)
    (s : State) : Result State := do
  let config := s.config
  let nonVested ← liftStd (nonVestedTotal deps config)
  Outcome.guardErr (nonVested < config.minimumTotalStake)
    (.insufficientTotalStake config.minimumTotalStake)
  let (votingPower, expedited) ← liftStd (calcVotingPower deps config (some nonVested) info.sender
    env.blockTime msg.expedited msg.recipient false)
  Outcome.guardErr (votingPower = 0) .noVotingPower
  let count ← (if s.proposalCount + 1 < Uint64.limit then pure (s.proposalCount + 1)
    else Outcome.fail (.std (.overflow "Add" (toString s.proposalCount) "1")))
  let submitter ← (match msg.recipient with
    | some recipient => liftStd (addrValidate deps.addrValid recipient)
    | none => pure info.sender)
  let endBlock ← votingEnd config env msg expedited
  let delayedEndBlock ← laterByBlocks endBlock config.proposalEffectiveDelay
  let expirationBlock ← laterByBlocks delayedEndBlock config.proposalExpirationPeriod
  let proposal : Proposal := {
    proposalId := count
    submitter := submitter
    status := .active
    alignedVotes := ⟨votingPower, [info.sender]⟩
    forVotes := ⟨0, []⟩
    againstVotes := ⟨0, []⟩
    amendmentVotes := ⟨0, []⟩
    removalVotes := ⟨0, []⟩
    startTime := env.blockTime
    endBlock := endBlock
    delayedEndBlock := delayedEndBlock
    expirationBlock := expirationBlock
    title := msg.title
    description := msg.description
    link := msg.link
    messages := msg.messages }
  liftStd (proposal.validate config.whitelistedLinks)
  let alignedPower ← (if config.proposalRequiredStake ≤ votingPower ∧ config.quadraticVoting then
      dampAligned config votingPower
    else pure votingPower)
  let proposal := { proposal with alignedVotes := ⟨alignedPower, [info.sender]⟩ }
  if alignedPower < config.proposalRequiredStake then do
    let endBlock ← laterByBlocks env.blockTime blocksPerDay
    pure { s with
      proposalCount := count
      pendingProposals := s.pendingProposals.insert count { proposal with endBlock := endBlock } }
  else pure { s with
    proposalCount := count
    proposals := s.proposals.insert count proposal }

/-! ## Casting a vote -/

def loadProposal (s : State) (proposalId : Nat) : Result (Bool × Proposal) :=
  match s.proposals.lookup proposalId with
  | some proposal => pure (false, proposal)
  | none =>
    match s.pendingProposals.lookup proposalId with
    | some proposal => pure (true, proposal)
    | none => Outcome.fail (.std (.notFound "membrane::governance::Proposal"))

def saveProposal (s : State) (proposalId : Nat) (pending : Bool) (proposal : Proposal) : State :=
  if pending then
    { s with pendingProposals := s.pendingProposals.insert proposalId proposal }
  else { s with proposals := s.proposals.insert proposalId proposal }

/-- The option whose list has a voter, in the order in which the lists are searched. -/
def Proposal.votedFor (p : Proposal) (voter : Addr) : Option ProposalVoteOption :=
  [.for_, .against, .amend, .remove, .align].find? fun option =>
    (p.votes option).voters.contains voter

/-- The previous vote taken back, at the voter's present power. -/
def removeVote (p : Proposal) (voter : Addr) (votingPower : Nat) : Result Proposal :=
  match p.votedFor voter with
  | some option => do
      let power ← checkedSub (p.votes option).power votingPower
      pure (p.setVotes ⟨power, (p.votes option).voters.erase voter⟩ option)
  | none => pure p

def addVote (p : Proposal) (voter : Addr) (votingPower : Nat) (option : ProposalVoteOption) :
    Result Proposal := do
  let power ← checkedAdd (p.votes option).power votingPower
  pure (p.setVotes ⟨power, (p.votes option).voters ++ [voter]⟩ option)

/-- The power an alignment adds: squared while the required stake is not reached. -/
def alignVote (config : Config) (p : Proposal) (voter : Addr) (votingPower : Nat) :
    Result Proposal := do
  if config.quadraticVoting = true ∧ p.alignedVotes.power < config.proposalRequiredStake then do
    let squared ← liftStd (do
      decimalMultiplication (← Decimal.fromRatio votingPower 1) (← Decimal.fromRatio votingPower 1))
    let p ← addVote p voter squared.toUintCeil .align
    if config.proposalRequiredStake ≤ p.alignedVotes.power then do
      let power ← dampAligned config p.alignedVotes.power
      pure (p.setVotes ⟨power, p.alignedVotes.voters⟩ .align)
    else pure p
  else addVote p voter votingPower .align

/-- A proposal stored as active: it leaves the pending ones. -/
def activateProposal (s : State) (proposalId : Nat) (proposal : Proposal) : State :=
  { s with
    pendingProposals := s.pendingProposals.erase proposalId
    proposals := s.proposals.insert proposalId proposal }

/-- The power of a vote: the voter's at the start time of the proposal. -/
def votePower (deps : Deps) (config : Config) (info : MessageInfo) (recipient : Option String)
    (proposal : Proposal) : Outcome StdError Nat := do
  pure (← calcVotingPower deps config none info.sender proposal.startTime false recipient
    config.quadraticVoting).1

def castVote (deps : Deps) (env : Env) (info : MessageInfo) (proposalId : Nat)
    (option : ProposalVoteOption) (recipient : Option String) (s : State) : Result State := do
  let config := s.config
  let (pending, proposal) ← loadProposal s proposalId
  Outcome.guardErr (proposal.submitter = info.sender) .unauthorized
  (match recipient with
    | some recipient => do
        let _ ← liftStd (addrValidate deps.addrValid recipient)
        Outcome.guardErr (proposal.submitter = recipient) .unauthorized
    | none => pure ⟨⟩)
  Outcome.guardErr (proposal.endBlock < env.blockTime) .votingPeriodEnded
  let votingPower ← liftStd (votePower deps config info recipient proposal)
  Outcome.guardErr (votingPower = 0) .noVotingPower
  let proposal ← removeVote proposal info.sender votingPower
  match option with
  | .align => do
      let proposal ← alignVote config proposal info.sender votingPower
      if config.proposalRequiredStake ≤ proposal.alignedVotes.power then
        pure (activateProposal s proposalId proposal)
      else pure (saveProposal s proposalId pending proposal)
  | option => do
      Outcome.guardErr (pending = true) .proposalNotActive
      let proposal ← addVote proposal info.sender votingPower option
      pure (saveProposal s proposalId pending proposal)

/-! ## Calls -/

/-- `ExecuteMsg`, the messages that open proposals, vote on them or configure votes. -/
inductive ExecuteMsg where
  | submitProposal (proposal : SubmitProposal)
  | castVote (proposalId : Nat) (vote : ProposalVoteOption) (recipient : Option String)
  | updateConfig (update : UpdateConfig)

def execute (deps : Deps) (env : Env) (info : MessageInfo) (msg : ExecuteMsg) (s : State) :
    Result State :=
  match msg with
  | .submitProposal proposal => submitProposal deps env info proposal s
  | .castVote proposalId vote recipient => castVote deps env info proposalId vote recipient s
  | .updateConfig update => updateConfig deps env info update s

/-- One call from outside: what it can ask of the chain, its block, its sender and
    its message. -/
structure Call where
  deps : Deps
  env : Env
  info : MessageInfo
  msg : ExecuteMsg

end Membrane.Governance
