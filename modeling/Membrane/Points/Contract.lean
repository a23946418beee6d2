import Membrane.Points.State

/-!
# The points system

The handlers of `contracts/points-system`: a user's claims and votes are checked before and
after what the user does, and the difference is rewarded with points, for which MBRN can be
claimed.
-/

namespace Membrane.Points

/-- `SECONDS_PER_DAY`. -/
def secondsPerDay : Nat := 86400

def mbrnDenom : String :=
  "factory/osmo1s794h9rxggytja3a4pmwul53u98k06zy2qtrdvjnfuxruh7s8yjs6cyxgd/umbrn"

structure InstantiateMsg where
  cdtDenom : String
  oracleContract : String
  positionsContract : String
  stabilityPoolContract : String
  liqQueueContract : String
  governanceContract : String
  osmosisProxyContract : String
  deriving DecidableEq, Repr

def instantiate (deps : Deps) (info : MessageInfo) (msg : InstantiateMsg) : Result State := do
  let validate (text : String) : Result Addr := liftStd (addrValidate deps.addrValid text)
  let oracleContract ← validate msg.oracleContract
  let positionsContract ← validate msg.positionsContract
  let stabilityPoolContract ← validate msg.stabilityPoolContract
  let liqQueueContract ← validate msg.liqQueueContract
  let governanceContract ← validate msg.governanceContract
  let osmosisProxyContract ← validate msg.osmosisProxyContract
  let mbrnPerPoint ← Decimal.fromRatio 1000000 1
  pure {
    config := {
      owner := info.sender
      cdtDenom := msg.cdtDenom
      oracleContract := oracleContract
      positionsContract := positionsContract
      stabilityPoolContract := stabilityPoolContract
      liqQueueContract := liqQueueContract
      governanceContract := governanceContract
      osmosisProxyContract := osmosisProxyContract
      mbrnPerPoint := mbrnPerPoint
      totalMbrnDistribution := 0
      maxMbrnDistribution := 100000000000
      pointsPerDollar := Decimal.one }
    userStats := ∅
    claimCheck := none
    liqPropagation := none
    ownershipTransfer := none }

/-! ## Checking claims -/

/-- Whether a user is among the voters of a proposal. -/
def hasVoted (proposal : Governance.Proposal) (user : Addr) : Bool :=
  proposal.forVotes.voters.contains user || proposal.againstVotes.voters.contains user ||
    proposal.alignedVotes.voters.contains user || proposal.removalVotes.voters.contains user ||
    proposal.amendmentVotes.voters.contains user

def pendingLqClaims (deps : Deps) (config : Config) (user : Addr) :
    Outcome StdError (List LQClaims) := do
  let claims ← Outcome.ofExcept (deps.lqClaims config.liqQueueContract user)
  pure (claims.filter fun claim => claim.pendingLiquidatedCollateral ≠ 0)

/-- The stability pool's claims. It errors where there are none. -/
def pendingSpClaims (deps : Deps) (config : Config) (user : Addr) : List Coin :=
  match deps.spClaims config.stabilityPoolContract user with
  | .ok claims => claims
  | .error _ => []

/-- The proposals of a list that a user has not voted on. -/
def unvotedProposals (deps : Deps) (config : Config) (user : Addr) (votes : List Nat) :
    Outcome StdError (List Nat) :=
  votes.foldlM (fun unvoted id => do
    let proposal ← Outcome.ofExcept (deps.proposal config.governanceContract id)
    pure (if hasVoted proposal user then unvoted else unvoted ++ [id])) []

def checkClaims (deps : Deps) (info : MessageInfo) (cdpRepayment : Option UserInfo)
    (spClaims lqClaims : Bool) (vote : Option (List Nat)) (s : State) :
    Result (State × Response) := do
  Outcome.guardErr (cdpRepayment.isNone ∧ ¬ spClaims ∧ ¬ lqClaims ∧ vote.isNone)
    (.std (.genericErr "No claims to check"))
  let spPendingClaims := if spClaims then pendingSpClaims deps s.config info.sender else []
  let lqPendingClaims ← liftStd
    (if lqClaims then pendingLqClaims deps s.config info.sender else pure [])
  let votePending ← liftStd (unvotedProposals deps s.config info.sender (vote.getD []))
  let claimCheck : ClaimCheck := ⟨info.sender, 0, lqPendingClaims, spPendingClaims, votePending⟩
  pure ({ s with claimCheck := some claimCheck },
    .messages (cdpRepayment.toList.map (.accrue s.config.positionsContract)))

/-- `handle_accrue_reply`, of an accrual that succeeded. -/
def handleAccrueReply (deps : Deps) (s : State) : Outcome StdError State := do
  let basket ← Outcome.ofExcept (deps.basket s.config.positionsContract)
  let claimCheck ← Outcome.ofOption s.claimCheck
    (.notFound "membrane::points_system::ClaimCheck")
  pure { s with claimCheck := some { claimCheck with cdpPendingRevenue := basket.pendingRevenue } }

/-! ## Giving points -/

/-- What was claimed of a claim, by the pending claims of its denom; all of it where there
    is none. -/
def spDiff (current : List Coin) (previous : Coin) : List Coin :=
  let same := current.filter fun claim => claim.denom = previous.denom
  if same = [] then [previous]
  else (same.map fun claim => ⟨claim.denom, previous.amount - claim.amount⟩).filter fun claim =>
    0 < claim.amount

def lqDiff (current : List LQClaims) (previous : LQClaims) : Outcome StdError (List Coin) := do
  let same := current.filter fun claim => claim.bidFor = previous.bidFor
  if same = [] then do
    pure [⟨previous.bidFor, ← Uint256.toUint128 previous.pendingLiquidatedCollateral⟩]
  else do
    let diffs ← same.mapM fun claim => do
      let diff ← (if claim.pendingLiquidatedCollateral ≤ previous.pendingLiquidatedCollateral then
          Uint256.toUint128
            (previous.pendingLiquidatedCollateral - claim.pendingLiquidatedCollateral)
        else pure 0)
      pure (⟨claim.bidFor, diff⟩ : Coin)
    pure (diffs.filter fun claim => 0 < claim.amount)

/-- The proposals of a list that were pending and that a user has voted on since. One of the
    last hour does not count. -/
def newlyVotedProposals (deps : Deps) (env : Env) (config : Config) (user : Addr)
    (claimCheck : ClaimCheck) (votes : List Nat) : Outcome StdError (List Nat) :=
  (votes.filter fun id => claimCheck.votePending.contains id).foldlM (fun voted id => do
    let proposal ← Outcome.ofExcept (deps.proposal config.governanceContract id)
    let lastHour ← subUint env.blockTime (secondsPerDay / 24)
    pure (if lastHour ≤ proposal.startTime then voted
      else if hasVoted proposal user then voted ++ [id]
      else voted)) []

/-- The value of some coins, by the prices of their denoms. -/
def claimsValue (coins : List Coin) (denoms : List AssetInfo) (prices : List PriceResponse) :
    Outcome StdError Decimal :=
  coins.foldlM (fun total coin =>
    match denoms.findIdx? fun denom => denom = .nativeToken coin.denom with
    | some i => do
        let price ← Outcome.index prices i
        Decimal.add total (← price.getValue coin.amount)
    | none => pure total) Decimal.zero

def allocatePoints (deps : Deps) (config : Config) (user : Addr) (cdtPrice : PriceResponse)
    (revenuePaid : Nat) (spClaimDiff lqClaimDiff : List Coin) (newlyVotedProposals : List Nat)
    (userStats : KeyMap Addr UserStats) : Outcome StdError (KeyMap Addr UserStats) := do
  let claimDiffs := spClaimDiff ++ lqClaimDiff
  let uniqueDenoms := (claimDiffs.map fun coin => AssetInfo.nativeToken coin.denom).foldl
    (fun denoms denom => if denom ∈ denoms then denoms else denoms ++ [denom]) []
  let prices := match deps.prices config.oracleContract uniqueDenoms with
    | .ok prices => prices
    | .error _ => []
  let claimed ← claimsValue claimDiffs uniqueDenoms prices
  let total ← Decimal.add claimed (← cdtPrice.getValue revenuePaid)
  -- a dollar for each vote
  let total ← Decimal.add total (← Decimal.fromRatio newlyVotedProposals.length 1)
  let points ← decimalMultiplication total config.pointsPerDollar
  let stats := (userStats.lookup user).getD ⟨Decimal.zero, Decimal.zero⟩
  let totalPoints ← Decimal.add stats.totalPoints points
  let claimablePoints ← Decimal.add stats.claimablePoints points
  pure (userStats.insert user ⟨totalPoints, claimablePoints⟩)

def givePoints (deps : Deps) (env : Env) (info : MessageInfo)
    (cdpRepayment spClaims lqClaims : Bool)
    (vote : Option (List Nat)) (s : State) : Result (State × Response) := do
  let claimCheck ← Outcome.ofOption s.claimCheck
    (.std (.notFound "membrane::points_system::ClaimCheck"))
  Outcome.guardErr (info.sender ≠ claimCheck.user) .unauthorized
  let basket ← liftStd (Outcome.ofExcept (deps.basket s.config.positionsContract))
  let revenuePaid ← (if cdpRepayment then
      Outcome.ofOption (Uint128.checkedSub claimCheck.cdpPendingRevenue basket.pendingRevenue)
        (.std (.genericErr ("The sequence for points valid repayment is: accrue, claim_check, " ++
          "repay, give_points. Otherwise we'll account for less revenue than you may have paid " ++
          "if any.")))
    else pure 0)
  let spClaimDiff := if spClaims then
      claimCheck.spPendingClaims.flatMap (spDiff (pendingSpClaims deps s.config info.sender))
    else []
  let lqClaimDiff ← liftStd (if lqClaims then do
      let current ← pendingLqClaims deps s.config info.sender
      pure (← claimCheck.lqPendingClaims.mapM (lqDiff current)).flatten
    else pure [])
  let voted ← liftStd
    (newlyVotedProposals deps env s.config info.sender claimCheck (vote.getD []))
  let userStats ← liftStd (allocatePoints deps s.config info.sender basket.creditPrice revenuePaid
    spClaimDiff lqClaimDiff voted s.userStats)
  pure ({ s with claimCheck := none, userStats := userStats },
    ⟨[], ⟨revenuePaid, spClaimDiff, lqClaimDiff, voted⟩⟩)

/-! ## Liquidations -/

def liquidateForUser (deps : Deps) (info : MessageInfo) (positionId : Nat) (positionOwner : String)
    (s : State) : Result (State × Response) := do
  let positionOwner ← liftStd (addrValidate deps.addrValid positionOwner)
  let basket ← liftStd (Outcome.ofExcept (deps.basket s.config.positionsContract))
  pure ({ s with
      liqPropagation := some ⟨basket.creditAsset.amount, info.sender, positionOwner⟩ },
    .messages [.liquidate s.config.positionsContract positionId positionOwner])

/-- `handle_liq_reply`, of a liquidation that succeeded. -/
def handleLiqReply (deps : Deps) (env : Env) (s : State) : Outcome StdError (State × List Msg) := do
  let basket ← Outcome.ofExcept (deps.basket s.config.positionsContract)
  let propagation ← Outcome.ofOption s.liqPropagation
    (.notFound "points_system::state::LiquidationPropagation")
  let balances ← Outcome.ofExcept (deps.balances env.contractAddress)
  let userStats ← allocatePoints deps s.config propagation.liquidatee basket.creditPrice
    (propagation.preLiqCDT - basket.creditAsset.amount) [] [] [] s.userStats
  let userStats ← allocatePoints deps s.config propagation.liquidator basket.creditPrice 0
    balances [] [] userStats
  pure ({ s with liqPropagation := none, userStats := userStats },
    [.send propagation.liquidator balances])

/-! ## Claiming -/

def claimMbrnFromPoints (info : MessageInfo) (s : State) : Result (State × Response) := do
  let config := s.config
  let stats ← Outcome.ofOption (s.userStats.lookup info.sender)
    (.std (.genericErr "User has no points in our system"))
  let amount ← Outcome.mapErr (fun _ => .std (.genericErr "No MBRN to claim"))
    (stats.claimablePoints.checkedMul config.mbrnPerPoint)
  let mbrnToClaim := amount.toUintCeil
  Outcome.guardErr (mbrnToClaim = 0) (.std (.genericErr "No MBRN to claim"))
  let mbrnToClaim ← (if config.maxMbrnDistribution <
        (← Uint128.add mbrnToClaim config.totalMbrnDistribution) then
      Outcome.ofOption
        (Uint128.checkedSub config.maxMbrnDistribution config.totalMbrnDistribution)
        (.std (.genericErr "Claimable MBRN exceeds the max distribution"))
    else pure mbrnToClaim)
  let totalMbrnDistribution ← Uint128.add config.totalMbrnDistribution mbrnToClaim
  pure ({ s with
      config := { config with totalMbrnDistribution := totalMbrnDistribution }
      userStats := s.userStats.insert info.sender { stats with claimablePoints := Decimal.zero } },
    .messages [.mintTokens config.osmosisProxyContract mbrnDenom mbrnToClaim info.sender])

/-! ## Configuration -/

/-- The fields of `UpdateConfig`. -/
structure UpdateConfig where
  owner : Option String
  cdtDenom : Option String
  oracleContract : Option String
  positionsContract : Option String
  stabilityPoolContract : Option String
  liqQueueContract : Option String
  governanceContract : Option String
  osmosisProxyContract : Option String
  mbrnPerPoint : Option Decimal
  maxMbrnDistribution : Option Nat
  pointsPerDollar : Option Decimal
  deriving DecidableEq, Repr

def setAddr (deps : Deps) (update : Option String) (current : Addr) : Result Addr :=
  match update with
  | some addr => liftStd (addrValidate deps.addrValid addr)
  | none => pure current

def updateConfig (deps : Deps) (info : MessageInfo) (update : UpdateConfig) (s : State) :
    Result (State × Response) := do
  let config := s.config
  let owner ← (if info.sender ≠ config.owner then do
      let pending ← Outcome.ofOption s.ownershipTransfer
        (.std (.notFound "cosmwasm_std::addresses::Addr"))
      Outcome.guardErr (info.sender ≠ pending) .unauthorized
      pure info.sender
    else pure config.owner)
  let ownershipTransfer ← (match update.owner with
    | some addr => do pure (some (← liftStd (addrValidate deps.addrValid addr)))
    | none => pure s.ownershipTransfer)
  let oracleContract ← setAddr deps update.oracleContract config.oracleContract
  let positionsContract ← setAddr deps update.positionsContract config.positionsContract
  let stabilityPoolContract ← setAddr deps update.stabilityPoolContract config.stabilityPoolContract
  let liqQueueContract ← setAddr deps update.liqQueueContract config.liqQueueContract
  let governanceContract ← setAddr deps update.governanceContract config.governanceContract
  let osmosisProxyContract ← setAddr deps update.osmosisProxyContract config.osmosisProxyContract
  pure ({ s with
      config := {
        owner := owner
        cdtDenom := update.cdtDenom.getD config.cdtDenom
        oracleContract := oracleContract
        positionsContract := positionsContract
        stabilityPoolContract := stabilityPoolContract
        liqQueueContract := liqQueueContract
        governanceContract := governanceContract
        osmosisProxyContract := osmosisProxyContract
        mbrnPerPoint := update.mbrnPerPoint.getD config.mbrnPerPoint
        totalMbrnDistribution := config.totalMbrnDistribution
        maxMbrnDistribution := update.maxMbrnDistribution.getD config.maxMbrnDistribution
        pointsPerDollar := update.pointsPerDollar.getD config.pointsPerDollar }
      ownershipTransfer := ownershipTransfer }, .messages [])

inductive ExecuteMsg where
  | updateConfig (update : UpdateConfig)
  | checkClaims (cdpRepayment : Option UserInfo) (spClaims lqClaims : Bool)
      (vote : Option (List Nat))
  | givePoints (cdpRepayment spClaims lqClaims : Bool) (vote : Option (List Nat))
  | liquidate (positionId : Nat) (positionOwner : String)
  | claimMBRN
  deriving DecidableEq, Repr

def execute (deps : Deps) (env : Env) (info : MessageInfo) (msg : ExecuteMsg) (s : State) :
    Result (State × Response) :=
  match msg with
  | .updateConfig update => updateConfig deps info update s
  | .checkClaims cdpRepayment spClaims lqClaims vote =>
    checkClaims deps info cdpRepayment spClaims lqClaims vote s
  | .givePoints cdpRepayment spClaims lqClaims vote =>
    givePoints deps env info cdpRepayment spClaims lqClaims vote s
  | .liquidate positionId positionOwner => liquidateForUser deps info positionId positionOwner s
  | .claimMBRN => claimMbrnFromPoints info s

end Membrane.Points
