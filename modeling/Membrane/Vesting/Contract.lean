import Membrane.Vesting.State

/-!
# The vesting contract

`contract.rs` of `contracts/vesting`: recipients get allocations of MBRN that
unlock over time and are minted when they are withdrawn.
-/

namespace Membrane.Vesting

structure InstantiateMsg where
  owner : Option String
  initialAllocation : Nat
  preLaunchContributors : String
  preLaunchCommunity : List String
  mbrnDenom : String
  osmosisProxy : String
  stakingContract : String

structure UpdateConfig where
  owner : Option String := none
  mbrnDenom : Option String := none
  osmosisProxy : Option String := none
  stakingContract : Option String := none
  additionalAllocation : Option Nat := none

/-- `ExecuteMsg`, the messages that write the contract's storage. -/
inductive ExecuteMsg where
  | addRecipient (recipient : String)
  | removeRecipient (recipient : String)
  | addAllocation (recipient : String) (allocation : Nat) (vestingPeriod : Option VestingPeriod)
  | withdrawUnlocked
  | claimFeesForContract
  | claimFeesForRecipient
  | updateConfig (update : UpdateConfig)

/-- `SECONDS_IN_A_DAY`. -/
def secondsInADay : Nat := 86400

/-- The allocation of a member of the pre-launch community. -/
def communityAllocation : Nat := 1000000000

/-! ## Instantiation -/

/-- One address of the pre-launch community: skipped when it is not valid or already a
    recipient. -/
def addCommunity (deps : Deps) (env : Env) (recipients : List Recipient) (address : String) :
    List Recipient :=
  if deps.addrValid address = false then recipients
  else if recipients.any (fun recipient => recipient.recipient == address) then recipients
  else recipients ++ [⟨address, some ⟨communityAllocation, 0, env.blockTime, ⟨0, 365⟩⟩, []⟩]

def instantiate (deps : Deps) (env : Env) (info : MessageInfo) (msg : InstantiateMsg) :
    Result (State × Response OutMsg) := do
  let osmosisProxy ← liftStd (addrValidate deps.addrValid msg.osmosisProxy)
  let stakingContract ← liftStd (addrValidate deps.addrValid msg.stakingContract)
  let owner ← (match msg.owner with
    | some address => liftStd (addrValidate deps.addrValid address)
    | none => pure info.sender)
  let contributors ← liftStd (addrValidate deps.addrValid msg.preLaunchContributors)
  let recipients := msg.preLaunchCommunity.foldl (addCommunity deps env)
    [⟨contributors, some ⟨msg.initialAllocation, 0, env.blockTime, ⟨730, 365⟩⟩, []⟩]
  let additionalAllocation ← Uint128.mul (recipients.length - 1) communityAllocation
  let totalAllocation ← Uint128.add msg.initialAllocation additionalAllocation
  pure (⟨⟨owner, totalAllocation, msg.mbrnDenom, osmosisProxy, stakingContract⟩, recipients, none⟩,
    {})

/-! ## Fees of the contract's stake -/

/-- `get_allocation_ratios`, of recipients that have an allocation. -/
def getAllocationRatios (deps : Deps) (env : Env) (config : Config)
    (recipients : List Recipient) : Outcome StdError (List Decimal) := do
  let stakedMbrn ← Outcome.ofExcept (deps.userStake config.stakingContract env.contractAddress)
  recipients.mapM fun recipient => do
    let allocation ← Outcome.unwrap recipient.allocation
    decimalDivision (← Decimal.fromRatio (← allocation.remaining) 1)
      (← Decimal.fromRatio stakedMbrn 1)

/-- A recipient with its share of a claimed asset. -/
def creditClaim (claimAsset : Asset) (recipient : Recipient) (ratio : Decimal) :
    Outcome StdError Recipient := do
  let share ← Decimal.mulUint claimAsset.amount ratio
  match recipient.claimables.findIdx? fun claim => claim.info == claimAsset.info with
  | some index => do
      let claim ← Outcome.index recipient.claimables index
      let amount ← Uint128.add claim.amount share
      let claimables ← Outcome.setIndex recipient.claimables index { claim with amount := amount }
      pure { recipient with claimables := claimables }
  | none => pure { recipient with claimables := recipient.claimables ++ [⟨claimAsset.info, share⟩] }

/-- One claimed asset, split over the recipients by their ratios. -/
def creditClaims (ratios : List Decimal) (recipients : List Recipient) (claimAsset : Asset) :
    Outcome StdError (List Recipient) :=
  recipients.zipIdx.mapM fun (recipient, i) => do
    creditClaim claimAsset recipient (← Outcome.index ratios i)

def claimFeesForContract (deps : Deps) (env : Env) (s : State) :
    Result (State × Response OutMsg) := do
  let claimables ← liftStd (Outcome.ofExcept
    (deps.userRewards s.config.stakingContract env.contractAddress))
  if claimables = [] then pure (s, {})
  else do
    let allocated := s.recipients.filter fun recipient => recipient.allocation.isSome
    let ratios ← liftStd (getAllocationRatios deps env s.config allocated)
    let allocated ← liftStd (claimables.foldlM (creditClaims ratios) allocated)
    let unallocated := s.recipients.filter fun recipient => recipient.allocation.isNone
    pure ({ s with recipients := unallocated ++ allocated },
      Response.addMessages {}
        [.execute s.config.stakingContract (.claimRewards false none) []])

/-- `asset_to_coin` of the claims that are native tokens. -/
def nativeClaims (claimables : List Asset) : List Coin :=
  claimables.filterMap fun claimable =>
    match claimable.info with
    | .nativeToken denom => some ⟨denom, claimable.amount⟩
    | .token _ => none

def claimFeesForRecipient (info : MessageInfo) (s : State) : Result (State × Response OutMsg) := do
  let i ← Outcome.ofOption
    (s.recipients.findIdx? fun recipient => recipient.recipient == info.sender) .invalidRecipient
  let recipient ← Outcome.index s.recipients i
  Outcome.guardErr (recipient.claimables = []) (.customError "Nothing to claim")
  let recipients ← Outcome.setIndex s.recipients i { recipient with claimables := [] }
  pure ({ s with recipients := recipients },
    Response.addMessages {} [.bankSend recipient.recipient (nativeClaims recipient.claimables)])

/-! ## Unlocking -/

/-- `get_unlocked_amount`, of an allocation that exists. -/
def getUnlockedAmount (allocation : Allocation) (currentBlockTime : Nat) :
    Outcome StdError (Nat × Allocation) :=
  if allocation.amount = 0 then pure (0, allocation)
  else do
    let timePassed ← subUint currentBlockTime allocation.startTimeOfAllocation
    let cliffInSeconds ← Uint64.mul allocation.vestingPeriod.cliff secondsInADay
    if timePassed < cliffInSeconds then pure (0, allocation)
    else do
      let timePassedCliff := timePassed - cliffInSeconds
      let linearInSeconds ← Uint64.mul allocation.vestingPeriod.linear secondsInADay
      if timePassedCliff < linearInSeconds then do
        -- partial unlock, by the time into the linear period
        let ratioUnlocked ← decimalDivision (← Decimal.fromRatio timePassedCliff 1)
          (← Decimal.fromRatio linearInSeconds 1)
        let newlyUnlocked ← (if ratioUnlocked.isZero = false then do
            subUint (← Decimal.mulUint allocation.amount ratioUnlocked) allocation.amountWithdrawn
          else pure 0)
        let amountWithdrawn ← Uint128.add allocation.amountWithdrawn newlyUnlocked
        pure (newlyUnlocked, { allocation with amountWithdrawn := amountWithdrawn })
      else do
        -- full unlock: the whole amount is added to what was withdrawn
        let unlockedAmount ← Outcome.ofOption
          (Uint128.checkedSub allocation.amount allocation.amountWithdrawn)
          (.genericErr "Nothing left to unlock")
        let amountWithdrawn ← Uint128.add allocation.amountWithdrawn allocation.amount
        pure (unlockedAmount, { allocation with amountWithdrawn := amountWithdrawn })

def withdrawUnlocked (env : Env) (info : MessageInfo) (s : State) :
    Result (State × Response OutMsg) := do
  let recipient ← Outcome.ofOption
    (s.recipients.find? fun recipient => recipient.recipient == info.sender) .invalidRecipient
  let allocation ← Outcome.ofOption recipient.allocation .invalidAllocation
  let (unlockedAmount, newAllocation) ← liftStd (getUnlockedAmount allocation env.blockTime)
  let others := s.recipients.filter fun recipient => recipient.recipient != info.sender
  pure ({ s with recipients := others ++ [{ recipient with allocation := some newAllocation }] },
    Response.addMessages {} [.execute s.config.osmosisProxy
      (.mintTokens s.config.mbrnDenom unlockedAmount info.sender) []])

/-! ## Allocations -/

/-- The owner's allocation for a recipient, in place of the one there is. -/
def setAllocation (recipient : Addr) (allocation : Allocation) (recipients : List Recipient) :
    List Recipient :=
  recipients.map fun stored =>
    if stored.recipient = recipient then { stored with allocation := some allocation } else stored

/-- What is left of an allocation that is divvied, and the new allocation. -/
def Allocation.divvy (allocation : Allocation) (share : Nat) : Allocation × Allocation :=
  match Uint128.checkedSub allocation.amount share with
  | some diff =>
    ({ allocation with amount := diff },
      { allocation with amount := share, amountWithdrawn := 0 })
  | none => ({ allocation with amount := 0 }, { allocation with amountWithdrawn := 0 })

/-- The sender's allocation divvied, with the new allocation taken from it. -/
def divvySender (sender : Addr) (share : Nat) (newAllocation : Option Allocation)
    (stored : Recipient) : Recipient × Option Allocation :=
  if stored.recipient = sender then
    match stored.allocation with
    | some allocation =>
      ({ stored with allocation := some (allocation.divvy share).1 },
        some (allocation.divvy share).2)
    | none => (stored, newAllocation)
  else (stored, newAllocation)

/-- Every stored allocation of the sender divvied, with the last new allocation. -/
def divvySenders (sender : Addr) (share : Nat) :
    Option Allocation → List Recipient → List Recipient × Option Allocation
  | newAllocation, [] => ([], newAllocation)
  | newAllocation, stored :: rest =>
    let (stored, newAllocation) := divvySender sender share newAllocation stored
    let (rest, newAllocation) := divvySenders sender share newAllocation rest
    (stored :: rest, newAllocation)

/-- The new allocation added to a recipient that has an allocation. -/
def increaseAllocation (recipient : Addr) (newAllocation : Option Allocation)
    (stored : Recipient) : Result Recipient :=
  if stored.recipient = recipient then
    match stored.allocation with
    | some allocation => do
        let new ← Outcome.unwrap newAllocation
        let amount ← Uint128.add allocation.amount new.amount
        pure { stored with allocation := some { allocation with amount := amount } }
    | none => pure stored
  else pure stored

/-- The sender's allocation divvied with a recipient, who is added when new. -/
def divvyAllocation (sender recipient : Addr) (share : Nat) (recipients : List Recipient) :
    Result (List Recipient) := do
  let (recipients, newAllocation) := divvySenders sender share none recipients
  if recipients.any fun stored => stored.recipient == recipient then
    recipients.mapM (increaseAllocation recipient newAllocation)
  else pure (recipients ++ [⟨recipient, newAllocation, []⟩])

def allocatedAmounts (recipients : List Recipient) : List Nat :=
  recipients.filterMap fun recipient => recipient.allocation.map (·.amount)

def addAllocation (deps : Deps) (env : Env) (info : MessageInfo) (recipient : String)
    (allocation : Nat) (vestingPeriod : Option VestingPeriod) (s : State) :
    Result (State × Response OutMsg) := do
  let (s, response) ← claimFeesForContract deps env s
  Outcome.guardErr (allocation = 0) .invalidAllocation
  let recipient ← liftStd (addrValidate deps.addrValid recipient)
  let recipients ← (match vestingPeriod with
    | some vestingPeriod => do
        Outcome.guardErr (info.sender ≠ s.config.owner) .unauthorized
        pure (setAllocation recipient ⟨allocation, 0, env.blockTime, vestingPeriod⟩ s.recipients)
    | none => divvyAllocation info.sender recipient allocation s.recipients)
  let allocationTotal ← Uint128.sum (allocatedAmounts recipients)
  Outcome.guardErr (s.config.totalAllocation < allocationTotal) .overAllocated
  pure ({ s with recipients := recipients }, response)

/-! ## Recipients and configuration -/

def addRecipient (deps : Deps) (info : MessageInfo) (recipient : String) (s : State) :
    Result (State × Response OutMsg) := do
  Outcome.guardErr (info.sender ≠ s.config.owner) .unauthorized
  let recipient ← liftStd (addrValidate deps.addrValid recipient)
  Outcome.guardErr ((s.recipients.any fun stored => stored.recipient == recipient) = true)
    (.customError "Duplicate Recipient")
  pure ({ s with recipients := s.recipients ++ [⟨recipient, none, []⟩] }, {})

def removeRecipient (info : MessageInfo) (recipient : String) (s : State) :
    Result (State × Response OutMsg) := do
  Outcome.guardErr (info.sender ≠ s.config.owner) .unauthorized
  pure ({ s with recipients := s.recipients.filter fun stored => stored.recipient != recipient },
    {})

/-- An optional address of a message, validated, or the one there is. -/
def setAddr (deps : Deps) (update : Option String) (current : Addr) : Result Addr :=
  match update with
  | some text => liftStd (addrValidate deps.addrValid text)
  | none => pure current

def updateConfig (deps : Deps) (info : MessageInfo) (update : UpdateConfig) (s : State) :
    Result (State × Response OutMsg) := do
  let owner ← (if info.sender ≠ s.config.owner then do
      let newOwner ← Outcome.ofOption s.ownershipTransfer (.std (.notFound "cosmwasm_std::Addr"))
      Outcome.guardErr (info.sender ≠ newOwner) .unauthorized
      pure info.sender
    else pure s.config.owner)
  let ownershipTransfer ← (match update.owner with
    | some address => do pure (some (← liftStd (addrValidate deps.addrValid address)))
    | none => pure s.ownershipTransfer)
  let osmosisProxy ← setAddr deps update.osmosisProxy s.config.osmosisProxy
  let stakingContract ← setAddr deps update.stakingContract s.config.stakingContract
  let totalAllocation ←
    Uint128.add s.config.totalAllocation (update.additionalAllocation.getD 0)
  pure ({ s with
    config := ⟨owner, totalAllocation, update.mbrnDenom.getD s.config.mbrnDenom, osmosisProxy,
      stakingContract⟩
    ownershipTransfer := ownershipTransfer }, {})

/-! ## Calls -/

def execute (deps : Deps) (env : Env) (info : MessageInfo) (msg : ExecuteMsg) (s : State) :
    Result (State × Response OutMsg) :=
  match msg with
  | .addRecipient recipient => addRecipient deps info recipient s
  | .removeRecipient recipient => removeRecipient info recipient s
  | .addAllocation recipient allocation vestingPeriod =>
    addAllocation deps env info recipient allocation vestingPeriod s
  | .withdrawUnlocked => withdrawUnlocked env info s
  | .claimFeesForContract => claimFeesForContract deps env s
  | .claimFeesForRecipient => claimFeesForRecipient info s
  | .updateConfig update => updateConfig deps info update s

def mintedBy (msg : SubMsg OutMsg) : Nat :=
  match msg.msg with
  | .execute _ (.mintTokens _ amount _) _ => amount
  | _ => 0

def minted (response : Response OutMsg) : Nat := (response.messages.map mintedBy).sum

/-- The proxy accepts a message of the contract: `mint_tokens` rejects a zero amount. -/
def accepts (msg : SubMsg OutMsg) : Bool :=
  match msg.msg with
  | .execute _ (.mintTokens _ amount _) _ => amount != 0
  | _ => true

/-- One call from outside: what it can ask of the chain, its block, its sender and
    its message. -/
structure Call where
  deps : Deps
  env : Env
  info : MessageInfo
  msg : ExecuteMsg

/-- The contract with the total it has minted since it was instantiated. -/
structure Ledger where
  state : State
  minted : Nat

/-- A successful call whose messages are accepted; their mints are added up. -/
def Call.exec (l : Ledger) (call : Call) : Option Ledger :=
  match execute call.deps call.env call.info call.msg l.state with
  | .ok (s, response) =>
    if response.messages.all accepts then some ⟨s, l.minted + minted response⟩ else none
  | .error _ => none

def callStep (l : Ledger) (call : Call) (l' : Ledger) : Prop := Call.exec l call = some l'

end Membrane.Vesting
