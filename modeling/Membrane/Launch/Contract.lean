import Mathlib.Data.List.Sort
import Membrane.Launch.State

/-!
# The lockdrop

The lockdrop of `contracts/launch`: users lock OSMO for a number of days, may move and take
back what they locked, and then claim MBRN that unlocks over those days, by the share of
their tickets in all tickets.
-/

namespace Membrane.Launch

/-- `SECONDS_PER_DAY`. -/
def secondsPerDay : Nat := 86400

/-- `InstantiateMsg`, the addresses that are validated. -/
structure InstantiateMsg where
  preLaunchContributors : String
  apolloRouter : String
  deriving DecidableEq, Repr

def instantiate (addrValid : String → Bool) (env : Env) (msg : InstantiateMsg) : Result State := do
  let preLaunchContributors ← liftStd (addrValidate addrValid msg.preLaunchContributors)
  let _ ← liftStd (addrValidate addrValid msg.apolloRouter)
  let depositEnd ← Uint64.add env.blockTime (5 * secondsPerDay)
  let withdrawalEnd ← Uint64.add env.blockTime (7 * secondsPerDay)
  pure {
    config := {
      mbrnDenom := ""
      creditDenom := ""
      preLaunchContributors := preLaunchContributors
      osmoDenom := "uosmo"
      usdcDenom := "ibc/D189335C6E4A68B513C10AB227BF1C1D38C746766278BA3EEB4FB14124F1D858" }
    addresses := ⟨"", ""⟩
    lockdrop := {
      numOfIncentives := 10000000000000
      lockedAsset := .nativeToken "uosmo"
      lockUpCeiling := 365
      startTime := env.blockTime
      depositEnd := depositEnd
      withdrawalEnd := withdrawalEnd
      launched := false }
    lockedUsers := ∅
    incentiveRatios := [] }

/-! ## Deposits -/

def validateLockdropAsset (info : MessageInfo) (lockdropAsset : AssetInfo) :
    Outcome StdError Asset := do
  Outcome.guardErr (1 < info.funds.length) (.genericErr "Invalid assets sent")
  let coin ← Outcome.ofOption (info.funds.find? fun coin => coin.denom = lockdropAsset.toText)
    (.genericErr ("No valid lockdrop asset, looking for " ++ lockdropAsset.toText))
  Outcome.guardErr (coin.amount < 1000000) (.genericErr "Minimum deposit is 1_000_000 uosmo")
  pure ⟨.nativeToken coin.denom, coin.amount⟩

def findLock (deposits : List Lock) (lockUpDuration : Nat) : Option Nat :=
  deposits.findIdx? fun lock => lock.lockUpDuration = lockUpDuration

/-- An amount added to the lock of its duration, or as a new lock. -/
def addLock {ε : Type} (deposits : List Lock) (amount lockUpDuration : Nat) :
    Outcome ε (List Lock) :=
  match findLock deposits lockUpDuration with
  | some i => do
      let lock ← Outcome.index deposits i
      let deposit ← Uint128.add lock.deposit amount
      Outcome.setIndex deposits i { lock with deposit := deposit }
  | none => pure (deposits ++ [⟨amount, lockUpDuration⟩])

def lock (env : Env) (info : MessageInfo) (lockUpDuration : Nat) (s : State) :
    Result (State × Response OutMsg) := do
  Outcome.guardErr (s.lockdrop.depositEnd < env.blockTime) .depositsOver
  Outcome.guardErr (s.lockdrop.lockUpCeiling < lockUpDuration)
    (.customError "Can't lock that long")
  let validAsset ← liftStd (validateLockdropAsset info s.lockdrop.lockedAsset)
  let lockedUser ← (match s.lockedUsers.lookup info.sender with
    | some lockedUser => do
        let deposits ← addLock lockedUser.deposits validAsset.amount lockUpDuration
        pure { lockedUser with deposits := deposits }
    | none => pure ⟨info.sender, [⟨validAsset.amount, lockUpDuration⟩], 0, 0⟩)
  pure ({ s with lockedUsers := s.lockedUsers.insert info.sender lockedUser }, {})

def changeLockupDuration (env : Env) (info : MessageInfo) (uosmoAmount : Option Nat)
    (oldLockUpDuration newLockUpDuration : Nat) (s : State) :
    Result (State × Response OutMsg) := do
  Outcome.guardErr (s.lockdrop.depositEnd < env.blockTime) .depositsOver
  Outcome.guardErr (s.lockdrop.lockUpCeiling < newLockUpDuration)
    (.customError "Can't lock that long")
  let lockedUser ← Outcome.ofOption (s.lockedUsers.lookup info.sender) .notAUser
  let i ← Outcome.ofOption (findLock lockedUser.deposits oldLockUpDuration)
    (.customError "User has no deposit with that lockup duration")
  let old ← Outcome.index lockedUser.deposits i
  let changeAmount := uosmoAmount.elim old.deposit fun amount => min amount old.deposit
  let deposit ← subUint old.deposit changeAmount
  let deposits ← (if deposit = 0 then Outcome.removeIndex lockedUser.deposits i
    else Outcome.setIndex lockedUser.deposits i { old with deposit := deposit })
  let deposits ← addLock deposits changeAmount newLockUpDuration
  pure ({ s with
    lockedUsers := s.lockedUsers.insert info.sender { lockedUser with deposits := deposits } }, {})

/-- The deposits with an amount taken from the locks of a duration, one after the other, and
    what is left of the amount. -/
def takeLocks (lockUpDuration : Nat) : Nat → List Lock → List Lock × Nat
  | withdrawalAmount, [] => ([], withdrawalAmount)
  | withdrawalAmount, lock :: rest =>
    if lock.lockUpDuration = lockUpDuration then
      if withdrawalAmount ≤ lock.deposit then
        let (rest, left) := takeLocks lockUpDuration 0 rest
        ({ lock with deposit := lock.deposit - withdrawalAmount } :: rest, left)
      else
        let (rest, left) := takeLocks lockUpDuration (withdrawalAmount - lock.deposit) rest
        ({ lock with deposit := 0 } :: rest, left)
    else
      let (rest, left) := takeLocks lockUpDuration withdrawalAmount rest
      (lock :: rest, left)

def withdrawalMsg (asset : Asset) (recipient : Addr) : Outcome StdError (CosmosMsg OutMsg) :=
  match asset.info with
  | .nativeToken denom => pure (.bankSend recipient [⟨denom, asset.amount⟩])
  | .token _ => Outcome.fail (.genericErr "Native assets only")

def withdraw (env : Env) (info : MessageInfo) (withdrawalAmount lockUpDuration : Nat) (s : State) :
    Result (State × Response OutMsg) := do
  Outcome.guardErr
    (env.blockTime < s.lockdrop.depositEnd ∨ s.lockdrop.withdrawalEnd < env.blockTime)
    .withdrawalsOver
  let lockedUser ← Outcome.ofOption (s.lockedUsers.lookup info.sender) .notAUser
  let (deposits, left) := takeLocks lockUpDuration withdrawalAmount lockedUser.deposits
  Outcome.guardErr (left ≠ 0)
    (.customError ("This user only owns " ++ toString (withdrawalAmount - left) ++
      " of the locked asset in this lockup duration: " ++ toString lockUpDuration ++
      ", retry withdrawal at or below that amount"))
  let deposits := deposits.filter fun lock => lock.deposit ≠ 0
  let msg ← liftStd (withdrawalMsg ⟨s.lockdrop.lockedAsset, withdrawalAmount⟩ info.sender)
  pure ({ s with
      lockedUsers := s.lockedUsers.insert info.sender { lockedUser with deposits := deposits } },
    Response.addMessages {} [msg])

/-! ## Incentives -/

/-- The tickets of a lock: a part of it for each day and one more. -/
def Lock.tickets (lock : Lock) : Outcome StdError Nat := do
  Uint128.mul lock.deposit (← Uint64.add lock.lockUpDuration 1)

def usersAscending (users : KeyMap Addr LockedUser) : List LockedUser :=
  (users.entries.insertionSort fun a b => a.1 ≤ b.1).map fun entry => entry.2

def userTotal (lockedUser : LockedUser) : Outcome StdError (Addr × Nat) := do
  let tickets ← lockedUser.deposits.mapM Lock.tickets
  pure (lockedUser.user, ← Uint128.sum tickets)

def setTotalTickets (users : KeyMap Addr LockedUser) (userTotal : Addr × Nat) :
    Outcome StdError (KeyMap Addr LockedUser) := do
  let lockedUser ← Outcome.unwrap (users.lookup userTotal.1)
  pure (users.insert userTotal.1 { lockedUser with totalTickets := userTotal.2 })

def calcTicketDistribution (users : KeyMap Addr LockedUser) :
    Outcome StdError (KeyMap Addr LockedUser × List UserRatio) := do
  let userTotals ← (usersAscending users).mapM userTotal
  let users ← userTotals.foldlM setTotalTickets users
  let totalTickets ← Uint128.sum (userTotals.map (·.2))
  let userRatios ← userTotals.mapM fun user => do
    let ratio ← decimalDivision (← Decimal.fromRatio user.2 1) (← Decimal.fromRatio totalTickets 1)
    pure (⟨user.1, ratio⟩ : UserRatio)
  pure (users, userRatios)

/-- The state with the ratios of the users, which are computed once. -/
def distribute (s : State) : Outcome StdError State :=
  if s.incentiveRatios = [] then do
    let (lockedUsers, incentiveRatios) ← calcTicketDistribution s.lockedUsers
    pure { s with lockedUsers := lockedUsers, incentiveRatios := incentiveRatios }
  else pure s

def getUserIncentives (userRatios : List UserRatio) (user : Addr) (totalIncentives : Nat) :
    Outcome StdError Nat := do
  let userRatio ← Outcome.ofOption (userRatios.find? fun userRatio => userRatio.user = user)
    (.genericErr "User didn't participate in the lockdrop")
  Decimal.mulUint 1
    (← decimalMultiplication userRatio.ratio (← Decimal.fromRatio totalIncentives 1))

/-- The tickets of a lock that are unlocked some time after the lockdrop. -/
def Lock.withdrawableTickets (lock : Lock) (timeSinceLockdropEnd : Nat) : Outcome StdError Nat := do
  let lockUpSeconds ← Uint64.mul lock.lockUpDuration secondsPerDay
  if lockUpSeconds < timeSinceLockdropEnd then lock.tickets
  else do
    let ratioOfTimePassed ← decimalDivision (← Decimal.fromRatio timeSinceLockdropEnd 1)
      (← Decimal.fromRatio lockUpSeconds 1)
    Decimal.mulUint (← lock.tickets) ratioOfTimePassed

/-- The incentives of a user that are unlocked some time after the lockdrop. -/
def unlockedIncentives (lockedUser : LockedUser) (incentives timeSinceLockdropEnd : Nat) :
    Outcome StdError Nat := do
  let withdrawableTickets ← lockedUser.deposits.foldlM (fun total lock => do
    Uint128.add total (← lock.withdrawableTickets timeSinceLockdropEnd)) 0
  let ratioOfUnlock ← decimalDivision (← Decimal.fromRatio withdrawableTickets 1)
    (← Decimal.fromRatio lockedUser.totalTickets 1)
  Decimal.mulUint incentives ratioOfUnlock

/-- What a claim starts from: the state with the ratios, the user, its incentives and what is
    unlocked of them. -/
def unlock (time : Nat) (user : Addr) (s : State) : Result (State × LockedUser × Nat × Nat) := do
  Outcome.guardErr (time ≤ s.lockdrop.withdrawalEnd) (.customError "Lockdrop hasn't ended yet")
  let s ← liftStd (distribute s)
  let incentives ← liftStd (getUserIncentives s.incentiveRatios user s.lockdrop.numOfIncentives)
  let lockedUser ← Outcome.ofOption (s.lockedUsers.lookup user) .notAUser
  let timeSinceLockdropEnd ← subUint time s.lockdrop.withdrawalEnd
  let unlocked ← liftStd (unlockedIncentives lockedUser incentives timeSinceLockdropEnd)
  pure (s, lockedUser, incentives, unlocked)

def claim (env : Env) (info : MessageInfo) (s : State) : Result (State × Response OutMsg) := do
  let (s, lockedUser, incentives, unlocked) ← unlock env.blockTime info.sender s
  let lockedIncentives := incentives - unlocked
  Outcome.guardErr (lockedIncentives < 1000000 ∧ 0 < lockedIncentives) (.customError
    ("If you leave less than 1 MBRN still unlocking, it'll get stuck due to the minimum stake " ++
      "amount"))
  let amountToMint := unlocked - lockedUser.incentivesWithdrawn
  let incentivesWithdrawn ← Uint128.add lockedUser.incentivesWithdrawn amountToMint
  Outcome.guardErr (amountToMint = 0) (.customError "No incentives to claim")
  pure ({ s with
      lockedUsers := s.lockedUsers.insert info.sender
        { lockedUser with incentivesWithdrawn := incentivesWithdrawn } },
    Response.addMessages {} [
      .execute s.addresses.osmosisProxy
        (.mintTokens s.config.mbrnDenom amountToMint env.contractAddress) [],
      .execute s.addresses.staking (.stake (some info.sender)) [⟨s.config.mbrnDenom,
        amountToMint⟩]])

/-! ## Configuration -/

structure UpdateConfig where
  creditDenom : Option String
  mbrnDenom : Option String
  osmoDenom : Option String
  usdcDenom : Option String
  deriving DecidableEq, Repr

def updateConfig (info : MessageInfo) (update : UpdateConfig) (s : State) :
    Result (State × Response OutMsg) := do
  Outcome.guardErr (info.sender ≠ s.config.preLaunchContributors) .unauthorized
  pure ({ s with
    config := { s.config with
      creditDenom := update.creditDenom.getD s.config.creditDenom
      mbrnDenom := update.mbrnDenom.getD s.config.mbrnDenom
      osmoDenom := update.osmoDenom.getD s.config.osmoDenom
      usdcDenom := update.usdcDenom.getD s.config.usdcDenom } }, {})

/-- The messages of `ExecuteMsg` that the lockdrop and its configuration handle. -/
inductive ExecuteMsg where
  | lock (lockUpDuration : Nat)
  | changeLockDuration (uosmoAmount : Option Nat) (oldLockUpDuration newLockUpDuration : Nat)
  | withdraw (withdrawalAmount lockUpDuration : Nat)
  | claim
  | updateConfig (update : UpdateConfig)
  deriving DecidableEq, Repr

def execute (env : Env) (info : MessageInfo) (msg : ExecuteMsg) (s : State) :
    Result (State × Response OutMsg) :=
  match msg with
  | .lock lockUpDuration => lock env info lockUpDuration s
  | .changeLockDuration uosmoAmount oldLockUpDuration newLockUpDuration =>
    changeLockupDuration env info uosmoAmount oldLockUpDuration newLockUpDuration s
  | .withdraw withdrawalAmount lockUpDuration => withdraw env info withdrawalAmount lockUpDuration s
  | .claim => claim env info s
  | .updateConfig update => updateConfig info update s

end Membrane.Launch
