import Membrane.MarsVault.State

/-!
# The Mars vault

The handlers of `contracts/mars-vault-token`: a deposit is lent out on the money market
and vault tokens are minted for it; vault tokens are burned for a withdrawal. The rate
between the two is saved before, and a callback compares it with the rate after.
-/

namespace Membrane.MarsVault

/-- `HOURS_PER_YEAR`. -/
def hoursPerYear : Nat := 8784

/-- `SECONDS_PER_HOUR`. -/
def secondsPerHour : Nat := 3600

def rateUnit : Nat := 1000000000000

inductive ExecuteMsg where
  | updateConfig (owner marsRedbankAddr : Option String)
  | enterVault
  | exitVault
  | crankAPR
  | rateAssurance
  deriving DecidableEq, Repr

def instantiate (deps : Deps) (env : Env) (info : MessageInfo)
    (vaultSubdenom depositToken marsRedbankAddr : String) : Result State := do
  let redbank ← liftStd (addrValidate deps.addrValid marsRedbankAddr)
  pure {
    config := {
      owner := info.sender
      marsRedbankAddr := redbank
      vaultToken := "factory/" ++ env.contractAddress ++ "/" ++ vaultSubdenom
      depositToken := depositToken
      totalDepositTokens := 0 }
    vaultToken := 0
    aprTracker := ⟨[], env.blockTime, 0⟩
    tokenRateAssurance := none
    ownershipTransfer := none }

def getTotalDepositTokens (deps : Deps) (env : Env) (config : Config) : Outcome StdError Nat :=
  Outcome.mapErr
    (fun _ => .genericErr "Failed to query the Mars Redbank for the vault's collateral info")
    (Outcome.ofExcept
      (deps.userCollateral config.marsRedbankAddr env.contractAddress config.depositToken))

def getAprInstance (deps : Deps) (config : Config) (aprTracker : APRTracker) (blockTime : Nat) :
    Outcome StdError APRInstance := do
  let apr ← Outcome.ofExcept (deps.liquidityRate config.marsRedbankAddr config.depositToken)
  let elapsed ← subUint blockTime aprTracker.lastUpdated
  let timeSinceLastUpdate := max elapsed 1
  let aprPerSecond ← decimalDivision apr (← Decimal.fromRatio timeSinceLastUpdate 1)
  pure ⟨aprPerSecond, timeSinceLastUpdate, apr⟩

/-- `save_apr_instance`: at most one an hour, the oldest of more than a year is dropped. -/
def saveAprInstance (aprTracker : APRTracker) (aprInstance : APRInstance)
    (blockTime totalDepositTokens : Nat) : Outcome StdError APRTracker := do
  let elapsed ← subUint blockTime aprTracker.lastUpdated
  let aprs := aprTracker.aprs ++ [aprInstance]
  pure (if elapsed < secondsPerHour then aprTracker
    else ⟨if hoursPerYear < aprs.length then aprs.drop 1 else aprs, blockTime, totalDepositTokens⟩)

def crankApr (deps : Deps) (env : Env) (s : State) : Result (State × List Msg) := do
  let totalDepositTokens ← liftStd (getTotalDepositTokens deps env s.config)
  let aprInstance ← liftStd (getAprInstance deps s.config s.aprTracker env.blockTime)
  let aprTracker ←
    liftStd (saveAprInstance s.aprTracker aprInstance env.blockTime totalDepositTokens)
  pure ({ s with aprTracker := aprTracker }, [])

def rateAssurance (deps : Deps) (env : Env) (info : MessageInfo) (s : State) :
    Result (State × List Msg) := do
  Outcome.guardErr (info.sender ≠ env.contractAddress) .unauthorized
  let preBtokensPerOne ← Outcome.ofOption s.tokenRateAssurance
    (.std (.notFound "mars_vault_token::state::TokenRateAssurance"))
  let totalDepositTokens ← liftStd (getTotalDepositTokens deps env s.config)
  let btokensPerOne ← liftStd (calculateBaseTokens rateUnit totalDepositTokens s.vaultToken)
  Outcome.guardErr (btokensPerOne ≠ preBtokensPerOne) (.customError
    ("Deposit or withdraw rate assurance failed. Deposit tokens per 1 post-tx: Uint128(" ++
      toString btokensPerOne ++ ") --- pre-tx: Uint128(" ++ toString preBtokensPerOne ++ ")"))
  pure (s, [])

/-- The only coin of a message, which must be of `denom`; `name` is what the error calls it. -/
def onlyCoin (name denom : String) (info : MessageInfo) : Result Nat :=
  match info.funds with
  | [coin] => do
      Outcome.guardErr (coin.denom ≠ denom) (.customError
        ("The wrong asset was sent (\"" ++ coin.denom ++ "\"), this function only accepts the " ++
          name ++ " token: \"" ++ denom ++ "\""))
      pure coin.amount
  | _ => Outcome.fail
    (.customError ("More than 1 asset was sent, this function only accepts the " ++
      name ++ " token: \"" ++ denom ++ "\""))

def enterVault (deps : Deps) (env : Env) (info : MessageInfo) (s : State) :
    Result (State × List Msg) := do
  let config := s.config
  let depositAmount ← onlyCoin "deposit" config.depositToken info
  let totalDepositTokens ← liftStd (getTotalDepositTokens deps env config)
  let aprInstance ← liftStd (getAprInstance deps config s.aprTracker env.blockTime)
  let depositedTokens ← Uint128.add totalDepositTokens depositAmount
  let aprTracker ← liftStd (saveAprInstance s.aprTracker aprInstance env.blockTime depositedTokens)
  let preBtokensPerOne ←
    liftStd (calculateBaseTokens rateUnit totalDepositTokens s.vaultToken)
  let vaultTokensToDistribute ←
    liftStd (calculateVaultTokens depositAmount totalDepositTokens s.vaultToken)
  let vaultToken ← Uint128.add s.vaultToken vaultTokensToDistribute
  pure ({ s with
      vaultToken := vaultToken
      aprTracker := aprTracker
      tokenRateAssurance := some preBtokensPerOne },
    [.mint env.contractAddress config.vaultToken vaultTokensToDistribute info.sender,
      .deposit config.marsRedbankAddr ⟨config.depositToken, depositAmount⟩] ++
    if totalDepositTokens ≠ 0 ∧ s.vaultToken ≠ 0 then [.rateAssurance env.contractAddress] else [])

def exitVault (deps : Deps) (env : Env) (info : MessageInfo) (s : State) :
    Result (State × List Msg) := do
  let config := s.config
  let vaultTokens ← onlyCoin "vault" config.vaultToken info
  Outcome.guardErr (vaultTokens = 0) (.customError "Need to send more than 0 vault tokens")
  let totalDepositTokens ← liftStd (getTotalDepositTokens deps env config)
  let preBtokensPerOne ←
    liftStd (calculateBaseTokens rateUnit totalDepositTokens s.vaultToken)
  let depositTokensToWithdraw ←
    liftStd (calculateBaseTokens vaultTokens totalDepositTokens s.vaultToken)
  let aprInstance ← liftStd (getAprInstance deps config s.aprTracker env.blockTime)
  let remainingTokens ← subUint totalDepositTokens depositTokensToWithdraw
  let aprTracker ← liftStd (saveAprInstance s.aprTracker aprInstance env.blockTime remainingTokens)
  let newVaultTokenSupply ← Outcome.ofOption (Uint128.checkedSub s.vaultToken vaultTokens)
    (.customError "Failed to subtract vault tokens")
  pure ({ s with
      vaultToken := newVaultTokenSupply
      aprTracker := aprTracker
      tokenRateAssurance := some preBtokensPerOne },
    [.burn env.contractAddress config.vaultToken vaultTokens env.contractAddress,
      .withdraw config.marsRedbankAddr config.depositToken depositTokensToWithdraw info.sender] ++
    if newVaultTokenSupply ≠ 0 ∧ depositTokensToWithdraw < totalDepositTokens then
      [.rateAssurance env.contractAddress] else [])

def updateConfig (deps : Deps) (info : MessageInfo) (owner marsRedbankAddr : Option String)
    (s : State) : Result (State × List Msg) := do
  let newOwner ← (if info.sender ≠ s.config.owner then do
      let pending ← Outcome.ofOption s.ownershipTransfer
        (.std (.notFound "cosmwasm_std::addresses::Addr"))
      Outcome.guardErr (info.sender ≠ pending) .unauthorized
      pure info.sender
    else pure s.config.owner)
  let ownershipTransfer ← (match owner with
    | some addr => do pure (some (← liftStd (addrValidate deps.addrValid addr)))
    | none => pure s.ownershipTransfer)
  let redbank ← (match marsRedbankAddr with
    | some addr => liftStd (addrValidate deps.addrValid addr)
    | none => pure s.config.marsRedbankAddr)
  pure ({ s with
      config := { s.config with owner := newOwner, marsRedbankAddr := redbank }
      ownershipTransfer := ownershipTransfer }, [])

def execute (deps : Deps) (env : Env) (info : MessageInfo) (msg : ExecuteMsg) (s : State) :
    Result (State × List Msg) :=
  match msg with
  | .updateConfig owner marsRedbankAddr => updateConfig deps info owner marsRedbankAddr s
  | .enterVault => enterVault deps env info s
  | .exitVault => exitVault deps env info s
  | .crankAPR => crankApr deps env s
  | .rateAssurance => rateAssurance deps env info s

def queryDepositTokenConversion (deps : Deps) (env : Env) (depositTokenAmount : Nat) (s : State) :
    Outcome StdError Nat := do
  let totalDepositTokens ← getTotalDepositTokens deps env s.config
  calculateVaultTokens depositTokenAmount totalDepositTokens s.vaultToken

end Membrane.MarsVault
