import Membrane.Proxy.State

/-!
# The proxy contract

The token handlers of `contract.rs` of `contracts/osmosis-proxy`: the other contracts
mint and burn through it, and it keeps the supply of each denom it created.
-/

namespace Membrane.Proxy

/-- `ExecuteMsg`, without the swaps and the gauges. -/
inductive ExecuteMsg where
  | createDenom (subdenom : String) (maxSupply : Option Nat)
  | changeAdmin (denom newAdminAddress : String)
  | mintTokens (denom : String) (amount : Nat) (mintToAddress : String)
  | burnTokens (denom : String) (amount : Nat) (burnFromAddress : String)
  | editTokenMaxSupply (denom : String) (maxSupply : Nat)
  | updateConfig (owners : Option (List Owner)) (addOwner : Option Bool)
      (liquidityMultiplier : Option Decimal)
      (debtAuction positionsContract liquidityContract oracleContract : Option String)
  | editOwner (owner : String) (stabilityPoolRatio : Option Decimal)
      (nonTokenContractAuth : Option Bool)

def instantiate (info : MessageInfo) : State := {
  config := {
    owners := [⟨info.sender, 0, some Decimal.zero, true, false⟩]
    liquidityMultiplier := none
    debtAuction := none
    positionsContract := none
    liquidityContract := none
    oracleContract := none }
  tokens := ∅
  pending := none }

/-- `validate_authority`: the owner that the sender is. -/
def validateAuthority (config : Config) (info : MessageInfo) : Option Owner :=
  config.owners.find? fun owner => owner.owner == info.sender

/-- `validate_authority` in the token handlers. -/
def assertAuthority (config : Config) (info : MessageInfo) : Result PUnit :=
  Outcome.guardErr (validateAuthority config info = none) .unauthorized

/-- `validate_authority` in the configuration's handlers. -/
def assertConfigAuthority (config : Config) (info : MessageInfo) : Result PUnit :=
  match validateAuthority config info with
  | some owner => Outcome.guardErr (owner.nonTokenContractAuth = false) .unauthorized
  | none => Outcome.fail .unauthorized

def validateDenom (denom : String) : Result PUnit :=
  match denom.toList.splitOn '/' with
  | [factory, _, _] =>
    Outcome.guardErr (factory.map Char.toLower ≠ "factory".toList) (.invalidDenom denom
      ("prefix must be 'factory', was " ++ String.ofList factory))
  | parts => Outcome.fail (.invalidDenom denom
      ("denom must have 3 parts separated by /, had " ++ toString parts.length))

/-! ## Configuration -/

/-- The loop of `update_config` over the owners to add. -/
def addOwners (addrValid : String → Bool) : List Owner → List Owner → Result (List Owner)
  | owners, [] => pure owners
  | owners, owner :: rest => do
      let _ ← liftStd (addrValidate addrValid owner.owner)
      Outcome.guardErr ((owners.any fun stored => stored.owner == owner.owner) = true) .alreadyOwner
      addOwners addrValid (owners ++ [owner]) rest

/-- An address of the configuration, or the one it replaces it with. -/
def setAddr (addrValid : String → Bool) (update : Option String) (addr : Option Addr) :
    Result (Option Addr) :=
  match update with
  | some text => do pure (some (← liftStd (addrValidate addrValid text)))
  | none => pure addr

def updateConfig (addrValid : String → Bool) (info : MessageInfo) (owners : Option (List Owner))
    (addOwner : Option Bool) (liquidityMultiplier : Option Decimal)
    (debtAuction positionsContract liquidityContract oracleContract : Option String) (s : State) :
    Result (State × TokenResponse) := do
  let config := s.config
  assertConfigAuthority config info
  let newOwners ← (match addOwner, owners with
    | some true, some owners => addOwners addrValid config.owners owners
    | some false, some owners => pure (config.owners.filter fun stored =>
      owners.all fun owner => stored.owner ≠ owner.owner)
    | _, _ => pure config.owners)
  let debtAuction ← setAddr addrValid debtAuction config.debtAuction
  let positionsContract ← setAddr addrValid positionsContract config.positionsContract
  let liquidityContract ← setAddr addrValid liquidityContract config.liquidityContract
  let oracleContract ← setAddr addrValid oracleContract config.oracleContract
  pure ({ s with config := {
    owners := newOwners
    liquidityMultiplier := liquidityMultiplier.orElse fun _ => config.liquidityMultiplier
    debtAuction := debtAuction
    positionsContract := positionsContract
    liquidityContract := liquidityContract
    oracleContract := oracleContract } }, [])

def editOwner (addrValid : String → Bool) (info : MessageInfo) (owner : String)
    (stabilityPoolRatio : Option Decimal) (nonTokenContractAuth : Option Bool) (s : State) :
    Result (State × TokenResponse) := do
  assertConfigAuthority s.config info
  let validOwnerAddr ← liftStd (addrValidate addrValid owner)
  match s.config.owners.findIdx? fun stored => stored.owner == validOwnerAddr with
  | some index =>
    let edit (owner : Owner) : Owner := { owner with
      stabilityPoolRatio := stabilityPoolRatio.orElse fun _ => owner.stabilityPoolRatio
      nonTokenContractAuth := nonTokenContractAuth.getD owner.nonTokenContractAuth }
    pure ({ s with config := { s.config with owners := s.config.owners.modify index edit } }, [])
  | none => Outcome.fail (.customError "Non-existent owner address")

/-! ## Denoms -/

/-- `CREATE_DENOM_REPLY_ID`. -/
def createDenomReplyId : Nat := 1

def createDenom (env : Env) (info : MessageInfo) (subdenom : String) (maxSupply : Option Nat)
    (s : State) : Result (State × TokenResponse) := do
  assertAuthority s.config info
  Outcome.guardErr (subdenom = "") (.invalidSubdenom subdenom)
  pure ({ s with pending := some ⟨subdenom, maxSupply⟩ },
    [(.createDenom env.contractAddress subdenom, some createDenomReplyId)])

/-- `handle_create_denom_reply`, on the decoded answer of the chain. -/
def handleCreateDenomReply (result : Except String (Option (Except StdError String))) (s : State) :
    Outcome StdError State :=
  match result with
  | .ok data => do
      let pending ← Outcome.ofOption s.pending (.notFound "osmosis_proxy::state::PendingTokenInfo")
      match data with
      | some (.ok newTokenDenom) => pure { s with
          tokens := s.tokens.insert newTokenDenom ⟨0, pending.maxSupply, 0⟩ }
      | some (.error error) => Outcome.fail (.genericErr error.toText)
      | none => Outcome.fail (.genericErr "No data in reply")
  | .error error => Outcome.fail (.genericErr error)

def changeAdmin (addrValid : String → Bool) (env : Env) (info : MessageInfo)
    (denom newAdminAddress : String) (s : State) : Result (State × TokenResponse) := do
  assertAuthority s.config info
  let _ ← liftStd (addrValidate addrValid newAdminAddress)
  validateDenom denom
  pure (s, [(.changeAdmin env.contractAddress denom newAdminAddress, none)])

/-- The token of a denom, which must have been created here. -/
def loadToken (denom : String) (s : State) : Result TokenInfo :=
  Outcome.ofOption (s.tokens.lookup denom) (.customError "Denom was not created in this contract")

def editTokenMax (info : MessageInfo) (denom : String) (maxSupply : Nat) (s : State) :
    Result (State × TokenResponse) := do
  assertAuthority s.config info
  let token ← loadToken denom s
  pure ({ s with tokens := s.tokens.insert denom { token with maxSupply := some maxSupply } }, [])

/-! ## Supply -/

/-- The flag of `mint_tokens`. The debt auction can mint over the maximum supply. -/
def mintAllowed (config : Config) (info : MessageInfo) (token : TokenInfo) : Bool :=
  let fromDebtAuction : Bool := config.debtAuction == some info.sender
  match token.maxSupply with
  | some maxSupply => decide (token.currentSupply ≤ maxSupply) || fromDebtAuction
  | none => true

/-- `mint_tokens`. The call succeeds whether or not the mint was allowed. -/
def mintTokens (addrValid : String → Bool) (env : Env) (info : MessageInfo) (denom : String)
    (amount : Nat) (mintToAddress : String) (s : State) : Result (State × TokenResponse) := do
  assertAuthority s.config info
  let _ ← liftStd (addrValidate addrValid mintToAddress)
  Outcome.guardErr (amount = 0) .zeroAmount
  validateDenom denom
  let token ← loadToken denom s
  let allowed := mintAllowed s.config info token
  let token ← (if allowed then do
      let currentSupply ← Uint128.add token.currentSupply amount
      pure { token with currentSupply := currentSupply }
    else pure token)
  pure ({ s with tokens := s.tokens.insert denom token },
    if allowed then [(.mint env.contractAddress denom amount mintToAddress, none)] else [])

def burnTokens (env : Env) (info : MessageInfo) (denom : String) (amount : Nat)
    (burnFromAddress : String) (s : State) : Result (State × TokenResponse) := do
  assertAuthority s.config info
  Outcome.guardErr (amount = 0) .zeroAmount
  validateDenom denom
  let token ← loadToken denom s
  let currentSupply ← subUint token.currentSupply amount
  let burnedSupply ← Uint128.add token.burnedSupply amount
  let token : TokenInfo :=
    { token with currentSupply := currentSupply, burnedSupply := burnedSupply }
  pure ({ s with tokens := s.tokens.insert denom token },
    [(.burn env.contractAddress denom amount burnFromAddress, none)])

def execute (addrValid : String → Bool) (env : Env) (info : MessageInfo) (msg : ExecuteMsg)
    (s : State) : Result (State × TokenResponse) :=
  match msg with
  | .createDenom subdenom maxSupply => createDenom env info subdenom maxSupply s
  | .changeAdmin denom newAdminAddress => changeAdmin addrValid env info denom newAdminAddress s
  | .mintTokens denom amount mintToAddress =>
    mintTokens addrValid env info denom amount mintToAddress s
  | .burnTokens denom amount burnFromAddress => burnTokens env info denom amount burnFromAddress s
  | .editTokenMaxSupply denom maxSupply => editTokenMax info denom maxSupply s
  | .updateConfig owners addOwner liquidityMultiplier debtAuction positionsContract
      liquidityContract oracleContract =>
      updateConfig addrValid info owners addOwner liquidityMultiplier debtAuction positionsContract
        liquidityContract oracleContract s
  | .editOwner owner stabilityPoolRatio nonTokenContractAuth =>
    editOwner addrValid info owner stabilityPoolRatio nonTokenContractAuth s

/-- One call from outside: the texts that the chain takes for addresses, its block, its
    sender and its message. -/
structure Call where
  addrValid : String → Bool
  env : Env
  info : MessageInfo
  msg : ExecuteMsg

end Membrane.Proxy
