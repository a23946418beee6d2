import Membrane.Lib.KeyMap
import Membrane.Types

/-!
# The discount vault

The vault of `contracts/discount_vault`: users deposit accepted LP tokens, for which they are
discounted, and withdraw them. A user's deposits are a list, of which a withdrawal takes from
each deposit of the asset in turn.
-/

namespace Membrane.DiscountVault

/-- `ContractError`, the cases the handlers raise. -/
inductive ContractError where
  | std (error : StdError)
  | unauthorized
  | invalidAsset
  | invalidWithdrawal (val : Asset)
  | depositsDisabled
  deriving DecidableEq, Repr

/-- A call of the vault. -/
abbrev Result (α : Type) := Outcome ContractError α

/-- `?` on a runtime error inside a handler. -/
def liftStd {α : Type} (x : Outcome StdError α) : Result α := Outcome.mapErr .std x

@[simp]
theorem liftStd_eq_ok {α : Type} {x : Outcome StdError α} {a : α} :
    liftStd x = .ok a ↔ x = .ok a := Outcome.mapErr_eq_ok

structure LPPoolInfo where
  shareToken : AssetInfo
  poolId : Nat
  deriving DecidableEq, Repr

structure Config where
  owner : Addr
  positionsContract : Addr
  osmosisProxy : Addr
  acceptedLPs : List LPPoolInfo
  depositsEnabled : Bool
  deriving DecidableEq, Repr

structure VaultedLP where
  gamm : AssetInfo
  amount : Nat
  depositTime : Nat
  deriving DecidableEq, Repr

structure VaultUser where
  user : Addr
  vaultedLps : List VaultedLP
  deriving DecidableEq, Repr

structure State where
  config : Config
  users : KeyMap Addr VaultUser
  ownershipTransfer : Option Addr

/-- The execute message the contract sends to the positions contract. -/
inductive OutMsg where
  | accrue (positionOwner : Option String) (positionIds : List Nat)
  deriving DecidableEq, Repr

/-- The response of a call: its messages, and the assets that its `withdrawals` attribute
    prints. -/
structure Response where
  messages : List (CosmosMsg OutMsg)
  withdrawals : List Asset
  deriving DecidableEq, Repr

def Response.empty : Response := ⟨[], []⟩

/-- What other contracts answer, each asked by its address, and the chain. -/
structure Deps where
  /-- Whether `addr_validate` accepts a text. -/
  addrValid : String → Bool
  /-- The share denomination of a pool and the denominations in it, of the proxy. -/
  poolState : Addr → Nat → Except StdError (String × List String)
  /-- The debt token in `GetBasket`. -/
  debtToken : Addr → Except StdError AssetInfo
  /-- The positions of a user in `GetBasketPositions`, a list of ids for each basket. -/
  basketPositions : Addr → String → Except StdError (List (List Nat))

def Deps.addrValidate (deps : Deps) (text : String) : Outcome StdError Addr :=
  if deps.addrValid text then .ok text else Outcome.fail (.genericErr "Invalid input")

inductive ExecuteMsg where
  | deposit
  | withdraw (withdrawalAssets : List Asset)
  | changeOwner (owner : String)
  | editAcceptedLPs (poolIds : List Nat) (remove : Bool)
  | toggleDeposits (enable : Bool)
  deriving DecidableEq, Repr

def createAndValidateLPObject (deps : Deps) (poolId : Nat) (positionsContract osmosisProxy : Addr) :
    Outcome StdError LPPoolInfo := do
  let (shares, assets) ← Outcome.ofExcept (deps.poolState osmosisProxy poolId)
  let debtToken ← Outcome.ofExcept (deps.debtToken positionsContract)
  Outcome.guardErr (¬ assets.any (· == debtToken.toText) = true)
    (.genericErr ("LP doesn't contain the debt token: " ++ debtToken.toText))
  pure ⟨.nativeToken shares, poolId⟩

structure InstantiateMsg where
  owner : Option String
  positionsContract : String
  osmosisProxy : String
  acceptedLPs : List Nat
  deriving DecidableEq, Repr

/-- The pools that were looked up. All of them are, and the error of the last that was not found
    is kept. -/
def collectLPs : List (Outcome StdError LPPoolInfo) → Outcome StdError (List LPPoolInfo)
  | [] => pure []
  | pool :: rest => do
      let pools ← collectLPs rest
      pure ((← pool) :: pools)

def instantiate (deps : Deps) (info : MessageInfo) (msg : InstantiateMsg) : Result State := do
  let owner ← liftStd (msg.owner.elim (pure info.sender) deps.addrValidate)
  let positionsContract ← liftStd (deps.addrValidate msg.positionsContract)
  let osmosisProxy ← liftStd (deps.addrValidate msg.osmosisProxy)
  let acceptedLPs ← liftStd (collectLPs (msg.acceptedLPs.map fun id =>
    createAndValidateLPObject deps id positionsContract osmosisProxy))
  pure {
    config := {
      owner := owner
      positionsContract := positionsContract
      osmosisProxy := osmosisProxy
      acceptedLPs := acceptedLPs
      depositsEnabled := true }
    users := ∅
    ownershipTransfer := none }

def validateAssets (funds : List Coin) (acceptedLPs : List LPPoolInfo) :
    Outcome StdError (List Asset) := do
  let accepted := acceptedLPs.map LPPoolInfo.shareToken
  let validAssets := (funds.filter fun coin =>
    accepted.any fun lp => lp.equal (.nativeToken coin.denom)).map fun coin =>
      (⟨.nativeToken coin.denom, coin.amount⟩ : Asset)
  Outcome.guardErr (funds.length ≠ validAssets.length) (.genericErr "Invalid asset(s)")
  pure validAssets

def vaulted (env : Env) (asset : Asset) : VaultedLP := ⟨asset.info, asset.amount, env.blockTime⟩

def deposit (env : Env) (info : MessageInfo) (s : State) : Result State := do
  Outcome.guardErr (¬ s.config.depositsEnabled = true) .depositsDisabled
  let validAssets ← liftStd (validateAssets info.funds s.config.acceptedLPs)
  Outcome.guardErr (validAssets.length < info.funds.length) .invalidAsset
  let user :=
    match s.users.lookup info.sender with
    | some user => { user with vaultedLps := user.vaultedLps ++ validAssets.map (vaulted env) }
    | none => ⟨info.sender, validAssets.map (vaulted env)⟩
  pure { s with users := s.users.insert info.sender user }

def owned (lps : List VaultedLP) (asset : Asset) : Bool :=
  lps.any fun deposit => deposit.gamm.equal asset.info

/-- A round of the loop that removes the assets that are not owned: the index is that of the
    asset in the list as it was sent. -/
def removeRound (lps : List VaultedLP) (withdrawalAssets : List Asset) (entry : Asset × Nat) :
    Result (List Asset) :=
  if owned lps entry.1 then pure withdrawalAssets
  else Outcome.removeIndex withdrawalAssets entry.2

/-- The loop that removes the assets that are not owned. -/
def removeUnowned (lps : List VaultedLP) (withdrawalAssets : List Asset) : Result (List Asset) :=
  withdrawalAssets.zipIdx.foldlM (removeRound lps) withdrawalAssets

/-- The deposits after an amount of an asset is taken from them in turn, and what could not
    be taken. -/
def combDeposits (info : AssetInfo) : List VaultedLP → Nat → List VaultedLP × Nat
  | [], amount => ([], amount)
  | deposit :: rest, amount =>
    if info.equal deposit.gamm = true ∧ amount ≠ 0 then
      if deposit.amount ≤ amount then
        let (rest, left) := combDeposits info rest (amount - deposit.amount)
        ({ deposit with amount := 0 } :: rest, left)
      else
        let (rest, left) := combDeposits info rest 0
        ({ deposit with amount := deposit.amount - amount } :: rest, left)
    else
      let (rest, left) := combDeposits info rest amount
      (deposit :: rest, left)

/-- A round of the loop that updates the deposits. -/
def takeRound (lps : List VaultedLP) (asset : Asset) : Result (List VaultedLP) := do
  let (lps, left) := combDeposits asset.info lps asset.amount
  Outcome.guardErr (left ≠ 0) (.invalidWithdrawal asset)
  pure lps

def multiNativeWithdrawalMsg (assets : List Asset) (recipient : Addr) : CosmosMsg OutMsg :=
  .bankSend recipient (assets.map fun asset => ⟨asset.info.toText, asset.amount⟩)

def accrueUserPositions (deps : Deps) (positionsContract : Addr) (user : String) :
    Outcome StdError (CosmosMsg OutMsg) := do
  let userPositions ← Outcome.ofExcept (deps.basketPositions positionsContract user)
  let userIds ← Outcome.index userPositions 0
  pure (.execute positionsContract (.accrue (some user) userIds) [])

def withdraw (deps : Deps) (info : MessageInfo) (withdrawalAssets : List Asset) (s : State) :
    Result (State × Response) := do
  let user ← Outcome.ofOption (s.users.lookup info.sender) (.std (.notFound "VaultUser"))
  let withdrawalAssets ← removeUnowned user.vaultedLps withdrawalAssets
  let lps ← withdrawalAssets.foldlM takeRound user.vaultedLps
  let s := { s with users := s.users.insert info.sender { user with vaultedLps := lps } }
  let accrualMsg ← liftStd (accrueUserPositions deps s.config.positionsContract info.sender)
  pure (s, ⟨[accrualMsg, multiNativeWithdrawalMsg withdrawalAssets info.sender], withdrawalAssets⟩)

def changeOwner (deps : Deps) (info : MessageInfo) (owner : String) (s : State) : Result State := do
  let s ←
    if info.sender ≠ s.config.owner then do
      let transfer ← Outcome.ofOption s.ownershipTransfer (.std (.notFound "Addr"))
      Outcome.guardErr (info.sender ≠ transfer) .unauthorized
      pure { s with config := { s.config with owner := info.sender } }
    else pure s
  let validAddr ← liftStd (deps.addrValidate owner)
  pure { s with ownershipTransfer := some validAddr }

/-- The accepted pools without the first of an id. -/
def dropLP (acceptedLPs : List LPPoolInfo) (id : Nat) : List LPPoolInfo :=
  match acceptedLPs.findIdx? (fun lp => lp.poolId == id) with
  | some index => acceptedLPs.eraseIdx index
  | none => acceptedLPs

def editLPs (deps : Deps) (info : MessageInfo) (poolIds : List Nat) (remove : Bool) (s : State) :
    Result State := do
  Outcome.guardErr (info.sender ≠ s.config.owner) .unauthorized
  let acceptedLPs ←
    if remove = true then pure (poolIds.foldl dropLP s.config.acceptedLPs)
    else do
      let added ← poolIds.mapM fun id => liftStd
        (createAndValidateLPObject deps id s.config.positionsContract s.config.osmosisProxy)
      pure (s.config.acceptedLPs ++ added)
  pure { s with config := { s.config with acceptedLPs } }

def toggleDeposits (info : MessageInfo) (toggle : Bool) (s : State) : Result State := do
  Outcome.guardErr (info.sender ≠ s.config.owner) .unauthorized
  pure { s with config := { s.config with depositsEnabled := toggle } }

def execute (deps : Deps) (env : Env) (info : MessageInfo) (msg : ExecuteMsg) (s : State) :
    Result (State × Response) :=
  match msg with
  | .deposit => do pure (← deposit env info s, .empty)
  | .withdraw withdrawalAssets => withdraw deps info withdrawalAssets s
  | .changeOwner owner => do pure (← changeOwner deps info owner s, .empty)
  | .editAcceptedLPs poolIds remove => do pure (← editLPs deps info poolIds remove s, .empty)
  | .toggleDeposits enable => do pure (← toggleDeposits info enable s, .empty)

end Membrane.DiscountVault
