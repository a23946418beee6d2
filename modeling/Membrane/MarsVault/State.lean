import Membrane.Std.Chain
import Membrane.Std.Decimal

/-!
# State of the Mars vault

The storage of `contracts/mars-vault-token`, its errors, the messages it sends and the
answers it gets (`state.rs`, `error.rs`, `packages/membrane/src/mars_vault_token.rs`),
and the conversion between vault tokens and deposit tokens, which it shares with the
other vaults (`packages/membrane/src/stability_pool_vault.rs`).
-/

namespace Membrane.MarsVault

/-- `TokenFactoryError`, the cases the handlers raise. -/
inductive TokenFactoryError where
  | std (error : StdError)
  | unauthorized
  | customError (val : String)
  deriving DecidableEq, Repr

/-- A call of the vault. -/
abbrev Result (α : Type) := Outcome TokenFactoryError α

/-- `?` on a runtime error inside a handler. -/
def liftStd {α : Type} (x : Outcome StdError α) : Result α := Outcome.mapErr .std x

@[simp]
theorem liftStd_eq_ok {α : Type} {x : Outcome StdError α} {a : α} :
    liftStd x = .ok a ↔ x = .ok a := Outcome.mapErr_eq_ok

structure Config where
  owner : Addr
  marsRedbankAddr : Addr
  vaultToken : String
  depositToken : String
  totalDepositTokens : Nat
  deriving DecidableEq, Repr

structure APRInstance where
  aprPerSecond : Decimal
  timeSinceLastUpdate : Nat
  aprOfThisUpdate : Decimal
  deriving DecidableEq, Repr

structure APRTracker where
  aprs : List APRInstance
  lastUpdated : Nat
  lastTotalDeposit : Nat
  deriving DecidableEq, Repr

/-- The storage of the contract. `vaultToken` is the supply of vault tokens,
    `tokenRateAssurance` the rate saved for the callback. -/
structure State where
  config : Config
  vaultToken : Nat
  aprTracker : APRTracker
  tokenRateAssurance : Option Nat
  ownershipTransfer : Option Addr
  deriving DecidableEq, Repr

/-- The answers of the money market: the collateral of a user in a denom, and the
    liquidity rate of a denom's market. -/
structure Deps where
  addrValid : String → Bool
  userCollateral : Addr → Addr → String → Except StdError Nat
  liquidityRate : Addr → String → Except StdError Decimal

/-- The messages of the vault: to the token factory, to the money market and to itself. -/
inductive Msg where
  | mint (sender : Addr) (denom : String) (amount : Nat) (mintToAddress : Addr)
  | burn (sender : Addr) (denom : String) (amount : Nat) (burnFromAddress : Addr)
  | deposit (contract : Addr) (funds : Coin)
  | withdraw (contract : Addr) (denom : String) (amount : Nat) (recipient : Addr)
  | rateAssurance (contract : Addr)
  deriving DecidableEq, Repr

/-! ## Conversion -/

/-- `DEFAULT_VAULT_TOKENS_PER_STAKED_BASE_TOKEN`. -/
def defaultVaultTokensPerStakedBaseToken : Nat := 1000000

def calculateVaultTokens (baseTokens totalStakedAmount vaultTokenSupply : Nat) :
    Outcome StdError Nat :=
  if totalStakedAmount = 0 then
    if baseTokens * defaultVaultTokensPerStakedBaseToken < Uint128.limit then
      pure (baseTokens * defaultVaultTokensPerStakedBaseToken)
    else Outcome.fail (.overflow "Mul" (toString baseTokens)
      (toString defaultVaultTokensPerStakedBaseToken))
  else Uint128.multiplyRatio vaultTokenSupply baseTokens totalStakedAmount

def calculateBaseTokens (vaultTokens totalStakedAmount vaultTokenSupply : Nat) :
    Outcome StdError Nat :=
  if vaultTokenSupply = 0 then pure (vaultTokens / defaultVaultTokensPerStakedBaseToken)
  else Uint128.multiplyRatio totalStakedAmount vaultTokens vaultTokenSupply

end Membrane.MarsVault
