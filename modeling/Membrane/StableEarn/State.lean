import Membrane.MarsVault.State
import Membrane.Types

/-!
# State of the stable earn vault

The storage of `contracts/stable-earn-vault`, its errors, the messages it sends and the
answers it gets (`state.rs`, `error.rs`, `packages/membrane/src/stable_earn_vault.rs`).
Its deposits are vault tokens of the Mars vault, of which a buffer is kept and the rest is
the collateral of a position.
-/

namespace Membrane.StableEarn

/-- `TokenFactoryError`, the cases the handlers raise. -/
inductive TokenFactoryError where
  | std (error : StdError)
  | customError (val : String)
  deriving DecidableEq, Repr

/-- A call of the vault. -/
abbrev Result (α : Type) := Outcome TokenFactoryError α

/-- `?` on a runtime error inside a handler. -/
def liftStd {α : Type} (x : Outcome StdError α) : Result α := Outcome.mapErr .std x

@[simp]
theorem liftStd_eq_ok {α : Type} {x : Outcome StdError α} {a : α} :
    liftStd x = .ok a ↔ x = .ok a := Outcome.mapErr_eq_ok

structure VaultInfo where
  vaultAddr : Addr
  depositToken : String
  vaultToken : String
  deriving DecidableEq, Repr

/-- `Config`, the fields the handlers read. -/
structure Config where
  owner : Addr
  cdpContractAddr : Addr
  osmosisProxyContractAddr : Addr
  oracleContractAddr : Addr
  cdtDenom : String
  vaultToken : String
  depositToken : VaultInfo
  withdrawalBuffer : Decimal
  totalNonleveragedVaultTokens : Nat
  cdpPositionId : Nat
  swapSlippage : Decimal
  deriving DecidableEq, Repr

structure UnloopProps where
  desiredCollateralWithdrawal : Nat
  loopCount : Nat
  runningCollateralAmount : Nat
  runningCreditAmount : Nat
  vtTokenPrice : PriceResponse
  cdtPegPrice : PriceResponse
  deriving DecidableEq, Repr

/-- The storage of the contract. `vaultToken` is the supply of vault tokens,
    `tokenRateAssurance` the rate saved for the callback. -/
structure State where
  config : Config
  vaultToken : Nat
  tokenRateAssurance : Nat
  unloopProps : UnloopProps
  deriving DecidableEq, Repr

/-- `PositionResponse`, the fields the vault reads. -/
structure PositionResponse where
  creditAmount : Nat
  collateralAssets : List Asset
  deriving DecidableEq, Repr

/-- The answers of the bank, the basket, the oracle and the Mars vault. -/
structure Deps where
  /-- `query_balance`. -/
  balance : Addr → (denom : String) → Except StdError Nat
  /-- The credit price of `GetBasket`. -/
  creditPrice : (cdp : Addr) → Except StdError PriceResponse
  /-- `Price` of the oracle, for a native token. -/
  price : (oracle : Addr) → (denom : String) → (twapTimeframe oracleTimeLimit : Nat) →
    Except StdError (List PriceResponse)
  /-- The positions of `GetBasketPositions`, by user. -/
  basketPositions : (cdp : Addr) → (owner : Addr) → (positionId : Nat) →
    Except StdError (List (List PositionResponse))
  /-- `VaultTokenUnderlying` of the Mars vault. -/
  vaultTokenUnderlying : (vault : Addr) → (amount : Nat) → Except StdError Nat
  /-- `DepositTokenConversion` of the Mars vault. -/
  depositTokenConversion : (vault : Addr) → (amount : Nat) → Except StdError Nat

/-- The messages of the vault: to the token factory, the bank, the Mars vault, the position
    and itself. -/
inductive Msg where
  | burn (sender : Addr) (denom : String) (amount : Nat) (burnFromAddress : Addr)
  | send (toAddress : Addr) (coin : Coin)
  | exitVault (vault : Addr) (funds : Coin)
  | deposit (cdp : Addr) (positionId : Nat) (funds : Coin)
  | repay (cdp : Addr) (positionId : Nat) (funds : Coin)
  | withdraw (cdp : Addr) (positionId : Nat) (assets : List Asset)
  | unloopCDP (contract : Addr) (desiredCollateralWithdrawal : Nat)
  | updateNonleveragedVaultTokens (contract : Addr)
  | rateAssurance (contract : Addr)
  deriving DecidableEq, Repr

/-- The answers to a call that reads the position at current prices. -/
structure LoopDeps extends Deps where
  /-- `Prices` of the oracle, for native tokens. -/
  prices : (oracle : Addr) → (denoms : List String) → (twapTimeframe oracleTimeLimit : Nat) →
    Except StdError (List PriceResponse)

/-- The messages of the handlers that loop the position, and those of the others. -/
inductive LoopMsg where
  | base (msg : Msg)
  | mint (sender : Addr) (denom : String) (amount : Nat) (mintToAddress : Addr)
  | enterVault (vault : Addr) (funds : Coin)
  | withdrawTo (cdp : Addr) (positionId : Nat) (assets : List Asset) (sendTo : Addr)
  | increaseDebt (cdp : Addr) (positionId : Nat) (amount : Nat)
  | executeSwaps (proxy : Addr) (tokenOut : String) (maxSlippage : Decimal) (funds : Coin)
  | postLoopMaintenance (contract : Addr)
  deriving DecidableEq, Repr

/-- The messages whose success is replied to: `ENTER_VAULT_REPLY_ID`, `LOOP_REPLY_ID`,
    `UNLOOP_REPLY_ID` and `EXIT_VAULT_REPLY_ID`. -/
inductive ReplyId where
  | enterVault
  | loop
  | unloop
  | exitVault
  deriving DecidableEq, Repr

/-- A message, and the reply that is handled after it succeeded. -/
structure LoopSubMsg where
  msg : LoopMsg
  replyOnSuccess : Option ReplyId
  deriving DecidableEq, Repr

def LoopSubMsg.new (msg : LoopMsg) : LoopSubMsg := ⟨msg, none⟩

/-- `UpdateConfig`, the fields that change what the handlers read. -/
structure UpdateConfig where
  owner : Option String
  cdpContractAddr : Option String
  marsVaultAddr : Option String
  osmosisProxyContractAddr : Option String
  oracleContractAddr : Option String
  withdrawalBuffer : Option Decimal
  swapSlippage : Option Decimal
  deriving DecidableEq, Repr

/-- `TokenFactoryError`, with the case of a caller that is refused. -/
inductive CallbackError where
  | factory (error : TokenFactoryError)
  | unauthorized
  deriving DecidableEq, Repr

/-- A call that may be refused to its caller. -/
abbrev CallbackResult (α : Type) := Outcome CallbackError α

def liftFactory {α : Type} (x : Result α) : CallbackResult α := Outcome.mapErr .factory x

@[simp]
theorem liftFactory_eq_ok {α : Type} {x : Result α} {a : α} :
    liftFactory x = .ok a ↔ x = .ok a := Outcome.mapErr_eq_ok

def decimalMax (a b : Decimal) : Decimal := if a ≤ b then b else a

end Membrane.StableEarn
