import Membrane.Lib.KeyMap
import Membrane.Types
import Mathlib.Data.List.SplitOn

/-!
# State of the proxy contract

The storage of `contracts/osmosis-proxy`, its errors, and the messages it sends to the
chain's token factory (`state.rs`, `error.rs`, `packages/membrane/src/osmosis_proxy.rs`).
-/

namespace Membrane.Proxy

/-- `TokenFactoryError`, the cases the modelled handlers raise. -/
inductive TokenFactoryError where
  | std (error : StdError)
  | unauthorized
  | invalidSubdenom (subdenom : String)
  | invalidDenom (denom message : String)
  | zeroAmount
  | alreadyOwner
  | customError (val : String)
  deriving DecidableEq, Repr

/-- A call of the proxy contract. -/
abbrev Result (α : Type) := Outcome TokenFactoryError α

/-- `?` on a runtime error inside a handler. -/
def liftStd {α : Type} (x : Outcome StdError α) : Result α := Outcome.mapErr .std x

@[simp]
theorem liftStd_eq_ok {α : Type} {x : Outcome StdError α} {a : α} :
    liftStd x = .ok a ↔ x = .ok a := Outcome.mapErr_eq_ok

structure Owner where
  owner : Addr
  totalMinted : Nat
  stabilityPoolRatio : Option Decimal
  nonTokenContractAuth : Bool
  isPositionContract : Bool
  deriving DecidableEq, Repr

structure Config where
  owners : List Owner
  liquidityMultiplier : Option Decimal
  debtAuction : Option Addr
  positionsContract : Option Addr
  liquidityContract : Option Addr
  oracleContract : Option Addr
  deriving DecidableEq, Repr

structure TokenInfo where
  currentSupply : Nat
  maxSupply : Option Nat
  burnedSupply : Nat
  deriving DecidableEq, Repr

structure PendingTokenInfo where
  subdenom : String
  maxSupply : Option Nat
  deriving DecidableEq, Repr

/-- The storage of the contract that its token handlers use. -/
structure State where
  config : Config
  tokens : KeyMap String TokenInfo
  pending : Option PendingTokenInfo

/-- The messages for the token factory. -/
inductive TokenMsg where
  | createDenom (sender : Addr) (subdenom : String)
  | changeAdmin (sender : Addr) (denom : String) (newAdmin : String)
  | mint (sender : Addr) (denom : String) (amount : Nat) (mintToAddress : String)
  | burn (sender : Addr) (denom : String) (amount : Nat) (burnFromAddress : String)
  deriving DecidableEq, Repr

/-- What a call returns: messages, each with the id of the reply on its success, if there
    is one. -/
abbrev TokenResponse := List (TokenMsg × Option Nat)

end Membrane.Proxy
