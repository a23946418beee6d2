import Membrane.Lib.Accounts
import Membrane.Lib.Run
import Membrane.MarsVault.Contract

/-!
# The vault on the chain

The vault with the balances of its token and the deposit tokens it has lent out. A call
moves its funds, runs the handler and carries its messages out; the money market also
grows by itself.
-/

namespace Membrane.MarsVault

/-- The vault, the holders of its token, and the deposit tokens that each money market
    holds for it. -/
structure Ledger where
  contract : Addr
  state : State
  balances : Accounts Addr
  collateral : Accounts Addr

/-- A call from outside: the texts that the chain takes for addresses, the block, the rates
    of the money markets, the sender and its message. -/
structure Call where
  addrValid : String → Bool
  blockTime : Nat
  liquidityRate : Addr → String → Except StdError Decimal
  info : MessageInfo
  msg : ExecuteMsg

namespace Ledger

def new (contract : Addr) (state : State) (collateral : Accounts Addr) : Ledger :=
  ⟨contract, state, ∅, collateral⟩

/-- The deposit tokens that the vault has lent out. -/
def deposited (l : Ledger) : Nat := l.collateral.balance l.state.config.marsRedbankAddr

def env (l : Ledger) (call : Call) : Env := ⟨call.blockTime, l.contract⟩

/-- What the money markets answer. An amount past `Uint128::MAX` is no answer. -/
def deps (l : Ledger) (call : Call) : Deps where
  addrValid := call.addrValid
  userCollateral redbank _ _ :=
    if l.collateral.balance redbank < Uint128.limit then .ok (l.collateral.balance redbank)
    else .error (.genericErr "Error parsing the amount")
  liquidityRate := call.liquidityRate

/-- The vault tokens sent with a call move to the vault. -/
def receive (l : Ledger) (info : MessageInfo) : Option Ledger :=
  match info.funds.find? fun coin => coin.denom == l.state.config.vaultToken with
  | none => some l
  | some coin => (l.balances.transfer info.sender l.contract coin.amount).map fun balances =>
    { l with balances := balances }

def perform (l : Ledger) (call : Call) (msg : Msg) : Option Ledger :=
  match msg with
  | .mint _ _ amount mintTo => some { l with balances := l.balances.credit mintTo amount }
  | .burn _ _ amount burnFrom => (l.balances.debit burnFrom amount).map fun balances =>
    { l with balances := balances }
  | .deposit redbank coin => some { l with collateral := l.collateral.credit redbank coin.amount }
  | .withdraw redbank _ amount _ => (l.collateral.debit redbank amount).map fun collateral =>
    { l with collateral := collateral }
  | .rateAssurance contract =>
    match rateAssurance (l.deps call) (l.env call) (MessageInfo.noFunds contract) l.state with
    | .ok (state, _) => some { l with state := state }
    | .error _ => none

/-- The messages of a call are carried out in order, or none is. -/
def performAll (call : Call) : List Msg → Ledger → Option Ledger
  | [], l => some l
  | msg :: rest, l => (l.perform call msg).bind (performAll call rest)

def transact (l : Ledger) (call : Call) : Option Ledger := do
  let received ← l.receive call.info
  match execute (l.deps call) (l.env call) call.info call.msg l.state with
  | .ok (state, msgs) => performAll call msgs { received with state := state }
  | .error _ => none

end Ledger

/-- What happens: a call, interest or a donation to a money market, a transfer of vault
    tokens. -/
inductive Event where
  | call (call : Call)
  | earn (redbank : Addr) (amount : Nat)
  | transfer (sender receiver : Addr) (amount : Nat)

def Ledger.exec (l : Ledger) : Event → Option Ledger
  | .call call => l.transact call
  | .earn redbank amount => some { l with collateral := l.collateral.credit redbank amount }
  | .transfer sender receiver amount =>
    (l.balances.transfer sender receiver amount).map fun balances => { l with balances := balances }

def eventStep (l : Ledger) (event : Event) (l' : Ledger) : Prop := l.exec event = some l'

/-- The deposits only grow between calls: a change of the money market is to one that holds
    no less for the vault. -/
def KeepsDeposits (l : Ledger) (event : Event) : Prop :=
  match event with
  | .call call =>
    match call.msg with
    | .updateConfig _ (some redbank) => l.deposited ≤ l.collateral.balance redbank
    | _ => True
  | _ => True

instance (l : Ledger) (event : Event) : Decidable (KeepsDeposits l event) := by
  unfold KeepsDeposits
  split
  · split
    · infer_instance
    · infer_instance
  · infer_instance

end Membrane.MarsVault
