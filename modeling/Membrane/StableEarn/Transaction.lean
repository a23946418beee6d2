import Membrane.Lib.Accounts
import Membrane.Lib.Fueled
import Membrane.StableEarn.Contract

/-!
# The stable earn vault on the chain

The vault with the coins it holds and its position. A call is one transaction: its messages
are carried out one after the other, each with all the messages and replies that follow from it,
or none is. What the other contracts answer, pay and refuse is left open.
-/

namespace Membrane.StableEarn

open Outcome

/-- The vault, the coins it holds and its position. With it what has happened so far: the coins
    received with calls and those sent to each address, the vault tokens minted and burned, and
    the vault tokens of the Mars vault issued to the contract and redeemed from it. -/
structure Ledger where
  contract : Addr
  state : State
  balances : Accounts String
  collateral : Nat
  debt : Nat
  received : Accounts String
  sent : Accounts (Addr × String)
  minted : Nat
  burned : Nat
  issued : Nat
  redeemed : Nat

/-- Why a transaction is undone. -/
inductive Revert where
  | handler (error : CallbackError)
  | reply (error : StdError)
  /-- The bank or another contract refuses. -/
  | refused
  deriving DecidableEq, Repr

namespace Ledger

variable (l : Ledger)

/-- The vault tokens of the Mars vault that the contract holds. -/
def vaultTokens : Nat := l.balances.balance l.state.config.depositToken.vaultToken

def credit (coin : Coin) : Ledger :=
  { l with balances := l.balances.credit coin.denom coin.amount }

def receiveCoin (coin : Coin) : Ledger :=
  { l.credit coin with received := l.received.credit coin.denom coin.amount }

def debit (coin : Coin) : Outcome Revert Ledger := do
  let balances ← Outcome.ofOption (l.balances.debit coin.denom coin.amount) .refused
  pure { l with balances := balances }

end Ledger

/-- What the other contracts do: their answers, and the amounts they pay, or nothing where they
    refuse. Debts are those after the call, with what has accrued. -/
structure World where
  creditPrice : Ledger → Except StdError PriceResponse
  price : Ledger → (denom : String) → (twapTimeframe oracleTimeLimit : Nat) →
    Except StdError (List PriceResponse)
  prices : Ledger → (denoms : List String) → (twapTimeframe oracleTimeLimit : Nat) →
    Except StdError (List PriceResponse)
  vaultTokenUnderlying : Ledger → (amount : Nat) → Except StdError Nat
  depositTokenConversion : Ledger → (amount : Nat) → Except StdError Nat
  /-- The collateral of the position that is not the accepted vault token. -/
  planted : Ledger → List Asset
  /-- The vault tokens that the Mars vault mints for deposit tokens. -/
  marsEnter : Ledger → (amount : Nat) → Option Nat
  /-- The deposit tokens that the Mars vault pays for vault tokens. -/
  marsExit : Ledger → (amount : Nat) → Option Nat
  /-- What a swap pays. -/
  swap : Ledger → Coin → (tokenOut : String) → Option Nat
  /-- The debt after a deposit, a withdrawal or an increase of the debt. -/
  deposit : Ledger → (amount : Nat) → Option Nat
  withdraw : Ledger → List Asset → Option Nat
  increaseDebt : Ledger → (amount : Nat) → Option Nat
  /-- The debt after a repayment, and the excess that is returned. -/
  repay : Ledger → (amount : Nat) → Option (Nat × Nat)

namespace World

variable (w : World)

def deps (l : Ledger) : LoopDeps where
  balance _ denom := .ok (l.balances.balance denom)
  creditPrice _ := w.creditPrice l
  price _ := w.price l
  basketPositions _ _ _ := .ok [[⟨l.debt,
    ⟨.nativeToken l.state.config.depositToken.vaultToken, l.collateral⟩ :: w.planted l⟩]]
  vaultTokenUnderlying _ := w.vaultTokenUnderlying l
  depositTokenConversion _ := w.depositTokenConversion l
  prices _ := w.prices l

/-- The block, of which the handlers read their own address only. -/
def env (l : Ledger) : Env := ⟨0, l.contract⟩

end World

/-! ## Messages -/

/-- A message to carry out, or a reply to handle. -/
inductive Step where
  | msg (msg : LoopMsg)
  | reply (id : ReplyId)
  deriving DecidableEq, Repr

def LoopSubMsg.steps (sub : LoopSubMsg) : List Step :=
  .msg sub.msg :: (sub.replyOnSuccess.map Step.reply).toList

def ask {α : Type} (answer : Option α) : Outcome Revert α := Outcome.ofOption answer .refused

namespace World

variable (w : World)

def callback (msg : ExecuteMsg) (l : Ledger) : Outcome Revert (Ledger × List Step) := do
  let (state, msgs) ← Outcome.mapErr .handler
    (execute (w.deps l) (env l) (MessageInfo.noFunds l.contract) msg l.state)
  pure ({ l with state := state }, msgs.flatMap LoopSubMsg.steps)

def performBase (msg : Msg) (l : Ledger) : Outcome Revert (Ledger × List Step) :=
  match msg with
  | .burn _ denom amount _ => do
      let paid ← l.debit ⟨denom, amount⟩
      pure ({ paid with burned := paid.burned + amount }, [])
  | .send toAddress coin => do
      let paid ← l.debit coin
      pure ({ paid with sent := paid.sent.credit (toAddress, coin.denom) coin.amount }, [])
  | .exitVault _ funds => do
      let paid ← l.debit funds
      let received ← ask (w.marsExit l funds.amount)
      pure ({ paid with redeemed := paid.redeemed + funds.amount }.credit
        ⟨l.state.config.depositToken.depositToken, received⟩, [])
  | .deposit _ _ funds => do
      let paid ← l.debit funds
      let debt ← ask (w.deposit l funds.amount)
      pure ({ paid with collateral := paid.collateral + funds.amount, debt := debt }, [])
  | .repay _ _ funds => do
      let paid ← l.debit funds
      let (debt, excess) ← ask (w.repay l funds.amount)
      pure ({ paid with debt := debt }.credit ⟨funds.denom, excess⟩, [])
  | .withdraw _ _ assets =>
    match assets with
    | [⟨.nativeToken denom, amount⟩] => do
        let debt ← ask (w.withdraw l assets)
        Outcome.guardErr (denom ≠ l.state.config.depositToken.vaultToken ∨ l.collateral < amount)
          .refused
        pure ({ l with collateral := l.collateral - amount, debt := debt }.credit ⟨denom, amount⟩,
          [])
    | _ => Outcome.fail .refused
  | .unloopCDP _ desiredCollateralWithdrawal =>
    w.callback (.unloopCDP desiredCollateralWithdrawal) l
  | .updateNonleveragedVaultTokens _ => w.callback .updateNonleveragedVaultTokens l
  | .rateAssurance _ => w.callback .rateAssurance l

def perform (step : Step) (l : Ledger) : Outcome Revert (Ledger × List Step) :=
  match step with
  | .msg (.base msg) => w.performBase msg l
  | .msg (.mint _ _ amount _) => pure ({ l with minted := l.minted + amount }, [])
  | .msg (.enterVault _ funds) => do
      let paid ← l.debit funds
      let received ← ask (w.marsEnter l funds.amount)
      pure ({ paid with issued := paid.issued + received }.credit
        ⟨l.state.config.depositToken.vaultToken, received⟩, [])
  | .msg (.withdrawTo _ _ assets _) => do
      let debt ← ask (w.withdraw l assets)
      pure ({ l with debt := debt }, [])
  | .msg (.increaseDebt _ _ amount) => do
      let debt ← ask (w.increaseDebt l amount)
      pure ({ l with debt := debt }.credit ⟨l.state.config.cdtDenom, amount⟩, [])
  | .msg (.executeSwaps _ tokenOut _ funds) => do
      let paid ← l.debit funds
      let received ← ask (w.swap l funds tokenOut)
      pure (paid.credit ⟨tokenOut, received⟩, [])
  | .msg (.postLoopMaintenance _) => w.callback .postLoopMaintenance l
  | .reply id => do
      let (state, msgs) ← Outcome.mapErr .reply (reply (w.deps l).toDeps (env l) id l.state)
      pure ({ l with state := state }, msgs.flatMap LoopSubMsg.steps)

def callFuel : Nat := 64

def receive (info : MessageInfo) (l : Ledger) : Ledger := info.funds.foldl Ledger.receiveCoin l

def transact (info : MessageInfo) (msg : ExecuteMsg) (l : Ledger) : Fueled Revert Ledger := do
  let received := receive info l
  let (state, msgs) ← Fueled.lift (Outcome.mapErr .handler
    (execute (w.deps received) (env received) info msg received.state))
  Fueled.dispatch w.perform callFuel (msgs.flatMap LoopSubMsg.steps) { received with state :=
    state }

end World

end Membrane.StableEarn
