import Membrane.Cdp.Contract
import Membrane.Lib.Run

/-!
# A liquidation as one transaction

`liquidate` and the calls it sets off, which the chain carries out in the order of
the response, each with all that follows from it before the next. What the
stability pool and the liquidation queue make of a call is an input: the coins with
which the pool calls back, and the event of the queue. The pool pays back no more
than it is asked for, in the denomination it is asked for, and never nothing.
-/

namespace Membrane.Cdp

/-- A payment of the stability pool, and what the chain answers while it is taken. -/
structure Payment where
  deps : Deps
  coin : Coin
  positive : 0 < coin.amount

/-- The queue's event for one call, and what the chain answers during the reply. -/
structure QueueAnswer where
  deps : Deps
  event : LiqQueueEvent

/-- What the other contracts answer in one transaction. -/
structure Answers where
  /-- The payment for the owner, when the pool is asked for it. -/
  userRepay : Option Payment
  queue : List QueueAnswer
  /-- The pool's own payment, when it is asked for it. -/
  liqRepay : Option Payment
  /-- Whether the debt auction takes on bad debt. -/
  auctionAccepts : Bool

def Answers.spent (answers : Answers) : Bool :=
  answers.userRepay.isNone && answers.queue.isEmpty && answers.liqRepay.isNone

/-! ## Coins of a response -/

def bankCoinsOf : CosmosMsg OutMsg → List Coin
  | .bankSend _ coins => coins
  | .execute .. => []

/-- The coins given to the stability pool to distribute. -/
def distributedCoinsOf : CosmosMsg OutMsg → List Coin
  | .execute _ (.spDistribute ..) coins => coins
  | _ => []

/-- The repayment for which coins are given to the stability pool to distribute. -/
def distributedFor : CosmosMsg OutMsg → Nat
  | .execute _ (.spDistribute _ _ repaid) _ => repaid
  | _ => 0

/-- The coins that a measure finds in the messages of a response. -/
def coinsIn (coins : CosmosMsg OutMsg → List Coin) (response : Response OutMsg) : List Coin :=
  response.messages.flatMap fun sub => coins sub.msg

@[simp]
theorem coinsIn_addMessages (coins : CosmosMsg OutMsg → List Coin)
    (msgs : List (CosmosMsg OutMsg)) :
    coinsIn coins (Response.addMessages {} msgs) = msgs.flatMap coins := by
  simp [coinsIn, Response.addMessages, SubMsg.new, List.flatMap_map]

/-! ## Carrying out messages -/

/-- A transaction under way: the state, the answers still to come, the collateral
    that has left the contract, and what the pool's own payment repaid. -/
structure Progress where
  state : State
  answers : Answers
  sent : List Coin
  liqRepaid : Nat

/-- The pool repays for the owner, who also gets what is too much. -/
def carryRepay (env : Env) (pool : Addr) (userInfo : UserInfo) (repayment : Asset) (p : Progress) :
    Option Progress :=
  match p.answers.userRepay with
  | none => none
  | some payment =>
    if payment.coin.denom = repayment.info.toText ∧ payment.coin.amount ≤ repayment.amount then
      match execute payment.deps env (MessageInfo.oneCoin pool payment.coin payment.positive)
          (.repay userInfo.positionId (some userInfo.positionOwner)
            (some userInfo.positionOwner)) p.state with
      | .ok (s', _) =>
        some { p with state := s', answers := { p.answers with userRepay := none } }
      | .error _ => none
    else none

/-- The queue liquidates, and the contract takes its reply. -/
def carryAsk (env : Env) (id : Nat) (p : Progress) : Option Progress :=
  match p.answers.queue with
  | [] => none
  | answer :: rest =>
    match reply answer.deps env ⟨id, some answer.event⟩ p.state with
    | .ok (s', response) =>
      some { p with
        state := s'
        answers := { p.answers with queue := rest }
        sent := p.sent ++ coinsIn bankCoinsOf response }
    | .error _ => none

def carryLiqRepay (env : Env) (pool : Addr) (amount : Decimal) (p : Progress) : Option Progress :=
  match p.answers.liqRepay with
  | none => none
  | some payment =>
    if payment.coin.amount ≤ amount.toUintFloor then
      match execute payment.deps env (MessageInfo.oneCoin pool payment.coin payment.positive)
          .liqRepay p.state with
      | .ok (s', response) =>
        some { p with
          state := s'
          answers := { p.answers with liqRepay := none }
          sent := p.sent ++ coinsIn distributedCoinsOf response
          liqRepaid := p.liqRepaid +
            (response.messages.map fun sub => distributedFor sub.msg).sum }
      | .error _ => none
    else none

/-- One message of a liquidation, with all that follows from it. -/
def carryOut (env : Env) (p : Progress) (sub : SubMsg OutMsg) : Option Progress :=
  match sub.msg with
  | .execute pool (.spRepay userInfo repayment) _ => carryRepay env pool userInfo repayment p
  | .execute _ (.lqLiquidate ..) _ => carryAsk env sub.id p
  | .execute pool (.spLiquidate amount) _ => carryLiqRepay env pool amount p
  | .execute _ (.badDebtCheck positionId owner) _ =>
    -- a failure, or one of the auction it calls, undoes the callback and is not passed on
    match checkAndFulfillBadDebt positionId owner p.state with
    | .ok (s', _) => if p.answers.auctionAccepts then some { p with state := s' } else some p
    | .error _ => some p
  | .execute _ .depositFee coins => some { p with sent := p.sent ++ coins }
  | .bankSend _ coins => some { p with sent := p.sent ++ coins }
  | .execute _ _ _ => some p

/-- A liquidation from outside, with the answers of the other contracts. -/
structure Liquidation where
  deps : Deps
  env : Env
  info : MessageInfo
  positionId : Nat
  positionOwner : String
  answers : Answers

/-- Whether a message is one of the repayments, which come before the callback. -/
def isRepayment (sub : SubMsg OutMsg) : Bool := sub.id != badDebtReplyId

/-- The transaction up to its last repayment, and the messages still to come. -/
def Liquidation.repayments (l : Liquidation) (s : State) :
    Option (Progress × List (SubMsg OutMsg)) :=
  match liquidate l.deps l.env l.info l.positionId l.positionOwner s with
  | .error _ => none
  | .ok (s', response) =>
    match (response.messages.takeWhile isRepayment).foldlM (carryOut l.env)
        ⟨s', l.answers, [], 0⟩ with
    | none => none
    | some p =>
      if p.answers.spent then some (p, response.messages.dropWhile isRepayment) else none

def Liquidation.exec (l : Liquidation) (s : State) : Option Progress :=
  match l.repayments s with
  | none => none
  | some (p, closing) => closing.foldlM (carryOut l.env) p

theorem Liquidation.exec_keeps (Inv : State → Prop) {l : Liquidation} {s : State} {p : Progress}
    (start : ∀ s' response,
      liquidate l.deps l.env l.info l.positionId l.positionOwner s = .ok (s', response) → Inv s')
    (keeps : ∀ p sub p', Inv p.state → carryOut l.env p sub = some p' → Inv p'.state)
    (done : l.exec s = some p) : Inv p.state := by
  have hall : ∀ {msgs : List (SubMsg OutMsg)} {p p' : Progress}, Inv p.state →
      msgs.foldlM (carryOut l.env) p = some p' → Inv p'.state := by
    intro msgs
    induction msgs with
    | nil =>
      intro p p' hinv hrun
      obtain rfl : p = p' := Option.some.inj hrun
      exact hinv
    | cons sub rest ih =>
      intro p p' hinv hrun
      obtain ⟨mid, hstep, hrest⟩ := Option.bind_eq_some_iff.mp hrun
      exact ih (keeps p sub mid hinv hstep) hrest
  unfold Liquidation.exec at done
  split at done
  case h_1 => cases done
  case h_2 mid closing hrepay =>
    unfold Liquidation.repayments at hrepay
    split at hrepay
    case h_1 => cases hrepay
    case h_2 s' response hliquidate =>
      split at hrepay
      case h_1 => cases hrepay
      case h_2 last hrun =>
        split at hrepay
        case isFalse => cases hrepay
        case isTrue =>
          obtain ⟨rfl, -⟩ := Prod.mk.inj (Option.some.inj hrepay)
          exact hall (hall (start s' response hliquidate) hrun) done

/-- What is set off from outside: a call, or a liquidation with all that it sets off. -/
inductive Transaction where
  | call (call : Call)
  | liquidation (l : Liquidation)

/-- A transaction takes the contract from one state to another. -/
def transactionStep (s : State) (t : Transaction) (s' : State) : Prop :=
  match t with
  | .call call => callStep s call s'
  | .liquidation l => ∃ p, l.exec s = some p ∧ p.state = s'

theorem transactions_of_calls {allowed : State → Transaction → Prop} {s s' : State}
    (run : RunWhere callStep (fun s call => allowed s (.call call)) s s') :
    RunWhere transactionStep allowed s s' := by
  induction run with
  | refl => exact .refl
  | tail _ hlast ih =>
    obtain ⟨call, hallowed, hstep⟩ := hlast
    exact ih.tail ⟨.call call, hallowed, hstep⟩

end Membrane.Cdp
