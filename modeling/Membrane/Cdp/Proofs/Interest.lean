import Membrane.Cdp.Proofs.Runs
import Membrane.Cdp.Proofs.Spending
import Membrane.Discounts.Contract

/-!
# Whose discount the interest has

Every accrual asks the discounts contract for a user's discount. The system discounts
answer with an object and the answer is read as a decimal, so it is never read, and the
error means no discount: no user makes a difference to the interest.
-/

namespace Membrane.Cdp

open Outcome

/-! ## The accruals of a call -/

/-- One accrual: whose position it charges, what it is made from, and the user whose
    discount it asks for. -/
structure Accrual where
  owner : Addr
  config : Config
  prices : PriceStore
  position : Position
  basket : Basket
  user : String
  isDepositFunction : Bool

/-- The accrual carried out. -/
def Accrual.run (a : Accrual) (deps : Deps) (env : Env) : Outcome StdError Accrued :=
  accrue deps env a.config a.prices a.position a.basket a.user a.isDepositFunction

/-- A configuration without a discounts contract. -/
def Config.undiscounted (config : Config) : Config := { config with discountsContract := none }

/-- The same accrual without a discounts contract. -/
def Accrual.undiscounted (a : Accrual) : Accrual := { a with config := a.config.undiscounted }

/-- The accruals that a call makes. A deposit accrues the position with the deposited
    collateral, and all but a deposit accrue it as it is stored. The stability pool's
    repayments accrue nothing. -/
inductive Call.Accrues (call : Call) (s : State) : Accrual → Prop
  | deposit {positionId i : Nat} {positionOwner : Option String} {owner : Addr}
      {stored : Position} {deposits assets : List CAsset} {previous : List Asset}
      (msg : call.msg = .deposit (some positionId) positionOwner)
      (owned : validatePositionOwner call.deps call.info positionOwner = .ok owner)
      (sent : assertBasketAssets s.basket (sentAssets call.info) = .ok deposits)
      (target : getTargetPosition s owner positionId = .ok (i, stored))
      (grown : deposits.foldlM depositAsset (stored.collateralAssets, []) =
        .ok (assets, previous)) :
      Accrues call s ⟨owner, s.config, s.prices, { stored with collateralAssets := assets },
        s.basket, owner, true⟩
  | create {positionId : Option Nat} {positionOwner : Option String} {owner : Addr}
      {deposits : List CAsset} (msg : call.msg = .deposit positionId positionOwner)
      (owned : validatePositionOwner call.deps call.info positionOwner = .ok owner)
      (sent : assertBasketAssets s.basket (sentAssets call.info) = .ok deposits) :
      Accrues call s ⟨owner, s.config, s.prices, ⟨s.basket.currentPositionId, deposits, 0⟩,
        { s.basket with currentPositionId := s.basket.currentPositionId + 1 }, owner, true⟩
  | withdraw {positionId i : Nat} {assets : List Asset} {sendTo : Option String}
      {recipient : Addr} {stored : Position} (msg : call.msg = .withdraw positionId assets sendTo)
      (valid : validatePositionOwner call.deps call.info sendTo = .ok recipient)
      (target : getTargetPosition s (withdrawOwner call.env call.info recipient sendTo) positionId =
        .ok (i, stored)) :
      Accrues call s ⟨withdrawOwner call.env call.info recipient sendTo, s.config, s.prices, stored,
        s.basket, withdrawOwner call.env call.info recipient sendTo, false⟩
  | repay {positionId i : Nat} {positionOwner sendExcessTo : Option String} {owner : Addr}
      {stored : Position} (msg : call.msg = .repay positionId positionOwner sendExcessTo)
      (notPool : call.info.sender ≠ addrOr s.config.stabilityPool)
      (owned : validatePositionOwner call.deps call.info positionOwner = .ok owner)
      (target : getTargetPosition s owner positionId = .ok (i, stored)) :
      Accrues call s ⟨owner, s.config, s.prices, stored, s.basket, owner, false⟩
  | increaseDebt {positionId i : Nat} {amount : Option Nat} {ltv : Option Decimal}
      {mintToAddr : Option String} {stored : Position}
      (msg : call.msg = .increaseDebt positionId amount ltv mintToAddr)
      (target : getTargetPosition s call.info.sender positionId = .ok (i, stored)) :
      Accrues call s ⟨call.info.sender, s.config, s.prices, stored, s.basket, call.info.sender,
        false⟩
  | accrue {before behind : List Nat} {positionId i : Nat} {positionOwner : Option String}
      {owner : Addr} {mid : State} {basket : Basket} {stored : Position}
      (msg : call.msg = .accrue positionOwner (before ++ positionId :: behind))
      (owned : validatePositionOwner call.deps call.info positionOwner = .ok owner)
      (reached : before.foldlM (accruePosition call.deps call.env call.info owner) (s, s.basket) =
        .ok (mid, basket))
      (target : getTargetPosition mid owner positionId = .ok (i, stored)) :
      Accrues call s ⟨owner, mid.config, mid.prices, stored, basket, call.info.sender, false⟩

/-- Whether a call accrues interest. -/
def Call.chargesInterest (call : Call) (s : State) : Prop :=
  match call.msg with
  | .deposit .. | .withdraw .. | .increaseDebt .. => True
  | .repay .. => call.info.sender ≠ addrOr s.config.stabilityPool
  | .accrue _ positionIds => positionIds ≠ []
  | _ => False

theorem Call.accrues_of_steps {call : Call} {s s' : State} {response : Response OutMsg}
    (charges : call.chargesInterest s) (step : call.steps s s' response) :
    ∃ a out, call.Accrues s a ∧ a.run call.deps call.env = .ok out := by
  unfold Call.steps execute at step
  unfold Call.chargesInterest at charges
  cases hmsg : call.msg <;> simp only [hmsg] at step charges
  case deposit positionId positionOwner =>
    simp only [executeDeposit, bind_eq_ok] at step
    obtain ⟨deposits, hsent, _, -, hdeposit⟩ := step
    obtain ⟨-, owner, howner, into | new⟩ := deposit_spec hdeposit
    · obtain ⟨id, stored, assets, out, rfl, into⟩ := into
      obtain ⟨i, htarget⟩ := into.target
      obtain ⟨previous, hgrown⟩ := into.grown
      exact ⟨_, out, .deposit hmsg howner hsent htarget hgrown, into.accrued⟩
    · obtain ⟨out, new⟩ := new
      exact ⟨_, out, .create hmsg howner hsent, new.accrued⟩
  case withdraw positionId assets sendTo =>
    simp only [executeWithdraw, withdraw, bind_eq_ok, liftStd_eq_ok] at step
    obtain ⟨_, -, _, -, _, -, _, -, recipient, hrecipient, ⟨i, stored⟩, htarget, out, haccrue, -⟩ :=
      step
    exact ⟨_, out, .withdraw hmsg hrecipient htarget, haccrue⟩
  case repay positionId positionOwner sendExcessTo =>
    simp only [executeRepay, repay, bind_eq_ok, liftStd_eq_ok] at step
    obtain ⟨_, -, _, -, owner, howner, ⟨i, stored⟩, htarget, ⟨_, _, _⟩, haccrue, -⟩ := step
    rw [accrueForRepay, if_pos charges] at haccrue
    simp only [bind_eq_ok, liftStd_eq_ok] at haccrue
    obtain ⟨out, haccrue, -⟩ := haccrue
    exact ⟨_, out, .repay hmsg charges howner htarget, haccrue⟩
  case increaseDebt positionId amount ltv mintToAddr =>
    simp only [increaseDebt, bind_eq_ok, liftStd_eq_ok] at step
    obtain ⟨_, -, ⟨i, stored⟩, htarget, out, haccrue, -⟩ := step
    exact ⟨_, out, .increaseDebt hmsg htarget, haccrue⟩
  case accrue positionOwner positionIds =>
    cases positionIds with
    | nil => exact absurd rfl charges
    | cons id behind =>
      simp only [externalAccrueCall, List.foldlM_cons, bind_eq_ok, liftStd_eq_ok] at step
      obtain ⟨owner, howner, _, ⟨_, hfirst, -⟩, -⟩ := step
      simp only [accruePosition, bind_eq_ok, liftStd_eq_ok] at hfirst
      obtain ⟨⟨i, stored⟩, htarget, out, haccrue, -⟩ := hfirst
      have hmsg : _ = ExecuteMsg.accrue positionOwner ([] ++ id :: behind) := hmsg
      exact ⟨_, out, .accrue hmsg howner rfl htarget, haccrue⟩

/-! ## The discount -/

/-- The discount that an answer says; an error says none. -/
def discountOf : Except StdError Discounts.Answer → Decimal
  | .ok answer => answer.discount
  | .error _ => Decimal.zero

/-- What the discounts contract of a configuration answers for a user, an error when
    there is no such contract. -/
def answerFor (config : Config) (query : String → Except StdError Discounts.Answer)
    (user : String) : Except StdError Discounts.Answer :=
  match config.discountsContract with
  | some _ => query user
  | none => .error (.notFound "discounts_contract")

/-- The part of the interest that is due after a discount, rounded down. -/
def dueInterest (undiscounted : Nat) (discount : Decimal) : Nat :=
  undiscounted * (Decimal.fractional - discount.atomics) / Decimal.fractional

theorem dueInterest_eq_self {undiscounted : Nat} {discount : Decimal} :
    undiscounted = dueInterest undiscounted discount ↔
      undiscounted = 0 ∨ discount = Decimal.zero := by
  have hpos : 0 < Decimal.fractional := by decide
  unfold dueInterest
  constructor
  · intro whole
    by_cases hzero : undiscounted = 0
    · exact .inl hzero
    · right
      have hle : undiscounted * Decimal.fractional ≤
          undiscounted * (Decimal.fractional - discount.atomics) :=
        (Nat.le_div_iff_mul_le hpos).mp (Nat.le_of_eq whole)
      have hkept := Nat.le_of_mul_le_mul_left hle (Nat.pos_of_ne_zero hzero)
      have hatomics : discount.atomics = 0 := by omega
      exact congrArg Decimal.mk hatomics
  · rintro (rfl | rfl)
    · simp
    · exact (Nat.mul_div_cancel undiscounted hpos).symm

/-- The chain asks the system discounts contract, whose answers it reads as decimals. -/
def AsksSystemDiscounts (deps : Deps) (query : String → Except StdError Discounts.Answer) : Prop :=
  ∀ contract user, deps.userDiscount contract user = Discounts.readDecimal (query user)

section Accrual

variable {deps : Deps} {env : Env} {network : Discounts.Deps} {discounts : Discounts.Config}

theorem readDecimal_query (user : String) :
    ∃ error, Discounts.readDecimal (Discounts.query network env discounts user) = .error error := by
  unfold Discounts.query
  split
  · exact ⟨_, rfl⟩
  · exact ⟨_, rfl⟩
  · exact ⟨_, rfl⟩

theorem accruedInterest_unread {config : Config} {user : String} {creditAmount : Nat}
    {rateOfChange : Decimal}
    (unread : ∀ contract, ∃ error, deps.userDiscount contract user = .error error) :
    accruedInterest deps config user creditAmount rateOfChange =
      accruedInterest deps config.undiscounted user creditAmount rateOfChange := by
  unfold accruedInterest
  cases hcontract : config.discountsContract with
  | none => simp only [Config.undiscounted]
  | some contract =>
    obtain ⟨error, herror⟩ := unread contract
    have hrecover : ∀ interest, (Outcome.recover
        (getDiscountedInterest deps contract user interest) interest : Outcome StdError Nat) =
          pure interest := by
      intro interest
      simp only [getDiscountedInterest, herror]
      rfl
    simp only [hrecover, Config.undiscounted]

theorem Accrual.run_unread {a : Accrual} {query : String → Except StdError Discounts.Answer}
    (system : AsksSystemDiscounts deps query)
    (unread : ∀ user, ∃ error, Discounts.readDecimal (query user) = .error error) :
    a.run deps env = a.undiscounted.run deps env := by
  have hinterest : ∀ creditAmount rateOfChange,
      accruedInterest deps a.config a.user creditAmount rateOfChange =
        accruedInterest deps a.config.undiscounted a.user creditAmount rateOfChange := by
    intro creditAmount rateOfChange
    refine accruedInterest_unread fun contract => ?_
    obtain ⟨error, herror⟩ := unread a.user
    exact ⟨error, (system contract a.user).trans herror⟩
  unfold Accrual.run accrue
  simp only [hinterest]
  rfl

/-- A successful call that charges interest makes an accrual. Every accrual of it charges
    the interest that is due after the owner's discount exactly when there is no interest
    or no discount; and whoever asks, it comes out the same. -/
theorem interest_due_iff_undiscounted {call : Call} {s s' : State} {response : Response OutMsg}
    (system : AsksSystemDiscounts call.deps (Discounts.query network call.env discounts))
    (charges : call.chargesInterest s) (step : call.steps s s' response) :
    (∃ a out, call.Accrues s a ∧ a.run call.deps call.env = .ok out) ∧
      ∀ a out, call.Accrues s a → a.run call.deps call.env = .ok out →
        ∃ whole, a.undiscounted.run call.deps call.env = .ok whole ∧
          (out.interest a.position = dueInterest (whole.interest a.position) (discountOf
              (answerFor a.config (Discounts.query network call.env discounts) a.owner)) ↔
            whole.interest a.position = 0 ∨ discountOf (answerFor a.config
              (Discounts.query network call.env discounts) a.owner) = Decimal.zero) ∧
          ∀ user, ({ a with user := user } : Accrual).run call.deps call.env = .ok out := by
  refine ⟨Call.accrues_of_steps charges step, ?_⟩
  intro a out _ done
  have hwhole : a.undiscounted.run call.deps call.env = .ok out := by
    rw [← Accrual.run_unread system readDecimal_query]
    exact done
  refine ⟨out, hwhole, dueInterest_eq_self, ?_⟩
  intro user
  rw [Accrual.run_unread system readDecimal_query]
  exact hwhole

end Accrual

/-! ## On a sample chain -/

def halfCovered : Discounts.Deps where
  rawBasket _ := .ok ⟨Decimal.one, 6⟩
  getBasket _ := .ok ⟨Decimal.one, 6⟩
  getBasketPositions _ _ := .ok [[⟨1, [], 1000000000⟩]]
  oraclePrice _ _ _ _ := .ok [⟨Decimal.one, 6⟩]
  assetPoolDeposits _ _ := .ok [⟨Decimal.ofNat 500000000, 0⟩]
  totalStaked _ _ := .ok 0
  accruedInterest _ _ := .ok 0

def sampleDiscounts : Discounts.Config := ⟨"umbrn", "oracle", "cdp", "staking", "pool", 0⟩

def discounting (time : Nat) : Deps := { atPar with
  userDiscount := fun _ user =>
    Discounts.readDecimal (Discounts.query halfCovered (atTime time) sampleDiscounts user) }

def discountedBorrowing : List Call := borrowing ++
  [sampleCall 0 "gov" (.updateConfig { discountsContract := some "discounts" })]

def keeperAccrual : Call :=
  ⟨discounting 3153600, atTime 3153600, MessageInfo.noFunds "keeper", .accrue (some "user") [1]⟩

def accrualOf (s : State) (stored : Position) : Accrual :=
  ⟨"user", s.config, s.prices, stored, s.basket, "keeper", false⟩

def interestCharged (s : State) : Option Nat :=
  match getTargetPosition s "user" 1 with
  | .error _ => none
  | .ok (_, stored) =>
    match (accrualOf s stored).run keeperAccrual.deps keeperAccrual.env with
    | .error _ => none
    | .ok out => some (out.interest stored)

theorem interestCharged_spec {s : State} {interest : Nat}
    (charged : interestCharged s = some interest) :
    ∃ stored out, keeperAccrual.Accrues s (accrualOf s stored) ∧
      (accrualOf s stored).run keeperAccrual.deps keeperAccrual.env = .ok out ∧
      out.interest stored = interest := by
  unfold interestCharged at charged
  split at charged
  case h_1 => cases charged
  case h_2 i stored htarget =>
    split at charged
    case h_1 => cases charged
    case h_2 out hrun =>
      refine ⟨stored, out, ?_, hrun, Option.some.inj charged⟩
      have hmsg : keeperAccrual.msg = .accrue (some "user") ([] ++ 1 :: []) := rfl
      exact .accrue hmsg rfl rfl htarget

theorem interest_due_iff_undiscounted_keeper :
    ∃ s s' response, sampleResponse discountedBorrowing keeperAccrual = some (s, s', response) ∧
      ∃ a out, keeperAccrual.Accrues s a ∧ a.run keeperAccrual.deps keeperAccrual.env =
        .ok out := by
  have hsome : (sampleResponse discountedBorrowing keeperAccrual).isSome = true := by decide +kernel
  obtain ⟨⟨s, s', response⟩, hrun⟩ := Option.isSome_iff_exists.mp hsome
  have hsystem : AsksSystemDiscounts keeperAccrual.deps
      (Discounts.query halfCovered keeperAccrual.env sampleDiscounts) := fun _ _ => rfl
  have hcharges : keeperAccrual.chargesInterest s := List.cons_ne_nil _ _
  have hdue := interest_due_iff_undiscounted hsystem hcharges (sampleResponse_spec hrun).2
  exact ⟨s, s', response, hrun, hdue.1⟩

/-- The interest of a user who is answered a discount of half is charged in full. -/
theorem interest_not_discounted :
    ¬ ∀ calls call s s' response network discounts a out whole,
      sampleResponse calls call = some (s, s', response) →
      AsksSystemDiscounts call.deps (Discounts.query network call.env discounts) →
      call.Accrues s a → a.run call.deps call.env = .ok out →
      a.undiscounted.run call.deps call.env = .ok whole →
      out.interest a.position = dueInterest (whole.interest a.position) (discountOf
        (answerFor a.config (Discounts.query network call.env discounts) a.owner)) := by
  intro claim
  have hsample : (sampleResponse discountedBorrowing keeperAccrual).map (fun run =>
      (interestCharged run.1, run.1.config.discountsContract)) =
        some (some 1666, some "discounts") := by decide +kernel
  obtain ⟨⟨s, s', response⟩, hrun, hsample⟩ := Option.map_eq_some_iff.mp hsample
  obtain ⟨hcharged, hcontract⟩ := Prod.mk.inj hsample
  obtain ⟨stored, out, haccrues, hout, hinterest⟩ := interestCharged_spec hcharged
  have system : AsksSystemDiscounts keeperAccrual.deps
      (Discounts.query halfCovered keeperAccrual.env sampleDiscounts) := fun _ _ => rfl
  have hwhole := (Accrual.run_unread system readDecimal_query).symm.trans hout
  have hdue := claim discountedBorrowing keeperAccrual s s' response halfCovered sampleDiscounts
    (accrualOf s stored) out out hrun system haccrues hout hwhole
  have hanswer : discountOf (answerFor (accrualOf s stored).config
      (Discounts.query halfCovered keeperAccrual.env sampleDiscounts) (accrualOf s stored).owner) =
        Decimal.percent 50 := by
    have hset : (accrualOf s stored).config.discountsContract = some "discounts" := hcontract
    simp only [answerFor, hset]
    show discountOf (Discounts.query halfCovered (atTime 3153600) sampleDiscounts "user") =
      Decimal.percent 50
    decide +kernel
  rw [hanswer] at hdue
  have hposition : out.interest (accrualOf s stored).position = 1666 := hinterest
  rw [hposition] at hdue
  exact absurd hdue (by decide)

end Membrane.Cdp
