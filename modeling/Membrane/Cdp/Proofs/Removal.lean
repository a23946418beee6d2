import Membrane.Cdp.Proofs.Backing
import Membrane.Cdp.Proofs.Accounting

/-!
# Positions that are removed

A withdrawal removes a position once it holds nothing, and a repayment removes one
that held nothing before. The first is checked to leave no debt, the second is not.
-/

namespace Membrane.Cdp

open Outcome

/-! ## Which positions are there -/

def KeepsAll (store store' : Store) : Prop :=
  ∀ owner id, (positionAt store owner id).isSome = true → (positionAt store' owner id).isSome = true

def KeepsOthers (store store' : Store) (owner : Addr) (id : Nat) : Prop :=
  ∀ owner' id', owner' ≠ owner ∨ id' ≠ id →
    (positionAt store owner' id').isSome = true → (positionAt store' owner' id').isSome = true

namespace KeepsAll

variable {store store' store'' : Store}

theorem of_eq (same : store' = store) : KeepsAll store store' :=
  fun _ _ present => same ▸ present

theorem trans (h : KeepsAll store store') (h' : KeepsAll store' store'') :
    KeepsAll store store'' :=
  fun owner id present => h' owner id (h owner id present)

theorem of_replaced {owner : Addr} {old new : Position} {nextId : Nat}
    (write : Replaced store store' owner old new) (sound : SoundIds nextId store) :
    KeepsAll store store' := by
  intro owner' id present
  by_cases same : owner' = owner ∧ id = old.positionId
  · obtain ⟨rfl, rfl⟩ := same
    rw [write.new_at sound]
    rfl
  · rw [write.other_at (not_and_or.mp same)]
    exact present

theorem of_saved {owner : Addr} {new : Position} {nextId : Nat}
    (saved : Saved store store' owner new) (sound : SoundIds nextId store) :
    KeepsAll store store' := by
  cases saved with
  | replaced old write => exact of_replaced write sound
  | gone _ write =>
    intro owner' id present
    rw [write.at_eq]
    exact present

theorem of_added {owner : Addr} {new : Position} (write : Added store store' owner new) :
    KeepsAll store store' := by
  intro owner' id present
  obtain ⟨position, found⟩ := Option.isSome_iff_exists.mp present
  rw [write.old_at found]
  rfl

end KeepsAll

theorem Removed.keepsOthers {store store' : Store} {owner : Addr} {old : Position}
    (write : Removed store store' owner old) : KeepsOthers store store' owner old.positionId := by
  intro owner' id' other present
  rw [write.other_at other]
  exact present

/-! ## The debt that a step leaves -/

/-- The debt that a call leaves on a stored position, whether it stays stored or not.
    Of the calls that do not remove positions, the debt before. -/
def Call.debtLeft (s : State) (call : Call) (owner : Addr) (position : Position) : Nat :=
  match call.msg with
  | .repay positionId positionOwner _ =>
    match validatePositionOwner call.deps call.info positionOwner,
      accrueForRepay call.deps call.env call.info owner position s,
      assertSentNativeTokenBalance s.basket.creditAsset.info call.info with
    | .ok target, .ok (_, charged, _), .ok asset =>
      if target = owner ∧ positionId = position.positionId then
        charged.creditAmount - asset.amount
      else position.creditAmount
    | _, _, _ => position.creditAmount
  | .withdraw positionId _ sendTo =>
    match validatePositionOwner call.deps call.info sendTo,
      accrue call.deps call.env s.config s.prices position s.basket owner false with
    | .ok recipient, .ok out =>
      if withdrawOwner call.env call.info recipient sendTo = owner ∧
          positionId = position.positionId then out.position.creditAmount
      else position.creditAmount
    | _, _ => position.creditAmount
  | _ => position.creditAmount

/-- The debt that the stability pool's payment for the owner leaves on a position, which
    the liquidation itself may have changed. The pool is charged no interest. -/
def Liquidation.debtLeft (s : State) (l : Liquidation) (owner : Addr) (position : Position) : Nat :=
  match liquidate l.deps l.env l.info l.positionId l.positionOwner s with
  | .ok (s₀, _) =>
    if l.positionOwner = owner ∧ l.positionId = position.positionId then
      storedDebt s₀.positions owner position.positionId - l.answers.userPaid
    else position.creditAmount
  | .error _ => position.creditAmount

def Transaction.debtLeft (s : State) (t : Transaction) (owner : Addr) (position : Position) : Nat :=
  match t with
  | .call one => one.debtLeft s owner position
  | .liquidation l => l.debtLeft s owner position

/-- A transaction removes only positions that it leaves without debt. -/
def ForgetsNoDebt (s : State) (t : Transaction) (s' : State) : Prop :=
  ∀ owner id position, positionAt s.positions owner id = some position →
    positionAt s'.positions owner id = none → t.debtLeft s owner position = 0

theorem ForgetsNoDebt.of_keepsAll {s s' : State} {t : Transaction}
    (keeps : KeepsAll s.positions s'.positions) : ForgetsNoDebt s t s' := by
  intro owner id position found gone
  have h := keeps owner id (by rw [found]; rfl)
  rw [gone] at h
  cases h

theorem ForgetsNoDebt.of_keepsOthers {s s' : State} {t : Transaction} {owner : Addr} {id : Nat}
    (keeps : KeepsOthers s.positions s'.positions owner id)
    (free : ∀ position, positionAt s.positions owner id = some position →
      t.debtLeft s owner position = 0) : ForgetsNoDebt s t s' := by
  intro owner' id' position found gone
  by_cases same : owner' = owner ∧ id' = id
  · obtain ⟨rfl, rfl⟩ := same
    exact free position found
  · have h := keeps owner' id' (not_and_or.mp same) (by rw [found]; rfl)
    rw [gone] at h
    cases h

/-! ## One step -/

/-- The stability pool's payment for the owner of a position without collateral pays all
    of its debt. -/
def PaymentClears (s : State) (l : Liquidation) : Prop :=
  ∀ s₀ response i position,
    liquidate l.deps l.env l.info l.positionId l.positionOwner s = .ok (s₀, response) →
    l.answers.userRepay ≠ none →
    getTargetPosition s₀ l.positionOwner l.positionId = .ok (i, position) →
    checkForEmptyPosition position.collateralAssets = true →
    position.creditAmount ≤ l.answers.userPaid

/-- The steps that remove positions without debt only. -/
def RemovesCleared (s : State) (t : Transaction) : Prop :=
  FromOutside s t ∧
    match t with
    | .call call =>
      match call.msg with
      | .withdraw positionId assets sendTo => WithdrawsOnce s call positionId assets sendTo
      | .repay positionId positionOwner _ => RepaymentClears s call positionId positionOwner
      | _ => True
    | .liquidation l => PaymentClears s l

section Call

variable {s s' : State} {call : Call} {response : Response OutMsg}

theorem withdraw_forgets {positionId : Nat} {assets : List Asset} {sendTo : Option String}
    (msg : call.msg = .withdraw positionId assets sendTo) (sound : s.Sound)
    (once : WithdrawsOnce s call positionId assets sendTo)
    (done : executeWithdraw call.deps call.env call.info positionId assets sendTo s =
      .ok (s', response)) : ForgetsNoDebt s (.call call) s' := by
  obtain ⟨-, recipient, position, out, hrecipient, ⟨i, htarget⟩, outcome⟩ :=
    executeWithdraw_spec done
  obtain ⟨-, -, -, hid⟩ := getTargetPosition_spec htarget
  cases outcome with
  | overran again =>
    rw [once recipient i position hrecipient htarget] at again
    cases again
  | once target _ withdrawn =>
    cases htouch : touches position.held assets with
    | false => exact .of_keepsAll (.of_eq (withdrawn.untouched htouch))
    | true =>
      cases withdrawn.written htouch with
      | replaced _ write => exact .of_keepsAll (.of_replaced write sound)
      | removed _ free write =>
        refine .of_keepsOthers write.keepsOthers fun stored hstored => ?_
        obtain rfl : position = stored :=
          Option.some.inj ((write.old_at sound).symm.trans hstored)
        simp only [Transaction.debtLeft, Call.debtLeft, msg, hrecipient, withdrawn.accrued,
          hid, and_self, if_true]
        rw [← withdrawn.credit, free]

theorem repay_forgets {positionId : Nat} {positionOwner sendExcessTo : Option String}
    (msg : call.msg = .repay positionId positionOwner sendExcessTo) (sound : s.Sound)
    (clears : RepaymentClears s call positionId positionOwner)
    (done : executeRepay call.deps call.env call.info positionId positionOwner sendExcessTo s =
      .ok (s', response)) : ForgetsNoDebt s (.call call) s' := by
  simp only [executeRepay, bind_eq_ok, liftStd_eq_ok] at done
  obtain ⟨asset, hasset, hrepay⟩ := done
  obtain ⟨owner, position, charged, basket, paid, howner, ⟨i, htarget⟩, repaid, -⟩ :=
    repay_spec hrepay
  obtain ⟨-, -, -, hid⟩ := getTargetPosition_spec htarget
  obtain ⟨prices, haccrue⟩ := repaid.accrued
  cases repaid.write with
  | replaced _ write => exact .of_keepsAll (.of_replaced write sound)
  | removed empty write =>
    refine .of_keepsOthers write.keepsOthers fun stored hstored => ?_
    obtain rfl : position = stored := Option.some.inj ((write.old_at sound).symm.trans hstored)
    have hclear := clears owner i position prices charged basket asset howner htarget empty haccrue
      hasset
    simp only [Transaction.debtLeft, Call.debtLeft, msg, howner, haccrue, hasset, hid, and_self,
      if_true]
    omega

theorem deposit_keepsAll {positionId : Option Nat} {positionOwner : Option String} (sound : s.Sound)
    (done : executeDeposit call.deps call.env call.info positionId positionOwner s =
      .ok (s', response)) : KeepsAll s.positions s'.positions := by
  simp only [executeDeposit, bind_eq_ok, guardErr_eq_ok] at done
  obtain ⟨deposits, -, _, -, hdeposit⟩ := done
  obtain ⟨-, owner, -, into | new⟩ := deposit_spec hdeposit
  · obtain ⟨id, position, assets, out, -, into⟩ := into
    exact .of_replaced into.write sound
  · obtain ⟨out, new⟩ := new
    exact .of_added new.write

theorem accrue_keepsAll {positionOwner : Option String} {positionIds : List Nat} (sound : s.Sound)
    (done : externalAccrueCall call.deps call.env call.info positionOwner positionIds s =
      .ok (s', response)) : KeepsAll s.positions s'.positions := by
  simp only [externalAccrueCall, bind_eq_ok, pure_eq_ok, liftStd_eq_ok, Prod.mk.injEq] at done
  obtain ⟨owner, -, ⟨last, basket⟩, hfold, rfl, -⟩ := done
  have hstart : SoundIds s.basket.currentPositionId s.positions ∧
      KeepsAll s.positions s.positions := ⟨sound, .of_eq rfl⟩
  have hlast := foldlM_keeps (fun acc : State × Basket =>
      SoundIds s.basket.currentPositionId acc.1.positions ∧
        KeepsAll s.positions acc.1.positions)
    (fun acc id acc' hinv hstep => by
      obtain ⟨position, out, -, hwrite, -⟩ := accruePosition_spec hinv.1 hstep
      exact ⟨hwrite.ids hinv.1, hinv.2.trans (.of_replaced hwrite hinv.1)⟩) _ (s, s.basket) _
    hstart hfold
  exact hlast.2

end Call

section Transaction

variable {s s' : State} {l : Liquidation}

theorem LiquidationWrite.keepsAll {covers : Prop} {owner : Addr} {position target : Position}
    {due : Nat} (write : LiquidationWrite covers s s' owner position target due) (sound : s.Sound) :
    KeepsAll s.positions s'.positions := by
  cases write with
  | deferred _ same => exact .of_eq (by rw [same])
  | settled _ write => exact .of_replaced write sound

theorem RestStage.keepsAll {p : Progress} {prop : LiquidationPropagation} {queue : List QueueAnswer}
    {pool : Option Payment} (stage : RestStage s p prop queue pool) (sound : s.Sound) :
    KeepsAll s.positions p.state.positions := by
  cases stage with
  | unwritten _ _ same => exact .of_eq (by rw [same])
  | written target _ _ write => exact .of_saved write.saved sound

theorem ClosingStage.keepsAll {owner : Addr} {positionId : Nat}
    (stage : ClosingStage s s' owner positionId) (sound : s.Sound) :
    KeepsAll s.positions s'.positions := by
  cases stage with
  | nothing same => exact .of_eq (by rw [same])
  | writtenOff _ _ _ _ write => exact .of_replaced write.write sound

theorem liquidation_forgets {p : Progress} (sound : s.Sound) (clears : PaymentClears s l)
    (done : l.exec s = some p) : ForgetsNoDebt s (.liquidation l) p.state := by
  obtain ⟨mid, position, due, msgs, prop, s₀, s₁, run, hclosing, -⟩ := exec_spec sound done
  obtain ⟨response, hliquidate⟩ := run.first
  obtain ⟨_, liquidated⟩ := run.liquidated
  have sound₀ := liquidated.write.sound sound
  have sound₁ := run.owner.sound sound₀
  have hfirst := liquidated.write.keepsAll sound
  have hlast := (run.rest.keepsAll sound₁).trans (hclosing.keepsAll (run.sound sound))
  have howner := run.owner
  generalize hpayment : l.answers.userRepay = payment at howner
  cases howner with
  | idle same =>
    rw [same] at hlast
    exact .of_keepsAll (hfirst.trans hlast)
  | repaid payment i stored _ found write =>
    obtain ⟨-, -, -, hid⟩ := getTargetPosition_spec found
    cases write.write with
    | replaced _ replaced =>
      exact .of_keepsAll ((hfirst.trans (.of_replaced replaced sound₀)).trans hlast)
    | removed empty removed =>
      have hothers := removed.keepsOthers
      rw [hid] at hothers
      have hkept : KeepsOthers s.positions p.state.positions l.positionOwner l.positionId := by
        intro owner' id' other present
        exact hlast owner' id' (hothers owner' id' other (hfirst owner' id' present))
      refine .of_keepsOthers hkept ?_
      · intro before hbefore
        have hclear := clears s₀ response i stored hliquidate (by simp [hpayment]) found empty
        have hdebt := storedDebt_of_some (positionAt_of_target sound₀ found)
        simp only [Transaction.debtLeft, Liquidation.debtLeft, hliquidate,
          positionAt_id hbefore, and_self, if_true]
        omega

theorem step_forgets {t : Transaction} (sound : s.Sound) (allowed : RemovesCleared s t)
    (step : transactionStep s t s') : ForgetsNoDebt s t s' := by
  obtain ⟨outside, allowed⟩ := allowed
  cases t with
  | liquidation l =>
    obtain ⟨p, hexec, rfl⟩ := step
    exact liquidation_forgets sound allowed hexec
  | call one =>
    obtain ⟨response, hstep⟩ := step
    unfold Call.steps execute at hstep
    unfold FromOutside at outside
    cases hmsg : one.msg <;> simp only [hmsg] at hstep outside allowed
    case updateConfig =>
      exact .of_keepsAll (.of_eq (updateConfig_governed hstep).positions)
    case deposit => exact .of_keepsAll (deposit_keepsAll sound hstep)
    case increaseDebt =>
      obtain ⟨position, out, amount, -, increased, -⟩ := increaseDebt_spec hstep
      exact .of_keepsAll (.of_replaced increased.write sound)
    case withdraw => exact withdraw_forgets hmsg sound allowed hstep
    case repay => exact repay_forgets hmsg sound allowed hstep
    case redeemCollateral =>
      obtain ⟨credit, taken, -, redeemed, -⟩ := redeemForCollateral_spec sound hstep
      refine .of_keepsAll fun owner id present => ?_
      have hkinds := congrArg Option.isSome (redeemed.kinds owner id)
      rw [Option.isSome_map, Option.isSome_map] at hkinds
      exact hkinds.trans present
    case editRedeemability =>
      simp only [bind_eq_ok, pure_eq_ok, Prod.mk.injEq] at hstep
      obtain ⟨_, hedit, rfl, -⟩ := hstep
      exact .of_keepsAll (.of_eq (editRedemptionInfo_governed hedit).positions)
    case accrue => exact .of_keepsAll (accrue_keepsAll sound hstep)
    case editBasket =>
      exact .of_keepsAll (.of_eq (editBasket_governed hstep).positions)
    case editCAsset =>
      exact .of_keepsAll (.of_eq (editCAsset_governed hstep).positions)

end Transaction

/-! ## Runs -/

/-- In a run from instantiation in which repayments to positions without collateral pay
    all of their debt, and no withdrawal comes back to a position it has removed, every
    step removes only positions that it leaves without debt. -/
theorem no_debt_forgotten {deps : Deps} {env : Env} {info : MessageInfo} {msg : InstantiateMsg}
    {created s s' : State} {response : Response OutMsg} {t : Transaction}
    (instantiated : instantiate deps env info msg = .ok (created, response))
    (run : RunWhere transactionStep RemovesCleared created s) (allowed : RemovesCleared s t)
    (step : transactionStep s t s') : ForgetsNoDebt s t s' :=
  step_forgets (runs_sound instantiated (fun _ _ h => h.1) run) allowed step

/-! ## On a sample chain -/

/-- The state after a transaction, nothing when it fails. -/
def Transaction.exec (s : State) (t : Transaction) : Option State :=
  match t with
  | .call one => Call.exec s one
  | .liquidation l => (l.exec s).map Progress.state

theorem Transaction.exec_step {s s' : State} {t : Transaction}
    (done : Transaction.exec s t = some s') : transactionStep s t s' := by
  cases t with
  | call one => exact Call.exec_step done
  | liquidation l =>
    obtain ⟨p, hexec, rfl⟩ := Option.map_eq_some_iff.mp done
    exact ⟨p, hexec, rfl⟩

/-- The states before and after the last of some transactions on the sample chain. -/
def lastStep (ts : List Transaction) (t : Transaction) : Option (State × State) :=
  ((newContract 0).bind (execAll Transaction.exec ts)).bind fun s =>
    (Transaction.exec s t).map fun s' => (s, s')

theorem lastStep_spec {ts : List Transaction} {t : Transaction} {s s' : State}
    (done : lastStep ts t = some (s, s')) :
    ∃ created, newContract 0 = some created ∧ execAll Transaction.exec ts created = some s ∧
      transactionStep s t s' := by
  obtain ⟨s₁, hrun, hmap⟩ := Option.bind_eq_some_iff.mp done
  obtain ⟨created, hnew, hall⟩ := Option.bind_eq_some_iff.mp hrun
  obtain ⟨s₂, hlast, heq⟩ := Option.map_eq_some_iff.mp hmap
  obtain ⟨rfl, rfl⟩ := Prod.mk.inj heq
  exact ⟨created, hnew, hall, Transaction.exec_step hlast⟩

def opening : List Transaction :=
  [.call openBasket, .call (sampleDeposit 0 "user" none 40000000000 (by decide))]

/-- The user takes all of it back. -/
def closingWithdrawal : Call :=
  sampleCall 0 "user" (.withdraw 1 [⟨.nativeToken "uatom", 40000000000⟩] none)

theorem no_debt_forgotten_closing :
    ∃ s s', lastStep opening (.call closingWithdrawal) = some (s, s') ∧
      positionAt s'.positions "user" 1 = none ∧
      ForgetsNoDebt s (.call closingWithdrawal) s' := by
  have hgone : (lastStep opening (.call closingWithdrawal)).map (fun run =>
      (positionAt run.2.positions "user" 1).isNone) = some true := by decide +kernel
  obtain ⟨⟨s, s'⟩, hrun, hgone⟩ := Option.map_eq_some_iff.mp hgone
  obtain ⟨created, hnew, hall, hstep⟩ := lastStep_spec hrun
  obtain ⟨response, hcreated⟩ := newContract_spec hnew
  have hpath : RunWhere transactionStep RemovesCleared created s := by
    refine execAll_run (fun _ _ _ => Transaction.exec_step) (fun t ht s => ?_) hall
    simp only [opening, List.mem_cons, List.not_mem_nil, or_false] at ht
    rcases ht with rfl | rfl
    · exact ⟨trivial, trivial⟩
    · exact ⟨trivial, trivial⟩
  have hallowed : RemovesCleared s (.call closingWithdrawal) := by
    refine ⟨trivial, fun recipient i position _ _ => ?_⟩
    simp [revisitsEmptied]
  exact ⟨s, s', hrun, Option.isNone_iff_eq_none.mp hgone,
    no_debt_forgotten hcreated hpath hallowed hstep⟩

/-- The sample chain with the collateral at a price of 0.1, and a queue with a bid of
    500000000 for all that is left of it. -/
def wipedOut : Deps := { crashed with
  oraclePrices _ assets _ _ := .ok (assets.map fun asset =>
    ⟨if asset = .nativeToken "uatom" then Decimal.percent 10 else Decimal.one, 6⟩)
  checkLiquidatible _ _ _ _ _ _ := .ok ⟨0, 500000000⟩ }

def wipingLiquidation : Liquidation := { queueLiquidation 0 with
  deps := wipedOut
  answers := ⟨none, [⟨wipedOut, ⟨500000000, 5900000000, "uatom", "native_token"⟩⟩], none, true⟩ }

def partialRepayment : Call :=
  ⟨wipedOut, atTime 7200, MessageInfo.oneCoin "auction" ⟨"ucdt", 100000000⟩ (by decide),
    .repay 1 (some "user") none⟩

/-- A repayment removes the position that has no collateral left with the debt that it
    does not repay. -/
theorem debt_forgotten :
    ¬ ∀ ts t s s', (∀ u ∈ t :: ts, ∀ s, FromOutside s u) →
      lastStep ts t = some (s, s') → ForgetsNoDebt s t s' := by
  intro claim
  have hdebts : (lastStep (borrowing.map .call ++ [.liquidation wipingLiquidation])
      (.call partialRepayment)).map (fun run =>
        ((positionAt run.1.positions "user" 1).map fun position =>
            (Transaction.call partialRepayment).debtLeft run.1 "user" position,
          (positionAt run.2.positions "user" 1).isNone)) = some (some 400000000, true) := by
    decide +kernel
  obtain ⟨⟨s, s'⟩, hrun, hdebts⟩ := Option.map_eq_some_iff.mp hdebts
  obtain ⟨hbefore, hafter⟩ := Prod.mk.inj hdebts
  obtain ⟨position, hfound, hleft⟩ := Option.map_eq_some_iff.mp hbefore
  have hclaim := claim _ _ s s' (fun u hu s => ?_) hrun "user" 1 position hfound
    (Option.isNone_iff_eq_none.mp hafter)
  · rw [hleft] at hclaim
    cases hclaim
  · simp only [borrowing, List.map_cons, List.map_nil, List.cons_append, List.nil_append,
      List.mem_cons, List.not_mem_nil, or_false] at hu
    rcases hu with rfl | rfl | rfl | rfl | rfl
    · trivial
    · trivial
    · trivial
    · trivial
    · trivial

end Membrane.Cdp
