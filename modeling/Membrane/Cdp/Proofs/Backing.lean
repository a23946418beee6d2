import Membrane.Cdp.Proofs.Callbacks
import Membrane.Cdp.Proofs.Conservation
import Membrane.Cdp.Proofs.Redeeming

/-!
# Backing of the debt token

A ledger runs beside the contract: what the messages of its calls mint and burn of
the debt token. What is in circulation is the debt of the stored positions less the
revenue that has not been paid out, after every run in which interest is charged
where it is booked, no debt is lost with a removed position, and redemptions burn
all that they take.
-/

namespace Membrane.Cdp

open Outcome

/-- The contract, and what its messages have minted and burned of the debt token. -/
structure Ledger where
  state : State
  minted : Nat
  burned : Nat

/-- The denomination of the debt token. -/
def Ledger.denom (l : Ledger) : String := l.state.basket.creditAsset.info.toText

/-- A call, and its messages carried out. -/
def ledgerStep (l : Ledger) (call : Call) (l' : Ledger) : Prop :=
  ∃ response, call.steps l.state l'.state response ∧
    l'.minted = l.minted + minted l.denom response ∧
    l'.burned = l.burned + burned l.denom response

def RepaymentClears (s : State) (call : Call) (positionId : Nat) (positionOwner : Option String) :
    Prop :=
  ∀ owner i position prices charged basket asset,
    validatePositionOwner call.deps call.info positionOwner = .ok owner →
    getTargetPosition s owner positionId = .ok (i, position) →
    checkForEmptyPosition position.collateralAssets = true →
    accrueForRepay call.deps call.env call.info owner position s = .ok (prices, charged, basket) →
    assertSentNativeTokenBalance s.basket.creditAsset.info call.info = .ok asset →
    charged.creditAmount ≤ asset.amount

def WithdrawsOnce (s : State) (call : Call) (positionId : Nat) (assets : List Asset)
    (sendTo : Option String) : Prop :=
  ∀ recipient i position,
    validatePositionOwner call.deps call.info sendTo = .ok recipient →
    getTargetPosition s (withdrawOwner call.env call.info recipient sendTo) positionId =
      .ok (i, position) →
    revisitsEmptied position.held assets = false

/-- A redemption burns all that it takes: the proxy is set, and at most one entry that
    it visits has something to redeem, with nothing unrestricted after it. -/
def RedemptionBurns (s : State) (call : Call) (maxCollateralPremium : Nat) : Prop :=
  s.config.osmosisProxy.isSome ∧ ∀ credit,
    sentCredit call.info s.basket.creditAsset.info.toText = .ok credit →
      RedeemsOnce s credit maxCollateralPremium

def LiquidationDefers (s : State) (call : Call) (positionId : Nat)
    (positionOwner : String) : Prop :=
  ∀ owner i position, call.deps.addrValidate positionOwner = .ok owner →
    getTargetPosition s owner positionId = .ok (i, position) →
    ¬ OwnerCovers call.deps call.env s position positionOwner

/-- The calls that keep the debt token backed. -/
def BacksDebt (l : Ledger) (call : Call) : Prop :=
  match call.msg with
  | .deposit positionId positionOwner =>
    DepositChargesNothing l.state call positionId positionOwner
  | .withdraw positionId assets sendTo =>
    WithdrawalStoresInterest l.state call positionId assets sendTo ∧
      WithdrawsOnce l.state call positionId assets sendTo
  | .repay positionId positionOwner _ => RepaymentClears l.state call positionId positionOwner
  | .redeemCollateral maxCollateralPremium =>
    RedemptionBurns l.state call (maxCollateralPremium.getD 99)
  | .liquidate positionId positionOwner => LiquidationDefers l.state call positionId positionOwner
  | .editBasket edit => edit.takeRevenue.getD 0 = 0
  | .increaseDebt .. | .accrue .. | .badDebtCheck .. => True
  | .updateConfig _ | .editCAsset .. | .editRedeemability .. => True
  | .liqRepay => False

/-- What such runs keep: what is in circulation is the debt less the revenue. -/
structure Backed (l : Ledger) : Prop where
  books : l.minted + l.state.basket.pendingRevenue = totalDebt l.state.positions + l.burned
  sound : l.state.Sound

section Step

variable {l l' : Ledger} {s s' : State} {call : Call} {response : Response OutMsg}

/-- Amounts that back each other: interest is charged where it is booked, what is
    borrowed is minted, and what is repaid is burned or paid out. -/
structure Backs (m : Movement) (denom : String) (response : Response OutMsg) : Prop where
  interest : m.charged = m.booked
  minted : minted denom response = m.borrowed
  burned : burned denom response + m.paid = m.repaid

theorem Backed.of_moved {m : Movement} (backed : Backed l) (moved : Moved l.state l'.state m)
    (backs : Backs m l.denom response)
    (minted : l'.minted = l.minted + Cdp.minted l.denom response)
    (burned : l'.burned = l.burned + Cdp.burned l.denom response) : Backed l' := by
  refine ⟨?_, moved.sound⟩
  have hdebt := moved.debt
  have hrevenue := moved.revenue
  have hbooks := backed.books
  have hinterest := backs.interest
  have hminted := backs.minted
  have hburned := backs.burned
  omega

/-! ## What each call moves -/

theorem Moved.of_empty {m : Movement} {denom : String} (moved : Moved s s' m)
    (interest : m.charged = m.booked) (none : m.borrowed = 0) (repaid : m.repaid = m.paid)
    (inert : minted denom response = 0 ∧ burned denom response = 0) :
    ∃ m, Moved s s' m ∧ Backs m denom response :=
  ⟨m, moved, interest, inert.1.trans none.symm, by rw [inert.2, Nat.zero_add, repaid]⟩

theorem withdraw_backs {positionId : Nat} {assets : List Asset} {sendTo : Option String}
    (denom : String) (sound : s.Sound)
    (stores : WithdrawalStoresInterest s call positionId assets sendTo)
    (once : WithdrawsOnce s call positionId assets sendTo)
    (done : executeWithdraw call.deps call.env call.info positionId assets sendTo s =
      .ok (s', response)) : ∃ m, Moved s s' m ∧ Backs m denom response := by
  obtain ⟨-, recipient, position, out, hrecipient, ⟨i, htarget⟩, outcome⟩ :=
    executeWithdraw_spec done
  cases outcome with
  | once target _ withdrawn messages =>
    obtain ⟨interest, hmoved⟩ := withdrawn.moved sound stores hrecipient htarget
    refine hmoved.of_empty rfl rfl rfl ?_
    unfold minted burned
    rw [messages, withdrawalMsgs]
    split <;> simp [mintedBy, burnedBy, SubMsg.replyOnSuccess]
  | overran again =>
    rw [once recipient i position hrecipient htarget] at again
    cases again

theorem repay_backs {positionId : Nat} {positionOwner sendExcessTo : Option String}
    (sound : s.Sound) (clears : RepaymentClears s call positionId positionOwner)
    (done : executeRepay call.deps call.env call.info positionId positionOwner sendExcessTo s =
      .ok (s', response)) :
    ∃ m, Moved s s' m ∧ Backs m s.basket.creditAsset.info.toText response := by
  simp only [executeRepay, bind_eq_ok, liftStd_eq_ok] at done
  obtain ⟨asset, hasset, hrepay⟩ := done
  obtain ⟨owner, position, charged, basket, paid, howner, ⟨i, htarget⟩, repaid, hburned, hminted⟩ :=
    repay_spec hrepay
  obtain ⟨prices, haccrue⟩ := repaid.accrued
  obtain ⟨interest, -, -, hmoved⟩ := repaid.moved (fun hempty => by
    have hclear := clears owner i position prices charged basket asset howner htarget hempty haccrue
      hasset
    omega) sound
  have hinfo : asset.info = s.basket.creditAsset.info := assertSentNativeTokenBalance_info hasset
  rw [hinfo] at hburned
  exact ⟨_, hmoved, rfl, hminted _, hburned⟩

theorem increaseDebt_backs {positionId : Nat} {amount : Option Nat} {ltv : Option Decimal}
    {mintToAddr : Option String} (sound : s.Sound)
    (done : increaseDebt call.deps call.env call.info positionId amount ltv mintToAddr s =
      .ok (s', response)) :
    ∃ m, Moved s s' m ∧ Backs m s.basket.creditAsset.info.toText response := by
  obtain ⟨position, out, amount, -, increased, hminted, hburned⟩ := increaseDebt_spec done
  exact ⟨_, increased.moved sound, rfl, hminted, by simp [hburned]⟩

theorem redeem_backs {maxCollateralPremium : Nat} (sound : s.Sound)
    (burns : RedemptionBurns s call maxCollateralPremium)
    (done : redeemForCollateral call.deps call.env call.info maxCollateralPremium s =
      .ok (s', response)) :
    ∃ m, Moved s s' m ∧ Backs m s.basket.creditAsset.info.toText response := by
  obtain ⟨credit, taken, hsent, redeemed, hminted, hburned⟩ := redeemForCollateral_spec sound done
  exact ⟨_, redeemed.moved, rfl, hminted _, hburned burns.1 (burns.2 credit hsent)⟩

theorem Governed.backs {taken : Nat} (denom : String) (governed : Governed s s' response taken)
    (none : taken = 0) (sound : s.Sound) : ∃ m, Moved s s' m ∧ Backs m denom response := by
  refine (governed.moved sound).of_empty rfl rfl ?_ (governed.inert denom)
  have := governed.pendingRevenue
  simp only
  omega

theorem liquidate_backs {positionId : Nat} {positionOwner : String} (denom : String)
    (sound : s.Sound) (defers : LiquidationDefers s call positionId positionOwner)
    (done : liquidate call.deps call.env call.info positionId positionOwner s =
      .ok (s', response)) :
    ∃ m, Moved s s' m ∧ Backs m denom response := by
  obtain ⟨position, due, msgs, prop, -, liquidated⟩ := liquidate_spec sound done
  obtain ⟨i, htarget⟩ := liquidated.target
  cases liquidated.write with
  | settled covered => exact absurd covered (defers _ i position liquidated.owner htarget)
  | deferred _ same =>
    have hmoved : Moved s s' {} := by
      rw [same]
      exact ⟨rfl, rfl, rfl, rfl, sound⟩
    exact hmoved.of_empty rfl rfl rfl (liquidated.inert denom)

theorem step_backed (backed : Backed l) (allowed : BacksDebt l call) (step : ledgerStep l call l') :
    Backed l' := by
  obtain ⟨response, hstep, hminted, hburned⟩ := step
  suffices h : ∃ m, Moved l.state l'.state m ∧ Backs m l.denom response by
    obtain ⟨m, moved, backs⟩ := h
    exact backed.of_moved moved backs hminted hburned
  have sound := backed.sound
  unfold Call.steps execute at hstep
  unfold BacksDebt at allowed
  cases hmsg : call.msg <;> simp only [hmsg] at hstep allowed
  case updateConfig => exact (updateConfig_governed hstep).backs _ rfl sound
  case deposit =>
    obtain ⟨rfl, interest, hmoved⟩ := deposit_moved sound allowed hstep
    exact hmoved.of_empty rfl rfl rfl ⟨rfl, rfl⟩
  case increaseDebt => exact increaseDebt_backs sound hstep
  case withdraw => exact withdraw_backs _ sound allowed.1 allowed.2 hstep
  case repay => exact repay_backs sound allowed hstep
  case liquidate => exact liquidate_backs _ sound allowed hstep
  case redeemCollateral => exact redeem_backs sound allowed hstep
  case editRedeemability =>
    simp only [bind_eq_ok, pure_eq_ok, Prod.mk.injEq] at hstep
    obtain ⟨_, hedit, rfl, rfl⟩ := hstep
    exact (editRedemptionInfo_governed hedit).backs _ rfl sound
  case accrue =>
    obtain ⟨rfl, -, interest, hmoved⟩ := externalAccrueCall_moved sound hstep
    exact hmoved.of_empty rfl rfl rfl ⟨rfl, rfl⟩
  case editBasket => exact (editBasket_governed hstep).backs _ allowed sound
  case editCAsset => exact (editCAsset_governed hstep).backs _ rfl sound
  case badDebtCheck =>
    split at hstep
    case isTrue =>
      obtain ⟨position, covered, -, written, hinert⟩ := checkAndFulfillBadDebt_spec sound hstep
      exact (written.moved sound).of_empty rfl rfl rfl (hinert _)
    case isFalse => simp at hstep

end Step

/-! ## Runs -/

/-- The ledger of a new contract. -/
def Ledger.start (s : State) : Ledger := ⟨s, 0, 0⟩

theorem Fresh.backed {s : State} {credit : Asset} (fresh : Fresh s credit) :
    Backed (Ledger.start s) where
  books := by
    rw [Ledger.start, fresh.positions, fresh.pendingRevenue]
    rfl
  sound := by
    rw [State.Sound, Ledger.start, fresh.positions]
    exact KeyMap.all_empty

/-- What is minted and not burned is the debt of the stored positions less the pending
    revenue, in every state that a run of such calls reaches. -/
theorem debt_backed {deps : Deps} {env : Env} {info : MessageInfo} {msg : InstantiateMsg}
    {created : State} {response : Response OutMsg} {l : Ledger}
    (instantiated : instantiate deps env info msg = .ok (created, response))
    (run : RunWhere ledgerStep BacksDebt (Ledger.start created) l) :
    (l.minted : Int) - l.burned =
      totalDebt l.state.positions - l.state.basket.pendingRevenue := by
  have hstart : Backed (Ledger.start created) := (instantiate_fresh instantiated).backed
  have hkeeps : ∀ l call l', Backed l → BacksDebt l call → ledgerStep l call l' → Backed l' :=
    fun _ _ _ backed allowed step => step_backed backed allowed step
  have hbooks := (RunWhere.keeps hkeeps run hstart).books
  omega

/-- The ledger after a call, nothing when it fails. -/
def Ledger.exec (l : Ledger) (call : Call) : Option Ledger :=
  match execute call.deps call.env call.info call.msg l.state with
  | .ok (s', response) =>
    some ⟨s', l.minted + Cdp.minted l.denom response, l.burned + Cdp.burned l.denom response⟩
  | .error _ => none

theorem Ledger.exec_step {l l' : Ledger} {call : Call} (done : Ledger.exec l call = some l') :
    ledgerStep l call l' := by
  unfold Ledger.exec at done
  split at done
  case h_1 _ response h =>
    obtain rfl := Option.some.inj done
    exact ⟨response, h, rfl, rfl⟩
  case h_2 => cases done

def ledgerAfter (calls : List Call) : Option Ledger :=
  (newContract 0).bind fun created => execAll Ledger.exec calls (Ledger.start created)

def borrowedForAYear : List Call :=
  borrowing ++ [sampleCall 31536000 "user" (.accrue none [1])]

theorem debt_backed_after_interest :
    ∃ l, ledgerAfter borrowedForAYear = some l ∧ l.minted = 1000000000 ∧
      0 < l.state.basket.pendingRevenue ∧
      (l.minted : Int) - l.burned =
        totalDebt l.state.positions - l.state.basket.pendingRevenue := by
  have hamounts : (ledgerAfter borrowedForAYear).map
      (fun l => (l.minted, decide (0 < l.state.basket.pendingRevenue))) =
        some (1000000000, true) := by decide +kernel
  obtain ⟨l, hl, hamounts⟩ := Option.map_eq_some_iff.mp hamounts
  obtain ⟨hminted, hrevenue⟩ := Prod.mk.inj hamounts
  obtain ⟨created, hnew, hrun⟩ := Option.bind_eq_some_iff.mp hl
  obtain ⟨response, hcreated⟩ := newContract_spec hnew
  refine ⟨l, hl, hminted, of_decide_eq_true hrevenue, debt_backed hcreated (execAll_run
    (fun _ _ _ => Ledger.exec_step) (fun call hcall l => ?_) hrun)⟩
  simp only [borrowedForAYear, borrowing, List.cons_append, List.nil_append, List.mem_cons,
    List.not_mem_nil, or_false] at hcall
  rcases hcall with rfl | rfl | rfl | rfl
  · rfl
  · intro _ _ _ _ _ _ _ _ hid
    cases hid
  · trivial
  · trivial

/-- The calls that the debt token is to be backed over. -/
def BackingCall : ExecuteMsg → Prop
  | .deposit .. | .withdraw .. | .increaseDebt .. | .repay .. | .accrue .. => True
  | .redeemCollateral _ | .badDebtCheck .. => True
  | _ => False

/-- The debt token is not backed after every run: a deposit to a position that owes
    interest books the interest as revenue, and the position stored is without it. -/
theorem debt_not_backed :
    ¬ ∀ calls l, (∀ call ∈ calls, BackingCall call.msg ∨ SetupCall call.msg) →
      ledgerAfter calls = some l →
      (l.minted : Int) - l.burned =
        totalDebt l.state.positions - l.state.basket.pendingRevenue := by
  intro claim
  have hamounts : (ledgerAfter
      (borrowing ++ [sampleDeposit 3153600 "user" (some 1) 10000000 (by decide)])).map
      (fun l => (l.minted, l.burned, totalDebt l.state.positions, l.state.basket.pendingRevenue)) =
        some (1000000000, 0, 1000000000, 1666) := by decide +kernel
  obtain ⟨l, hl, hamounts⟩ := Option.map_eq_some_iff.mp hamounts
  obtain ⟨hminted, hamounts⟩ := Prod.mk.inj hamounts
  obtain ⟨hburned, hamounts⟩ := Prod.mk.inj hamounts
  obtain ⟨hdebt, hrevenue⟩ := Prod.mk.inj hamounts
  have hclaim := claim _ l ?_ hl
  · omega
  · intro call hcall
    simp only [borrowing, List.cons_append, List.nil_append, List.mem_cons, List.not_mem_nil,
      or_false] at hcall
    rcases hcall with rfl | rfl | rfl | rfl
    · exact .inr trivial
    · exact .inl trivial
    · exact .inl trivial
    · exact .inl trivial

end Membrane.Cdp
