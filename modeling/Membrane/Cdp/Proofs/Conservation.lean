import Membrane.Cdp.Proofs.Calls
import Membrane.Lib.Run

/-!
# Conservation of debt

The basket's debt is the debt of the stored positions after every run in which no
call books interest that it does not charge, and none redeems. A deposit to a
stored position and a withdrawal that takes nothing book the interest they find
due; a redemption takes debt off the positions and not off the basket.
-/

namespace Membrane.Cdp

open Outcome

/-- The calls that keep the debt of the basket that of the positions. -/
def ConservesDebt (s : State) (call : Call) : Prop :=
  match call.msg with
  | .deposit positionId positionOwner => DepositChargesNothing s call positionId positionOwner
  | .withdraw positionId assets sendTo => WithdrawalStoresInterest s call positionId assets sendTo
  | .increaseDebt .. | .repay .. | .accrue .. => True
  | .updateConfig _ | .editBasket _ | .editCAsset .. | .editRedeemability .. => True
  | .redeemCollateral _ | .liquidate .. | .liqRepay | .badDebtCheck .. => False

/-- What such runs keep: the books agree, and no position is empty. -/
structure Balanced (s : State) : Prop where
  books : s.basket.creditAsset.amount = totalDebt s.positions
  sound : s.Sound
  holding : EachPosition (Holding Positive) s.positions

/-! ## One call -/

section Step

variable {s s' : State} {call : Call} {response : Response OutMsg}

private theorem Balanced.of_moved {charged borrowed repaid paid : Nat} (balanced : Balanced s)
    (moved : Moved s s'
      { charged := charged, booked := charged, borrowed := borrowed, repaid := repaid,
        credited := repaid, paid := paid })
    (holding : EachPosition (Holding Positive) s'.positions) : Balanced s' := by
  refine ⟨?_, moved.sound, holding⟩
  have hdebt := moved.debt
  have hbasket := moved.basket
  have hbooks := balanced.books
  simp only at hdebt hbasket
  omega

theorem deposit_balanced {positionId : Option Nat} {positionOwner : Option String}
    (balanced : Balanced s) (free : DepositChargesNothing s call positionId positionOwner)
    (done : executeDeposit call.deps call.env call.info positionId positionOwner s =
      .ok (s', response)) : Balanced s' := by
  obtain ⟨-, interest, hmoved⟩ := deposit_moved balanced.sound free done
  exact balanced.of_moved hmoved (deposit_each (fun _ _ h hle => Nat.lt_of_lt_of_le h hle)
    (sentAssets_positive call.info) balanced.holding done)

theorem withdraw_balanced {positionId : Nat} {assets : List Asset} {sendTo : Option String}
    (balanced : Balanced s) (stores : WithdrawalStoresInterest s call positionId assets sendTo)
    (done : executeWithdraw call.deps call.env call.info positionId assets sendTo s =
      .ok (s', response)) : Balanced s' := by
  obtain ⟨-, recipient, position, out, hrecipient, ⟨i, htarget⟩, outcome⟩ :=
    executeWithdraw_spec done
  obtain ⟨list, stored, found, -⟩ := getTargetPosition_spec htarget
  have hpositive := (balanced.holding.at stored found).each
  have hholding := outcome.each (fun _ _ _ h _ => h) balanced.holding hpositive
  cases outcome with
  | once target _ withdrawn =>
    obtain ⟨interest, hmoved⟩ :=
      withdrawn.moved balanced.sound stores hrecipient htarget
    exact balanced.of_moved hmoved hholding
  | overran again =>
    rw [revisitsEmptied_of_positive hpositive] at again
    cases again

theorem repay_balanced {positionId : Nat} {positionOwner sendExcessTo : Option String}
    (balanced : Balanced s)
    (done : executeRepay call.deps call.env call.info positionId positionOwner sendExcessTo s =
      .ok (s', response)) : Balanced s' := by
  simp only [executeRepay, bind_eq_ok, liftStd_eq_ok] at done
  obtain ⟨asset, _, hrepay⟩ := done
  obtain ⟨owner, position, charged, basket, paid, _, ⟨i, htarget⟩, repaid, -, -⟩ :=
    repay_spec hrepay
  obtain ⟨list, stored, found, -⟩ := getTargetPosition_spec htarget
  have hold := balanced.holding.at stored found
  obtain ⟨prices, haccrue⟩ := repaid.accrued
  obtain ⟨_, hcharged⟩ := accrueForRepay_charged haccrue
  obtain ⟨interest, hbasket, hcredit, hmoved⟩ := repaid.moved
    (fun hempty => by rw [hold.not_empty] at hempty; cases hempty) balanced.sound
  -- the repaid debt is part of the positions' debt, so the basket counts it
  have hcounted : min asset.amount charged.creditAmount ≤ basket.creditAsset.amount := by
    have hle := credit_le_totalDebt stored found
    have hbooks := balanced.books
    omega
  rw [Nat.min_eq_left hcounted] at hmoved
  refine balanced.of_moved hmoved ?_
  cases repaid.write with
  | replaced _ write => exact write.each (hold.congr hcharged.held) balanced.holding
  | removed _ write => exact write.each balanced.holding

theorem increaseDebt_balanced {positionId : Nat} {amount : Option Nat} {ltv : Option Decimal}
    {mintToAddr : Option String} (balanced : Balanced s)
    (done : increaseDebt call.deps call.env call.info positionId amount ltv mintToAddr s =
      .ok (s', response)) : Balanced s' := by
  obtain ⟨position, out, amount, ⟨i, htarget⟩, increased, -, -⟩ := increaseDebt_spec done
  obtain ⟨list, stored, found, -⟩ := getTargetPosition_spec htarget
  have hold := balanced.holding.at stored found
  refine balanced.of_moved (increased.moved balanced.sound)
    (increased.write.each ?_ balanced.holding)
  exact hold.congr (accrue_charged increased.accrued).held

theorem accrue_balanced {positionOwner : Option String} {positionIds : List Nat}
    (balanced : Balanced s)
    (done : externalAccrueCall call.deps call.env call.info positionOwner positionIds s =
      .ok (s', response)) : Balanced s' := by
  obtain ⟨-, heach, interest, hmoved⟩ := externalAccrueCall_moved balanced.sound done
  exact balanced.of_moved hmoved (heach Positive balanced.holding)

theorem Governed.balanced {taken : Nat} (governed : Governed s s' response taken)
    (balanced : Balanced s) : Balanced s' := by
  refine balanced.of_moved (governed.moved balanced.sound) ?_
  rw [governed.positions]
  exact balanced.holding

theorem step_balanced (balanced : Balanced s) (allowed : ConservesDebt s call)
    (step : callStep s call s') : Balanced s' := by
  obtain ⟨response, hstep⟩ := step
  unfold Call.steps execute at hstep
  unfold ConservesDebt at allowed
  cases hmsg : call.msg <;> simp only [hmsg] at hstep allowed
  case updateConfig => exact (updateConfig_governed hstep).balanced balanced
  case deposit => exact deposit_balanced balanced allowed hstep
  case increaseDebt => exact increaseDebt_balanced balanced hstep
  case withdraw => exact withdraw_balanced balanced allowed hstep
  case repay => exact repay_balanced balanced hstep
  case editRedeemability =>
    simp only [bind_eq_ok, pure_eq_ok, Prod.mk.injEq] at hstep
    obtain ⟨_, hedit, rfl, -⟩ := hstep
    exact (editRedemptionInfo_governed hedit).balanced balanced
  case accrue => exact accrue_balanced balanced hstep
  case editBasket => exact (editBasket_governed hstep).balanced balanced
  case editCAsset => exact (editCAsset_governed hstep).balanced balanced

end Step

/-! ## Runs -/

theorem Fresh.balanced {s : State} {credit : Asset} (fresh : Fresh s credit)
    (empty : credit.amount = 0) : Balanced s where
  books := by rw [fresh.creditAsset, fresh.positions, empty]; rfl
  sound := by rw [State.Sound, fresh.positions]; exact KeyMap.all_empty
  holding := by rw [fresh.positions]; exact KeyMap.all_empty

/-- The basket's debt is the positions' debt in every state that a run of such calls
    reaches from a contract instantiated without debt. -/
theorem debt_conserved {deps : Deps} {env : Env} {info : MessageInfo} {msg : InstantiateMsg}
    {created s : State} {response : Response OutMsg}
    (instantiated : instantiate deps env info msg = .ok (created, response))
    (empty : msg.createBasket.creditAsset.amount = 0)
    (run : RunWhere callStep ConservesDebt created s) :
    s.basket.creditAsset.amount = totalDebt s.positions := by
  have hstart : Balanced created := (instantiate_fresh instantiated).balanced empty
  have hkeeps : ∀ s call s', Balanced s → ConservesDebt s call → callStep s call s' →
      Balanced s' := fun _ _ _ balanced allowed step => step_balanced balanced allowed step
  exact (RunWhere.keeps hkeeps run hstart).books

/-! ## Runs on a sample chain -/

/-- A chain on which every asset trades at par and nobody has a discount. -/
def atPar : Deps where
  addrValid _ := true
  balance _ _ := .ok 0
  recoveredSinceDowntime := .ok true
  liquidity _ _ := .ok 10000000000000
  oraclePrices _ assets _ _ := .ok (assets.map fun _ => ⟨Decimal.one, 6⟩)
  oracleAssets _ _ := .ok ()
  userDiscount _ _ := .ok Decimal.zero
  getOwner _ _ := .ok (Decimal.one, none)
  poolState _ _ := .ok ⟨[], ""⟩
  mbrnDenom _ := .ok "umbrn"
  stabilityPoolRaw _ := .ok (some ⟨0, Decimal.zero, []⟩)
  stabilityPoolAsset _ _ := .ok ⟨0, Decimal.zero, []⟩
  checkLiquidatible _ _ _ _ _ _ := .error (.genericErr "")

/-- The block at a time. -/
def atTime (time : Nat) : Env := ⟨time, "cdp"⟩

def sampleConfig : Config where
  owner := "gov"
  stabilityPool := some "pool"
  dexRouter := none
  stakingContract := some "staking"
  osmosisProxy := some "proxy"
  debtAuction := some "auction"
  oracleContract := some "oracle"
  liquidityContract := some "liquidity"
  discountsContract := none
  liqFee := Decimal.percent 1
  collateralTwapTimeframe := 60
  creditTwapTimeframe := 60
  oracleTimeLimit := 600
  cpcMultiplier := Decimal.one
  debtMinimum := 1
  baseDebtCapMultiplier := 1
  rateSlopeMultiplier := Decimal.one
  rateHikeRate := none

/-- A basket without collateral types, whose debt token is worth a dollar. -/
def sampleBasket : Basket where
  basketId := 1
  currentPositionId := 2
  collateralTypes := []
  collateralSupplyCaps := []
  lastestCollateralRates := []
  multiAssetSupplyCaps := []
  creditAsset := ⟨.nativeToken "ucdt", 0⟩
  creditPrice := ⟨Decimal.one, 6⟩
  baseInterestRate := Decimal.zero
  pendingRevenue := 0
  creditLastAccrued := 0
  ratesLastAccrued := 0
  oracleSet := true
  negativeRates := true
  frozen := false
  revToStakers := true
  cpcMarginOfError := Decimal.zero
  liqQueue := none

/-- The instantiation of a basket with one collateral type, at ten percent interest. -/
def genesis (credit : Nat) : InstantiateMsg where
  owner := none
  oracleTimeLimit := 600
  debtMinimum := 1
  liqFee := Decimal.percent 1
  collateralTwapTimeframe := 60
  creditTwapTimeframe := 60
  rateSlopeMultiplier := Decimal.one
  baseDebtCapMultiplier := 1
  stabilityPool := some "pool"
  dexRouter := none
  stakingContract := some "staking"
  oracleContract := some "oracle"
  osmosisProxy := some "proxy"
  debtAuction := some "auction"
  liquidityContract := some "liquidity"
  createBasket := {
    basketId := 1
    collateralTypes := [⟨⟨.nativeToken "uatom", 0⟩, Decimal.percent 50, Decimal.percent 60,
      Decimal.one, none, none⟩]
    creditAsset := ⟨.nativeToken "ucdt", credit⟩
    creditPrice := Decimal.one
    baseInterestRate := some (Decimal.percent 10)
    creditPoolInfos := []
    liqQueue := some "queue" }

/-- A contract instantiated by `genesis`. -/
def newContract (credit : Nat) : Option State :=
  match instantiate atPar (atTime 0) (MessageInfo.noFunds "gov") (genesis credit) with
  | .ok (created, _) => some created
  | .error _ => none

theorem newContract_spec {credit : Nat} {created : State}
    (done : newContract credit = some created) :
    ∃ response, instantiate atPar (atTime 0) (MessageInfo.noFunds "gov") (genesis credit) =
      .ok (created, response) := by
  unfold newContract at done
  split at done
  case h_1 _ response h =>
    obtain rfl := Option.some.inj done
    exact ⟨response, h⟩
  case h_2 => cases done

def afterGenesis (credit : Nat) (calls : List Call) : Option State :=
  (newContract credit).bind (execAll Call.exec calls)

def openBasket : Call := ⟨atPar, atTime 0, MessageInfo.noFunds "gov", .editBasket {
  creditAssetTwapPriceSource := some ⟨1, "ucdt", "uusdc"⟩
  collateralSupplyCaps := some [⟨.nativeToken "uatom", 0, 0, Decimal.one, false, none⟩] }⟩

def sampleDeposit (time : Nat) (user : Addr) (positionId : Option Nat) (amount : Nat)
    (positive : 0 < amount) : Call :=
  ⟨atPar, atTime time, MessageInfo.oneCoin user ⟨"uatom", amount⟩ positive,
    .deposit positionId none⟩

def sampleCall (time : Nat) (user : Addr) (msg : ExecuteMsg) : Call :=
  ⟨atPar, atTime time, MessageInfo.noFunds user, msg⟩

def borrowing : List Call :=
  [openBasket, sampleDeposit 0 "user" none 10000000000 (by decide),
    sampleCall 0 "user" (.increaseDebt 1 (some 1000000000) none none)]

theorem debt_conserved_borrowing :
    ∃ s, afterGenesis 0 borrowing = some s ∧ totalDebt s.positions = 1000000000 ∧
      s.basket.creditAsset.amount = totalDebt s.positions := by
  have hdebt : (afterGenesis 0 borrowing).map (fun s => totalDebt s.positions) =
      some 1000000000 := by decide +kernel
  obtain ⟨s, hs, hdebt⟩ := Option.map_eq_some_iff.mp hdebt
  obtain ⟨created, hnew, hrun⟩ := Option.bind_eq_some_iff.mp hs
  obtain ⟨response, hcreated⟩ := newContract_spec hnew
  refine ⟨s, hs, hdebt, debt_conserved hcreated rfl (execAll_run
    (fun _ _ _ => Call.exec_step) (fun call hcall s => ?_) hrun)⟩
  simp only [borrowing, List.mem_cons, List.not_mem_nil, or_false] at hcall
  rcases hcall with rfl | rfl | rfl
  · trivial
  · intro _ _ _ _ _ _ _ _ hid
    cases hid
  · trivial

/-- The calls the books are to agree over. -/
def DebtCall : ExecuteMsg → Prop
  | .deposit .. | .withdraw .. | .increaseDebt .. | .repay .. | .accrue .. => True
  | .redeemCollateral _ => True
  | _ => False

/-- The calls with which governance sets up a basket. -/
def SetupCall : ExecuteMsg → Prop
  | .updateConfig _ | .editBasket _ | .editCAsset .. => True
  | _ => False

/-- The debt of the basket is not that of the positions in every reachable state.
    Governance has set up the basket and a user has borrowed: a deposit at which
    interest is due adds the interest to the basket alone. Even without governance, a
    basket may be instantiated with debt that no position has. -/
theorem debt_not_conserved :
    (¬ ∀ calls s, (∀ call ∈ calls, DebtCall call.msg ∨ SetupCall call.msg) →
      afterGenesis 0 calls = some s → s.basket.creditAsset.amount = totalDebt s.positions) ∧
    ¬ ∀ credit calls s, (∀ call ∈ calls, DebtCall call.msg) →
      afterGenesis credit calls = some s →
      s.basket.creditAsset.amount = totalDebt s.positions := by
  refine ⟨fun claim => ?_, fun claim => ?_⟩
  · have hbooks : (afterGenesis 0
        (borrowing ++ [sampleDeposit 3153600 "user" (some 1) 10000000 (by decide)])).map
        (fun s => (s.basket.creditAsset.amount, totalDebt s.positions)) =
          some (1000001666, 1000000000) := by decide +kernel
    obtain ⟨s, hs, hbooks⟩ := Option.map_eq_some_iff.mp hbooks
    obtain ⟨hbasket, hdebt⟩ := Prod.mk.inj hbooks
    have hclaim := claim _ s ?_ hs
    · omega
    · intro call hcall
      simp only [borrowing, List.cons_append, List.nil_append, List.mem_cons, List.not_mem_nil,
        or_false] at hcall
      rcases hcall with rfl | rfl | rfl | rfl
      · exact .inr trivial
      · exact .inl trivial
      · exact .inl trivial
      · exact .inl trivial
  · have hbooks : (afterGenesis 5 []).map
        (fun s => (s.basket.creditAsset.amount, totalDebt s.positions)) = some (5, 0) := by
      decide +kernel
    obtain ⟨s, hs, hbooks⟩ := Option.map_eq_some_iff.mp hbooks
    obtain ⟨hbasket, hdebt⟩ := Prod.mk.inj hbooks
    have hclaim := claim 5 [] s (by simp) hs
    omega

end Membrane.Cdp
