import Membrane.Cdp.Proofs.Conservation
import Membrane.Cdp.Proofs.Runs

/-!
# The debt that a liquidation repays

What the repayments of a liquidation make of the position's debt and of the basket's.
The writes of its stages lie over each other: what the owner repays is taken off
twice when it covers all that is due, and is lost when the queue or the pool writes
after it; what the queue repays never leaves the basket.
-/

namespace Membrane.Cdp

open Outcome

/-! ## The debt stored for a position -/

/-- The debt stored for a position, none when it is gone. -/
def storedDebt (store : Store) (owner : Addr) (id : Nat) : Nat :=
  (positionAt store owner id).elim 0 Position.creditAmount

theorem storedDebt_of_some {store : Store} {owner : Addr} {id : Nat} {position : Position}
    (found : positionAt store owner id = some position) :
    storedDebt store owner id = position.creditAmount := by
  rw [storedDebt, found]
  rfl

theorem storedDebt_of_none {store : Store} {owner : Addr} {id : Nat}
    (gone : positionAt store owner id = none) : storedDebt store owner id = 0 := by
  rw [storedDebt, gone]
  rfl

def MovedOne (store store' : Store) (owner : Addr) (id : Nat) : Prop :=
  totalDebt store' + storedDebt store owner id = totalDebt store + storedDebt store' owner id

theorem MovedOne.refl (store : Store) (owner : Addr) (id : Nat) :
    MovedOne store store owner id := rfl

theorem MovedOne.trans {s₁ s₂ s₃ : Store} {owner : Addr} {id : Nat} (h : MovedOne s₁ s₂ owner id)
    (h' : MovedOne s₂ s₃ owner id) : MovedOne s₁ s₃ owner id := by
  unfold MovedOne at h h' ⊢
  omega

section Writes

variable {store store' : Store} {owner : Addr} {old new : Position} {nextId : Nat}

theorem Replaced.movedOne (write : Replaced store store' owner old new)
    (sound : SoundIds nextId store) : MovedOne store store' owner old.positionId := by
  have hdebt := write.debt
  have hbefore := storedDebt_of_some (write.old_at sound)
  have hafter := storedDebt_of_some (write.new_at sound)
  unfold MovedOne
  omega

theorem Removed.movedOne (write : Removed store store' owner old)
    (sound : SoundIds nextId store) : MovedOne store store' owner old.positionId := by
  have hdebt := write.debt
  have hbefore := storedDebt_of_some (write.old_at sound)
  have hafter := storedDebt_of_none (write.gone_at sound)
  unfold MovedOne
  omega

theorem RepayWrite.movedOne (write : RepayWrite store store' owner old new)
    (sound : SoundIds nextId store) : MovedOne store store' owner old.positionId := by
  cases write with
  | replaced _ write => exact write.movedOne sound
  | removed _ write => exact write.movedOne sound

theorem Saved.movedOne (saved : Saved store store' owner new) (sound : SoundIds nextId store) :
    MovedOne store store' owner new.positionId := by
  cases saved with
  | replaced old write => exact write.same ▸ write.movedOne sound
  | gone _ write =>
    unfold MovedOne
    rw [write.debt, storedDebt, storedDebt, write.at_eq]

theorem Saved.after (saved : Saved store store' owner new) (sound : SoundIds nextId store) :
    positionAt store' owner new.positionId =
      (positionAt store owner new.positionId).map fun _ => new := by
  cases saved with
  | replaced old write =>
    rw [write.same, write.new_at sound, write.old_at sound]
    rfl
  | gone absent write => rw [write.at_eq, absent, Option.map_none]

end Writes

/-! ## What the repayments make of it -/

def Answers.userPaid (answers : Answers) : Nat := answers.userRepay.elim 0 fun payment =>
  payment.coin.amount

/-- The debt of `position` and of the basket after the repayments of a liquidation that
    set out to repay `due`. -/
inductive DebtSettled (l : Liquidation) (s : State) (p : Progress) (position : Position)
    (due : Nat) : Prop
  /-- The owner covers it: `due` is taken off first, and the payment from what is left. -/
  | covered (covers : OwnerCovers l.deps l.env s position l.positionOwner)
      (queue : l.answers.queue = []) (pool : l.answers.liqRepay = none)
      (liqRepaid : p.liqRepaid = 0)
      (debt : storedDebt p.state.positions l.positionOwner l.positionId = 0 ∨
        storedDebt p.state.positions l.positionOwner l.positionId =
          position.creditAmount - due - min l.answers.userPaid (position.creditAmount - due))
      (basket : p.state.basket.creditAsset.amount = s.basket.creditAsset.amount -
        min l.answers.userPaid (position.creditAmount - due))
  /-- Nobody repays. -/
  | unpaid (uncovered : ¬ OwnerCovers l.deps l.env s position l.positionOwner)
      (user : l.answers.userRepay = none) (queue : l.answers.queue = [])
      (pool : l.answers.liqRepay = none) (liqRepaid : p.liqRepaid = 0)
      (debt : storedDebt p.state.positions l.positionOwner l.positionId = position.creditAmount)
      (basket : p.state.basket.creditAsset.amount = s.basket.creditAsset.amount)
  /-- The owner repays a part, and nobody else. -/
  | owner (uncovered : ¬ OwnerCovers l.deps l.env s position l.positionOwner)
      (user : l.answers.userRepay ≠ none) (queue : l.answers.queue = [])
      (pool : l.answers.liqRepay = none) (liqRepaid : p.liqRepaid = 0)
      (part : l.answers.userPaid < due)
      (debt : storedDebt p.state.positions l.positionOwner l.positionId =
        if checkForEmptyPosition position.collateralAssets then 0
        else position.creditAmount - l.answers.userPaid)
      (basket : p.state.basket.creditAsset.amount =
        s.basket.creditAsset.amount - l.answers.userPaid)
  /-- The queue or the pool has the last word. -/
  | rest (uncovered : ¬ OwnerCovers l.deps l.env s position l.positionOwner) (forgiven : Nat)
      (used : l.answers.queue ≠ [] ∨ l.answers.liqRepay ≠ none) (atMostOne : forgiven ≤ 1)
      (exact : l.answers.liqRepay = none → forgiven = 0)
      (bound : storedDebt p.state.positions l.positionOwner l.positionId +
        queueRepaid l.answers.queue + p.liqRepaid + forgiven ≤ position.creditAmount)
      (debt : l.answers.userRepay = none →
        storedDebt p.state.positions l.positionOwner l.positionId +
          queueRepaid l.answers.queue + p.liqRepaid + forgiven = position.creditAmount)
      (basket : p.state.basket.creditAsset.amount + p.liqRepaid = s.basket.creditAsset.amount)

theorem LiquidationWrite.after {covers : Prop} {s s' : State} {owner : Addr}
    {position target : Position} {due nextId : Nat}
    (write : LiquidationWrite covers s s' owner position target due)
    (before : positionAt s.positions owner position.positionId = some position)
    (sound : SoundIds nextId s.positions) :
    ∃ stored, positionAt s'.positions owner position.positionId = some stored ∧
      stored.creditAmount = target.creditAmount ∧
      MovedOne s.positions s'.positions owner position.positionId ∧
      s'.basket.creditAsset.amount = s.basket.creditAsset.amount ∧
      (covers ∧ target.creditAmount + due = position.creditAmount ∨
        ¬ covers ∧ stored = position) := by
  cases write with
  | deferred uncovered hsame credit =>
    refine ⟨position, ?_, credit.symm, ?_, ?_, .inr ⟨uncovered, rfl⟩⟩
    · rw [hsame]
      exact before
    · rw [hsame]
      exact .refl _ _ _
    · rw [hsame]
  | settled covered write books credit =>
    refine ⟨target, write.new_at sound, rfl, write.movedOne sound, ?_, .inl ⟨covered, credit⟩⟩
    rw [books.creditAsset]

theorem OwnerStage.after {covers : Prop} {s s' : State} {owner : Addr} {positionId due : Nat}
    {payment : Option Payment} {stored : Position}
    (stage : OwnerStage covers s s' owner positionId due payment) (sound : s.Sound)
    (before : positionAt s.positions owner positionId = some stored) :
    MovedOne s.positions s'.positions owner positionId ∧
      s'.basket.creditAsset.amount = s.basket.creditAsset.amount -
        min (payment.elim 0 fun payment => payment.coin.amount) stored.creditAmount ∧
      storedDebt s'.positions owner positionId =
        (if payment ≠ none ∧ checkForEmptyPosition stored.collateralAssets = true then 0
        else stored.creditAmount -
          min (payment.elim 0 fun payment => payment.coin.amount) stored.creditAmount) ∧
      (payment = none → s' = s) ∧
      (payment ≠ none → covers ∨ (payment.elim 0 fun payment => payment.coin.amount) < due) := by
  cases stage with
  | idle same =>
    subst same
    refine ⟨.refl _ _ _, by simp, ?_, fun _ => rfl, fun h => absurd rfl h⟩
    simp [storedDebt_of_some before]
  | repaid payment i target bound found write =>
    have htarget := positionAt_of_target sound found
    obtain rfl : target = stored := Option.some.inj (htarget.symm.trans before)
    obtain ⟨-, -, -, hid⟩ := getTargetPosition_spec found
    have hmoved := write.write.movedOne sound
    rw [hid] at hmoved
    refine ⟨hmoved, ?_, ?_, fun h => (by cases h), fun _ => bound⟩
    · rw [write.credit]
      rfl
    · cases write.write with
      | replaced collateral replaced =>
        have hafter := storedDebt_of_some (replaced.new_at sound)
        rw [hid] at hafter
        rw [hafter, if_neg (by simp [collateral])]
        rfl
      | removed empty removed =>
        have hafter := storedDebt_of_none (removed.gone_at sound)
        rw [hid] at hafter
        rw [hafter, if_pos ⟨by simp, empty⟩]

theorem Repayments.debts {l : Liquidation} {s s₀ s₁ : State} {p : Progress} {position : Position}
    {due : Nat} {msgs : LiquidationMsgs} {prop : LiquidationPropagation}
    (run : Repayments l s p position due msgs prop s₀ s₁) (sound : s.Sound) :
    DebtSettled l s p position due ∧
      MovedOne s.positions p.state.positions l.positionOwner l.positionId := by
  obtain ⟨response, liquidated⟩ := run.liquidated
  obtain ⟨i, htarget⟩ := liquidated.target
  obtain ⟨-, -, -, hid⟩ := getTargetPosition_spec htarget
  have howner : prop.positionOwner = l.positionOwner :=
    (Deps.addrValidate_eq_ok.mp liquidated.owner).2.symm
  have hbefore := positionAt_of_target sound htarget
  have sound₀ := liquidated.write.sound sound
  have sound₁ := run.owner.sound sound₀
  obtain ⟨stored, hstored, hcredit, hmoved₀, hbasket₀, hwrite⟩ :=
    liquidated.write.after (hid ▸ hbefore) sound
  rw [hid, howner] at hstored hmoved₀
  obtain ⟨hmoved₁, hbasket₁, hdebt₁, hidle, hpart⟩ := run.owner.after sound₀ hstored
  have hpositive := liquidated.positive
  have hbound := liquidated.bound
  rcases hwrite with ⟨covers, hdue⟩ | ⟨uncovered, rfl⟩
  · obtain ⟨-, hasks, hpool⟩ := liquidated.covered covers
    have hqueue : l.answers.queue = [] := by
      rw [← List.length_eq_zero_iff, run.asked, hasks, List.length_nil]
    have hnone := run.unasked hpool
    have hleft : stored.creditAmount = position.creditAmount - due := by omega
    cases run.rest with
    | written _ _ _ write =>
      rcases write.used with h | h
      · exact absurd hqueue h
      · exact absurd hnone h
    | unwritten _ _ same _ liqRepaid =>
      rw [hleft] at hdebt₁ hbasket₁
      refine ⟨.covered covers hqueue hnone liqRepaid ?_ ?_, ?_⟩
      · rw [same, hdebt₁]
        split
        · exact .inl rfl
        · exact .inr rfl
      · rw [same, hbasket₁, hbasket₀]
        rfl
      · rw [same]
        exact hmoved₀.trans hmoved₁
  · cases run.rest with
    | unwritten noQueue noPool same sent liqRepaid =>
      by_cases huser : l.answers.userRepay = none
      · obtain rfl := hidle huser
        refine ⟨.unpaid uncovered huser noQueue noPool liqRepaid ?_ ?_, ?_⟩
        · rw [same, storedDebt_of_some hstored]
        · rw [same, hbasket₀]
        · rw [same]
          exact hmoved₀
      · have hless := (hpart huser).resolve_left uncovered
        have hmin : min (l.answers.userRepay.elim 0 fun payment => payment.coin.amount)
            stored.creditAmount = l.answers.userPaid := by
          unfold Answers.userPaid
          omega
        rw [hmin] at hdebt₁ hbasket₁
        refine ⟨.owner uncovered huser noQueue noPool liqRepaid hless ?_ ?_, ?_⟩
        · rw [same, hdebt₁]
          simp [huser]
        · rw [same, hbasket₁, hbasket₀]
        · rw [same]
          exact hmoved₀.trans hmoved₁
    | written target forgiven distributed write =>
      have hsame : target.positionId = l.positionId :=
        write.positionId.trans (liquidated.positionId.trans hid)
      have hsaved := write.saved
      rw [howner] at hsaved
      have hmoved := hsaved.movedOne sound₁
      have hafter := hsaved.after sound₁
      rw [hsame] at hmoved hafter
      have hdebt := write.credit
      refine ⟨.rest uncovered forgiven write.used write.atMostOne write.exact ?_ ?_ ?_, ?_⟩
      · have hle : storedDebt p.state.positions l.positionOwner l.positionId ≤
            target.creditAmount := by
          cases hfound : positionAt s₁.positions l.positionOwner l.positionId with
          | none => simp [storedDebt, hafter, hfound]
          | some _ => simp [storedDebt, hafter, hfound]
        omega
      · intro huser
        obtain rfl := hidle huser
        rw [hstored, Option.map_some] at hafter
        rw [storedDebt_of_some hafter]
        omega
      · rw [write.basket, liquidated.propBasket, hbasket₀]
      · exact (hmoved₀.trans hmoved₁).trans hmoved

theorem DebtSettled.basket_le {l : Liquidation} {s : State} {p : Progress} {position : Position}
    {due : Nat} (settled : DebtSettled l s p position due) (bound : due ≤ position.creditAmount) :
    s.basket.creditAsset.amount +
        storedDebt p.state.positions l.positionOwner l.positionId ≤
      p.state.basket.creditAsset.amount + position.creditAmount := by
  cases settled with
  | covered _ _ _ _ debt basket =>
    rcases debt with h | h <;> omega
  | unpaid _ _ _ _ _ debt basket => omega
  | owner _ _ _ _ _ part debt basket =>
    split at debt <;> omega
  | rest _ _ _ _ _ bound _ basket => omega

/-! ## The basket counts every debt -/

/-- Ids are apart, and the basket counts at least the stored debts. -/
structure Counted (s : State) : Prop where
  sound : s.Sound
  counted : totalDebt s.positions ≤ s.basket.creditAsset.amount

theorem Counted.of_moved {s s' : State} {m : Movement} (counted : Counted s) (moved : Moved s s' m)
    (interest : m.charged ≤ m.booked) (credited : m.credited ≤ m.repaid) : Counted s' := by
  refine ⟨moved.sound, ?_⟩
  have hdebt := moved.debt
  have hbasket := moved.basket
  have hcounted := counted.counted
  omega

section Call

variable {s s' : State} {call : Call} {response : Response OutMsg}

theorem withdraw_counted {positionId : Nat} {assets : List Asset} {sendTo : Option String}
    (counted : Counted s)
    (done : executeWithdraw call.deps call.env call.info positionId assets sendTo s =
      .ok (s', response)) : Counted s' := by
  have hsound := withdraw_sound counted.sound done
  obtain ⟨-, recipient, position, out, -, -, outcome⟩ := executeWithdraw_spec done
  cases outcome with
  | once target _ withdrawn =>
    cases htouch : touches position.held assets with
    | false =>
      exact counted.of_moved (withdrawn.moved_untouched htouch counted.sound) (Nat.zero_le _)
        (Nat.le_refl _)
    | true =>
      exact counted.of_moved (withdrawn.moved_touched htouch counted.sound) (Nat.le_refl _)
        (Nat.le_refl _)
  | overran _ overran =>
    obtain ⟨list, kept, i, dropped, -⟩ := overran.dropped
    refine ⟨hsound, ?_⟩
    rw [overran.books.creditAsset, (accrue_charged overran.accrued).basketCredit]
    exact (dropped.debt_le.trans counted.counted).trans (Nat.le_add_right _ _)

theorem repay_counted {positionId : Nat} {positionOwner sendExcessTo : Option String}
    (counted : Counted s)
    (done : executeRepay call.deps call.env call.info positionId positionOwner sendExcessTo s =
      .ok (s', response)) : Counted s' := by
  have hsound := repay_sound counted.sound done
  simp only [executeRepay, bind_eq_ok, liftStd_eq_ok] at done
  obtain ⟨asset, -, hrepay⟩ := done
  obtain ⟨owner, position, charged, basket, paid, -, -, repaid, -⟩ := repay_spec hrepay
  obtain ⟨prices, haccrue⟩ := repaid.accrued
  obtain ⟨interest, hcharged⟩ := accrueForRepay_charged haccrue
  refine ⟨hsound, ?_⟩
  have hcredit := hcharged.credit
  have hbasket := hcharged.basketCredit
  have hcounted := counted.counted
  have hle := repaid.debt
  rw [repaid.credit]
  cases repaid.write with
  | replaced _ write =>
    have hdebt := write.debt
    simp only at hdebt ⊢
    omega
  | removed _ write =>
    have hdebt := write.debt
    simp only
    omega

theorem deposit_counted {positionId : Option Nat} {positionOwner : Option String}
    (counted : Counted s)
    (done : executeDeposit call.deps call.env call.info positionId positionOwner s =
      .ok (s', response)) : Counted s' := by
  simp only [executeDeposit, bind_eq_ok, guardErr_eq_ok] at done
  obtain ⟨deposits, -, _, -, hdeposit⟩ := done
  obtain ⟨-, owner, -, into | new⟩ := deposit_spec hdeposit
  · obtain ⟨id, position, assets, out, -, into⟩ := into
    exact counted.of_moved (into.moved counted.sound) (Nat.zero_le _) (Nat.le_refl _)
  · obtain ⟨out, new⟩ := new
    exact counted.of_moved (new.moved counted.sound) (Nat.le_refl _) (Nat.le_refl _)

theorem Governed.counted {taken : Nat} (governed : Governed s s' response taken)
    (counted : Counted s) : Counted s' :=
  counted.of_moved (governed.moved counted.sound) (Nat.le_refl _) (Nat.le_refl _)

theorem call_counted (counted : Counted s) (outside : FromOutside s (.call call))
    (step : callStep s call s') : Counted s' := by
  obtain ⟨response, hstep⟩ := step
  unfold Call.steps execute at hstep
  unfold FromOutside at outside
  cases hmsg : call.msg <;> simp only [hmsg] at hstep outside
  case updateConfig => exact (updateConfig_governed hstep).counted counted
  case deposit => exact deposit_counted counted hstep
  case increaseDebt =>
    obtain ⟨position, out, amount, -, increased, -⟩ := increaseDebt_spec hstep
    exact counted.of_moved (increased.moved counted.sound) (Nat.le_refl _) (Nat.le_refl _)
  case withdraw => exact withdraw_counted counted hstep
  case repay => exact repay_counted counted hstep
  case redeemCollateral =>
    obtain ⟨credit, taken, -, redeemed, -⟩ := redeemForCollateral_spec counted.sound hstep
    exact counted.of_moved redeemed.moved (Nat.le_refl _) (Nat.zero_le _)
  case editRedeemability =>
    simp only [bind_eq_ok, pure_eq_ok, Prod.mk.injEq] at hstep
    obtain ⟨_, hedit, rfl, -⟩ := hstep
    exact (editRedemptionInfo_governed hedit).counted counted
  case accrue =>
    obtain ⟨-, -, interest, hmoved⟩ := externalAccrueCall_moved counted.sound hstep
    exact counted.of_moved hmoved (Nat.le_refl _) (Nat.le_refl _)
  case editBasket => exact (editBasket_governed hstep).counted counted
  case editCAsset => exact (editCAsset_governed hstep).counted counted

end Call

theorem Repayments.counted {l : Liquidation} {s s₀ s₁ : State} {p : Progress} {position : Position}
    {due : Nat} {msgs : LiquidationMsgs} {prop : LiquidationPropagation}
    (run : Repayments l s p position due msgs prop s₀ s₁) (counted : Counted s) :
    Counted p.state := by
  refine ⟨run.sound counted.sound, ?_⟩
  obtain ⟨settled, hmoved⟩ := run.debts counted.sound
  obtain ⟨response, liquidated⟩ := run.liquidated
  obtain ⟨i, htarget⟩ := liquidated.target
  have hbefore := storedDebt_of_some (positionAt_of_target counted.sound htarget)
  rw [(Deps.addrValidate_eq_ok.mp liquidated.owner).2.symm] at hbefore
  have hbasket := settled.basket_le liquidated.bound
  have hcounted := counted.counted
  unfold MovedOne at hmoved
  omega

theorem transaction_counted {s s' : State} {t : Transaction} (counted : Counted s)
    (outside : FromOutside s t) (step : transactionStep s t s') : Counted s' := by
  cases t with
  | call call => exact call_counted counted outside step
  | liquidation l =>
    obtain ⟨p, hexec, rfl⟩ := step
    obtain ⟨mid, position, due, msgs, prop, s₀, s₁, run, hstage, -⟩ := exec_spec counted.sound hexec
    have hmid := run.counted counted
    cases hstage with
    | nothing same => exact same ▸ hmid
    | writtenOff _ _ _ _ write =>
      exact hmid.of_moved (write.moved hmid.sound) (Nat.le_refl _) (Nat.zero_le _)

theorem runs_counted {deps : Deps} {env : Env} {info : MessageInfo} {msg : InstantiateMsg}
    {created s : State} {response : Response OutMsg}
    (instantiated : instantiate deps env info msg = .ok (created, response))
    (run : RunWhere transactionStep FromOutside created s) : Counted s := by
  have hfresh := instantiate_fresh instantiated
  have hstart : Counted created := by
    refine ⟨?_, ?_⟩
    · rw [State.Sound, hfresh.positions]
      exact KeyMap.all_empty
    · rw [hfresh.positions]
      exact Nat.zero_le _
  have hkeeps : ∀ s t s', Counted s → FromOutside s t → transactionStep s t s' → Counted s' :=
    fun _ _ _ counted houtside hstep => transaction_counted counted houtside hstep
  exact RunWhere.keeps hkeeps run hstart

/-! ## When every repayment counts once -/

def Forgives (answers : Answers) (forgiven : Nat) : Prop :=
  forgiven ≤ 1 ∧ (answers.liqRepay = none → forgiven = 0)

def allRepaid (answers : Answers) (p : Progress) : Nat :=
  answers.userPaid + queueRepaid answers.queue + p.liqRepaid

/-- The position's debt and the basket's each end lower by all that was repaid, up to
    the unit that the pool forgives. -/
structure RepaymentsCounted (l : Liquidation) (s : State) (p : Progress) : Prop where
  position : ∃ forgiven, Forgives l.answers forgiven ∧
    storedDebt p.state.positions l.positionOwner l.positionId + allRepaid l.answers p + forgiven =
      storedDebt s.positions l.positionOwner l.positionId
  basket : ∃ forgiven, Forgives l.answers forgiven ∧
    p.state.basket.creditAsset.amount + allRepaid l.answers p + forgiven =
      s.basket.creditAsset.amount

/-- The owner's deposits in the pool fall short of what is due, the queue repays
    nothing, and when the owner repays nobody does after it, and the position holds
    some collateral. -/
def RepaysOnce (l : Liquidation) (s : State) : Prop :=
  ∀ i position, getTargetPosition s l.positionOwner l.positionId = .ok (i, position) →
    ¬ OwnerCovers l.deps l.env s position l.positionOwner ∧ queueRepaid l.answers.queue = 0 ∧
      (l.answers.userRepay = none ∨ l.answers.queue = [] ∧ l.answers.liqRepay = none ∧
        checkForEmptyPosition position.collateralAssets = false)

theorem Answers.userPaid_pos {answers : Answers} (paid : answers.userRepay ≠ none) :
    0 < answers.userPaid := by
  obtain ⟨payment, hpayment⟩ := Option.ne_none_iff_exists'.mp paid
  rw [Answers.userPaid, hpayment]
  exact payment.positive

theorem queueRepaid_nil : queueRepaid [] = 0 := rfl

/-- The repayments of a liquidation are taken off the position's debt and off the
    basket's, each once, exactly when the owner does not cover it, the queue repays
    nothing and nothing is written over what the owner repays. -/
theorem liquidation_counted_iff {deps : Deps} {env : Env} {info : MessageInfo}
    {msg : InstantiateMsg} {created s : State} {response : Response OutMsg}
    (instantiated : instantiate deps env info msg = .ok (created, response))
    (run : RunWhere transactionStep FromOutside created s) {l : Liquidation} {p : Progress}
    {closing : List (SubMsg OutMsg)} (done : l.repayments s = some (p, closing)) :
    RepaymentsCounted l s p ↔ RepaysOnce l s := by
  have hcounted := runs_counted instantiated run
  obtain ⟨position, due, msgs, prop, s₀, s₁, hrun, -⟩ := repayments_spec hcounted.sound done
  obtain ⟨settled, -⟩ := hrun.debts hcounted.sound
  obtain ⟨_, liquidated⟩ := hrun.liquidated
  obtain ⟨i, htarget⟩ := liquidated.target
  rw [(Deps.addrValidate_eq_ok.mp liquidated.owner).2.symm] at htarget
  have hbefore := storedDebt_of_some (positionAt_of_target hcounted.sound htarget)
  have hpositive := liquidated.positive
  have hbound := liquidated.bound
  obtain ⟨list, stored, found, -⟩ := getTargetPosition_spec htarget
  have hbasket : position.creditAmount ≤ s.basket.creditAsset.amount :=
    (credit_le_totalDebt stored found).trans hcounted.counted
  constructor
  · intro ⟨⟨forgiven, hforgives, hposition⟩, ⟨forgiven', hforgives', htotal⟩⟩ j target hfound
    obtain ⟨-, rfl⟩ := Prod.mk.inj (Except.ok.inj (htarget.symm.trans hfound))
    unfold allRepaid at hposition htotal
    cases settled with
    | covered covers queue pool liqRepaid debt basket =>
      have hzero := hforgives.2 pool
      have hzero' := hforgives'.2 pool
      rw [queue, queueRepaid_nil] at hposition htotal
      rcases debt with h | h <;> omega
    | unpaid uncovered user queue pool _ _ _ =>
      exact ⟨uncovered, by rw [queue, queueRepaid_nil], .inl user⟩
    | owner uncovered user queue pool _ part debt basket =>
      refine ⟨uncovered, by rw [queue, queueRepaid_nil], .inr ⟨queue, pool, ?_⟩⟩
      by_contra hempty
      rw [Bool.not_eq_false] at hempty
      rw [if_pos hempty] at debt
      have hzero := hforgives.2 pool
      rw [queue, queueRepaid_nil] at hposition
      omega
    | rest uncovered _ _ _ _ _ _ basket =>
      have hqueue : queueRepaid l.answers.queue = 0 := by omega
      refine ⟨uncovered, hqueue, .inl ?_⟩
      by_contra huser
      have := Answers.userPaid_pos huser
      omega
  · intro once
    obtain ⟨uncovered, hqueue, hlast⟩ := once i position htarget
    have hnone : Forgives l.answers 0 := ⟨Nat.zero_le 1, fun _ => rfl⟩
    cases settled with
    | covered covers => exact absurd covers uncovered
    | unpaid _ user _ _ liqRepaid debt basket =>
      have hpaid : allRepaid l.answers p = 0 := by
        simp [allRepaid, Answers.userPaid, user, hqueue, liqRepaid]
      exact ⟨⟨0, hnone, by omega⟩, ⟨0, hnone, by omega⟩⟩
    | owner _ user queue pool liqRepaid part debt basket =>
      obtain ⟨-, -, hcollateral⟩ := hlast.resolve_left user
      rw [hcollateral, if_neg (by simp)] at debt
      have hpaid : allRepaid l.answers p = l.answers.userPaid := by
        simp [allRepaid, hqueue, liqRepaid]
      exact ⟨⟨0, hnone, by omega⟩, ⟨0, hnone, by omega⟩⟩
    | rest _ forgiven used atMostOne exact bound debt basket =>
      have huser : l.answers.userRepay = none := by
        refine hlast.resolve_right fun h => ?_
        rcases used with hused | hused
        · exact hused h.1
        · exact hused h.2.1
      have hdebt := debt huser
      have hpaid : allRepaid l.answers p = p.liqRepaid := by
        simp [allRepaid, Answers.userPaid, huser, hqueue]
      exact ⟨⟨forgiven, ⟨atMostOne, exact⟩, by omega⟩, ⟨0, hnone, by omega⟩⟩

/-! ## On a sample chain -/

theorem afterGenesis_run {credit : Nat} {calls : List Call} {s : State}
    (outside : ∀ call ∈ calls, ∀ s, FromOutside s (.call call))
    (done : afterGenesis credit calls = some s) :
    ∃ created response, instantiate atPar (atTime 0) (MessageInfo.noFunds "gov") (genesis credit) =
      .ok (created, response) ∧ RunWhere transactionStep FromOutside created s := by
  obtain ⟨created, hnew, hrun⟩ := Option.bind_eq_some_iff.mp done
  obtain ⟨response, hcreated⟩ := newContract_spec hnew
  have hcalls : RunWhere callStep (fun s call => FromOutside s (.call call)) created s :=
    execAll_run (fun _ _ _ => Call.exec_step) outside hrun
  exact ⟨created, response, hcreated, transactions_of_calls hcalls⟩

/-- The sample chain with the collateral at a price of 0.15, and a queue with a bid of
    100000000. -/
def crashed : Deps := { atPar with
  oraclePrices _ assets _ _ := .ok (assets.map fun asset =>
    ⟨if asset = .nativeToken "uatom" then Decimal.percent 15 else Decimal.one, 6⟩)
  checkLiquidatible _ _ _ amount _ _ := .ok ⟨amount - 700000000, 100000000⟩ }

/-- A liquidation of the sample position, two hours in, in which the queue takes
    700000000 of the collateral and repays some. -/
def queueLiquidation (repays : Nat) : Liquidation where
  deps := crashed
  env := atTime 7200
  info := MessageInfo.noFunds "keeper"
  positionId := 1
  positionOwner := "user"
  answers := ⟨none, [⟨crashed, ⟨repays, 700000000, "uatom", "native_token"⟩⟩], none, true⟩

/-- The same liquidation without a bid in the queue, the pool repaying some. -/
def poolLiquidation (repays : Nat) (positive : 0 < repays) : Liquidation :=
  let deps : Deps := { crashed with
    stabilityPoolAsset _ _ := .ok ⟨1000000000, Decimal.percent 10, []⟩
    checkLiquidatible := atPar.checkLiquidatible }
  { queueLiquidation 0 with
    deps := deps
    answers := ⟨none, [], some ⟨deps, ⟨"ucdt", repays⟩, positive⟩, true⟩ }

def sampleRepayments (calls : List Call) (l : Liquidation) :
    Option (State × Progress × List (SubMsg OutMsg)) :=
  (afterGenesis 0 calls).bind fun s => (l.repayments s).map fun done => (s, done)

theorem sampleRepayments_spec {calls : List Call} {l : Liquidation} {s : State} {p : Progress}
    {closing : List (SubMsg OutMsg)} (done : sampleRepayments calls l = some (s, p, closing)) :
    afterGenesis 0 calls = some s ∧ l.repayments s = some (p, closing) := by
  obtain ⟨s', hs, hmap⟩ := Option.bind_eq_some_iff.mp done
  obtain ⟨⟨p', closing'⟩, hrepayments, heq⟩ := Option.map_eq_some_iff.mp hmap
  obtain ⟨rfl, rfl, rfl⟩ := by simpa only [Prod.mk.injEq] using heq
  exact ⟨hs, hrepayments⟩

theorem borrowing_outside : ∀ call ∈ borrowing, ∀ s, FromOutside s (.call call) := by
  intro call hcall s
  simp only [borrowing, List.mem_cons, List.not_mem_nil, or_false] at hcall
  rcases hcall with rfl | rfl | rfl
  · trivial
  · trivial
  · trivial

theorem liquidation_counted_iff_pool :
    ∃ s p closing, sampleRepayments borrowing (poolLiquidation 200000000 (by decide)) =
        some (s, p, closing) ∧
      (RepaymentsCounted (poolLiquidation 200000000 (by decide)) s p ↔
        RepaysOnce (poolLiquidation 200000000 (by decide)) s) := by
  have hsome : (sampleRepayments borrowing
      (poolLiquidation 200000000 (by decide))).isSome = true := by decide +kernel
  obtain ⟨⟨s, p, closing⟩, hrun⟩ := Option.isSome_iff_exists.mp hsome
  obtain ⟨hs, hrepayments⟩ := sampleRepayments_spec hrun
  obtain ⟨created, response, hcreated, houtside⟩ := afterGenesis_run borrowing_outside hs
  exact ⟨s, p, closing, hrun, liquidation_counted_iff hcreated houtside hrepayments⟩

/-- The queue repays 100000000 of the position's debt. The basket still counts it. -/
theorem liquidation_not_counted :
    ¬ ∀ calls l s p closing, (∀ call ∈ calls, ∀ s, FromOutside s (.call call)) →
      sampleRepayments calls l = some (s, p, closing) → RepaymentsCounted l s p := by
  intro claim
  have hdebts : (sampleRepayments borrowing (queueLiquidation 100000000)).map (fun run =>
      (run.1.basket.creditAsset.amount, run.2.1.state.basket.creditAsset.amount)) =
        some (1000000000, 1000000000) := by decide +kernel
  obtain ⟨⟨s, p, closing⟩, hrun, hdebts⟩ := Option.map_eq_some_iff.mp hdebts
  have hbefore : s.basket.creditAsset.amount = 1000000000 := congrArg Prod.fst hdebts
  have hafter : p.state.basket.creditAsset.amount = 1000000000 := congrArg Prod.snd hdebts
  obtain ⟨-, ⟨forgiven, -, hbasket⟩⟩ := claim borrowing _ s p closing borrowing_outside hrun
  have hqueue : queueRepaid (queueLiquidation 100000000).answers.queue = 100000000 := rfl
  unfold allRepaid at hbasket
  omega

end Membrane.Cdp
