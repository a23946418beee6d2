import Membrane.Cdp.Proofs.Natives
import Membrane.Cdp.Proofs.Removal
import Membrane.Cdp.Proofs.Seizure
import Membrane.Cdp.Proofs.Uniform

/-!
# What a withdrawal sends and leaves

A withdrawal sends what it takes off the position, touches no other position and
leaves the position within its borrow limit, as long as it takes anything: the
limit is checked in the rounds that find their asset. Coming back to a position that
it has emptied, it removes the one behind it.
-/

namespace Membrane.Cdp

open Outcome

/-! ## What is sent -/

theorem holds_takeFrom {held : List Asset} {withdrawn : Asset} {info : AssetInfo}
    (h : holds (takeFrom held withdrawn) info = true) : holds held info = true := by
  have heach : ∀ asset ∈ takeFrom held withdrawn, ∃ a ∈ held, a.info = asset.info :=
    takeFrom_each (P := fun asset => ∃ a ∈ held, a.info = asset.info) (fun _ _ h _ _ => h)
      fun asset hmem => ⟨asset, hmem, rfl⟩
  obtain ⟨asset, hmem, heq⟩ := List.any_eq_true.mp h
  obtain ⟨a, ha, hinfo⟩ := heach asset hmem
  exact List.any_eq_true.mpr ⟨a, ha, hinfo ▸ heq⟩

theorem takenAssets_held :
    ∀ {withdrawals held : List Asset}, ∀ asset ∈ takenAssets held withdrawals,
    holds held asset.info = true := by
  intro withdrawals
  induction withdrawals with
  | nil =>
    intro held asset hmem
    cases hmem
  | cons withdrawn rest ih =>
    intro held asset hmem
    rcases List.mem_append.mp hmem with hhead | htail
    · by_cases hheld : holds held withdrawn.info = true
      · rw [if_pos hheld, List.mem_singleton] at hhead
        exact hhead ▸ hheld
      · rw [if_neg hheld] at hhead
        cases hhead
    · exact holds_takeFrom (ih asset htail)

theorem native_of_holds {held : List Asset} {asset : Asset} (natives : ∀ a ∈ held, Native a)
    (h : holds held asset.info = true) : Native asset := by
  obtain ⟨a, ha, heq⟩ := List.any_eq_true.mp h
  obtain ⟨denom, hdenom⟩ := natives a ha
  exact ⟨denom, (AssetInfo.equal_iff.mp heq).symm.trans hdenom⟩

theorem coinsOf_assetCoins {info : AssetInfo} {assets : List Asset}
    (natives : ∀ asset ∈ assets, Native asset) :
    coinsOf info (assets.flatMap assetCoins) = amountOf info assets := by
  induction assets with
  | nil => rfl
  | cons asset rest ih =>
    obtain ⟨denom, hdenom⟩ := natives asset List.mem_cons_self
    have hcoins : assetCoins asset = [⟨denom, asset.amount⟩] := by rw [assetCoins, hdenom]
    rw [List.flatMap_cons, coinsOf_append, hcoins, coinsOf_singleton,
      ih fun a ha => natives a (List.mem_cons_of_mem asset ha), ← List.singleton_append,
      amountOf_append, amountOf_singleton, hdenom]

theorem withdrawalMsgs_coins {recipient : Addr} {taken : List Asset} {response : Response OutMsg}
    (messages : response.messages = withdrawalMsgs recipient taken) :
    coinsIn bankCoinsOf response = taken.flatMap assetCoins := by
  rw [coinsIn, messages, withdrawalMsgs]
  split
  case isTrue hnone => simp [List.isEmpty_iff.mp hnone]
  case isFalse => simp [SubMsg.replyOnSuccess, bankCoinsOf]

theorem amountOf_of_not_holds {held : List Asset} {info : AssetInfo}
    (absent : holds held info = false) : amountOf info held = 0 := by
  refine List.sum_eq_zero fun amount hmem => ?_
  obtain ⟨asset, hasset, rfl⟩ := List.mem_map.mp hmem
  have hne := List.any_eq_false.mp absent asset hasset
  rw [if_neg fun heq => hne (AssetInfo.equal_iff.mpr heq)]

/-! ## The borrow limit -/

def WithinBorrowLTV (deps : Deps) (env : Env) (config : Config) (prices : PriceStore)
    (basket : Basket) (position : Position) : Prop :=
  ∃ ltv fee avg, insolvencyCheck deps env config prices basket position.collateralAssets
    position.creditAmount basket.creditPrice true = .ok ((false, ltv, fee), avg) ∧
    ltv ≤ avg.avgBorrowLTV

theorem insolvencyCheck_within {deps : Deps} {env : Env} {config : Config} {prices : PriceStore}
    {basket : Basket} {position : Position} {res : Bool × Decimal × Nat} {avg : AvgLTV}
    (done : insolvencyCheck deps env config prices basket position.collateralAssets
      position.creditAmount basket.creditPrice true = .ok (res, avg)) (solvent : res.1 = false) :
    position.creditAmount = 0 ∨ WithinBorrowLTV deps env config prices basket position := by
  by_cases hdebt : position.creditAmount = 0
  · exact .inl hdebt
  · obtain ⟨check, ltv, fee⟩ := res
    simp only at solvent
    subst solvent
    refine .inr ⟨ltv, fee, avg, done, ?_⟩
    simp only [insolvencyCheck, bind_eq_ok, pure_eq_ok, insolvencyCheckCalc, Prod.mk.injEq] at done
    obtain ⟨_, -, res', ⟨total, -, hcalc⟩, rfl, rfl⟩ := done
    split at hcalc
    case isTrue => simp at hcalc
    case isFalse =>
      simp only [bind_eq_ok, pure_eq_ok, Prod.mk.injEq, if_true] at hcalc
      obtain ⟨_, -, ltv', -, _, -, hcheck, rfl, -⟩ := hcalc
      exact Nat.not_lt.mp (of_decide_eq_false hcheck)

/-! ## Withdrawals -/

/-- A withdrawal from a position of `owner` sends what the position has less, of what is
    held only; leaves every other position; and leaves no debt or a loan-to-value within
    the borrow limit, at the prices of its accrual. -/
structure WithdrawSafe (s s' : State) (call : Call) (owner : Addr) (positionId : Nat)
    (response : Response OutMsg) : Prop where
  sent : ∀ info, storedAmount s'.positions owner positionId info +
    coinsOf info (coinsIn bankCoinsOf response) = storedAmount s.positions owner positionId info
  absent : ∀ position info, positionAt s.positions owner positionId = some position →
    holds position.held info = false → coinsOf info (coinsIn bankCoinsOf response) = 0 ∧
      storedAmount s'.positions owner positionId info =
        storedAmount s.positions owner positionId info
  others : ∀ owner' id, owner' ≠ owner ∨ id ≠ positionId →
    positionAt s'.positions owner' id = positionAt s.positions owner' id
  solvent : ∀ position out, positionAt s.positions owner positionId = some position →
    accrue call.deps call.env s.config s.prices position s.basket owner false = .ok out →
    (positionAt s'.positions owner positionId = none → out.position.creditAmount = 0) ∧
      ∀ stored, positionAt s'.positions owner positionId = some stored →
        stored.creditAmount = 0 ∨
          WithinBorrowLTV call.deps call.env s.config out.prices out.basket stored

/-- The withdrawal does not come back to a position it has emptied; and it takes
    something, or the position has no debt or is within its borrow limit. -/
def WithdrawsWithin (s : State) (call : Call) (owner : Addr) (positionId : Nat)
    (assets : List Asset) : Prop :=
  ∀ i position out, getTargetPosition s owner positionId = .ok (i, position) →
    accrue call.deps call.env s.config s.prices position s.basket owner false = .ok out →
    revisitsEmptied position.held assets = false ∧
      (touches position.held assets = true ∨ position.creditAmount = 0 ∨
        WithinBorrowLTV call.deps call.env s.config out.prices out.basket position)

section

variable {s s' : State} {call : Call} {owner recipient : Addr} {position target : Position}
  {out : Accrued} {assets : List Asset} {response : Response OutMsg}

theorem Overran.loses_another (overran : Overran call.deps call.env s s' owner position out)
    (sound : s.Sound) : ∃ id, id ≠ position.positionId ∧
      (positionAt s.positions owner id).isSome = true ∧
        positionAt s'.positions owner id = none := by
  obtain ⟨list, kept, i, dropped, found, hlt, hsublist⟩ := overran.dropped
  have hids := (sound owner list dropped.stored).distinct
  have hrest : ((list.eraseIdx i).map Position.positionId).Nodup :=
    hids.sublist ((List.eraseIdx_sublist list i).map _)
  have hnext : (list.eraseIdx i)[i]? = some (list.eraseIdx i)[i] := List.getElem?_eq_getElem hlt
  have hmem := List.mem_of_mem_eraseIdx (List.mem_of_getElem? hnext)
  obtain ⟨j, hj⟩ := List.getElem?_of_mem hmem
  refine ⟨(list.eraseIdx i)[i].positionId, ?_, ?_, dropped.lost_at ?_⟩
  · intro heq
    have hnone :=
      List.find?_eq_none.mp (ListEdit.find?_eraseIdx_self Position.positionId hids found)
      _ (List.mem_of_getElem? hnext)
    exact hnone (by simpa using heq)
  · rw [positionAt_of_getElem? sound dropped.stored hj]
    rfl
  · intro stored hstored heq
    have hnone :=
      List.find?_eq_none.mp (ListEdit.find?_eraseIdx_self Position.positionId hrest hnext)
      stored (hsublist.subset hstored)
    exact hnone (by simpa using heq)

theorem WithdrawWrite.after (write : WithdrawWrite s.positions s'.positions owner position target)
    (sound : s.Sound) :
    (positionAt s'.positions owner position.positionId = some target ∨
        positionAt s'.positions owner position.positionId = none ∧ target.creditAmount = 0) ∧
      (∀ info, storedAmount s'.positions owner position.positionId info =
        amountOf info target.held) ∧
      ∀ owner' id, owner' ≠ owner ∨ id ≠ position.positionId →
        positionAt s'.positions owner' id = positionAt s.positions owner' id := by
  cases write with
  | replaced _ write =>
    have hafter := write.new_at sound
    exact ⟨.inl hafter, storedAmount_of_some hafter, fun _ _ other => write.other_at other⟩
  | removed empty free write =>
    have hafter := write.gone_at sound
    refine ⟨.inr ⟨hafter, free⟩, fun info => ?_, fun _ _ other => write.other_at other⟩
    rw [storedAmount_of_none hafter, amountOf_eq_zero empty]

theorem Withdrawn.safe_touched
    (withdrawn : Withdrawn call.deps call.env s s' owner position out target assets)
    (touched : touches position.held assets = true)
    (messages : response.messages =
      withdrawalMsgs recipient (takenAssets position.held assets))
    (sound : s.Sound) (natives : ∀ asset ∈ position.held, Native asset)
    (before : positionAt s.positions owner position.positionId = some position) :
    WithdrawSafe s s' call owner position.positionId response := by
  obtain ⟨hafter, hstored, hothers⟩ := (withdrawn.written touched).after sound
  have hbefore := storedAmount_of_some before
  have hcoins : ∀ info, coinsOf info (coinsIn bankCoinsOf response) =
      amountOf info (takenAssets position.held assets) := by
    intro info
    rw [withdrawalMsgs_coins messages]
    exact coinsOf_assetCoins fun asset hmem =>
      native_of_holds natives (takenAssets_held asset hmem)
  have hsent : ∀ info, storedAmount s'.positions owner position.positionId info +
      coinsOf info (coinsIn bankCoinsOf response) =
        storedAmount s.positions owner position.positionId info := by
    intro info
    rw [hstored, hcoins, hbefore, withdrawn.amounts]
  refine ⟨hsent, ?_, hothers, ?_⟩
  · intro found info hfound habsent
    obtain rfl : position = found := Option.some.inj (before.symm.trans hfound)
    have hzero := amountOf_of_not_holds habsent
    have h := hsent info
    rw [hbefore, hzero] at h ⊢
    omega
  · intro found out' hfound haccrue
    obtain rfl : position = found := Option.some.inj (before.symm.trans hfound)
    obtain rfl : out = out' := Except.ok.inj (withdrawn.accrued.symm.trans haccrue)
    obtain ⟨res, avg, hcheck, hsolvent⟩ := withdrawn.solvent touched
    rcases hafter with htarget | ⟨hgone, hfree⟩
    · refine ⟨fun hnone => ?_, fun stored hfound' => ?_⟩
      · rw [htarget] at hnone
        cases hnone
      · obtain rfl : target = stored := Option.some.inj (htarget.symm.trans hfound')
        exact insolvencyCheck_within hcheck hsolvent
    · refine ⟨fun _ => withdrawn.credit ▸ hfree, fun stored hfound' => ?_⟩
      rw [hgone] at hfound'
      cases hfound'

theorem Withdrawn.safe_untouched_iff
    (withdrawn : Withdrawn call.deps call.env s s' owner position out target assets)
    (untouched : touches position.held assets = false)
    (messages : response.messages =
      withdrawalMsgs recipient (takenAssets position.held assets))
    (before : positionAt s.positions owner position.positionId = some position) :
    WithdrawSafe s s' call owner position.positionId response ↔
      position.creditAmount = 0 ∨
        WithinBorrowLTV call.deps call.env s.config out.prices out.basket position := by
  have hsame := withdrawn.untouched untouched
  constructor
  · intro safe
    rw [← hsame] at before
    exact (safe.solvent position out (hsame ▸ before) withdrawn.accrued).2 position before
  · intro within
    have hnone : ∀ info, coinsOf info (coinsIn bankCoinsOf response) = 0 := by
      intro info
      rw [withdrawalMsgs_coins messages, (untouched_spec untouched).2]
      rfl
    refine ⟨?_, ?_, ?_, ?_⟩
    · intro info
      rw [hsame, hnone, Nat.add_zero]
    · intro _ info _ _
      exact ⟨hnone info, by rw [hsame]⟩
    · intro owner' id _
      rw [hsame]
    · intro found out' hfound haccrue
      obtain rfl : position = found := Option.some.inj (before.symm.trans hfound)
      obtain rfl : out = out' := Except.ok.inj (withdrawn.accrued.symm.trans haccrue)
      refine ⟨fun hgone => ?_, fun stored hstored => ?_⟩
      · rw [hsame, before] at hgone
        cases hgone
      · rw [hsame, before] at hstored
        obtain rfl := Option.some.inj hstored
        exact within

end

/-- A withdrawal in a state of a run is safe exactly when it does not come back to a
    position it has emptied, and takes something or leaves no debt beyond the limit. -/
theorem withdraw_safe_iff {deps : Deps} {env : Env} {info : MessageInfo} {msg : InstantiateMsg}
    {created s s' : State} {response response' : Response OutMsg} {call : Call} {positionId : Nat}
    {assets : List Asset} {sendTo : Option String}
    (instantiated : instantiate deps env info msg = .ok (created, response))
    (run : RunWhere transactionStep FromOutside created s)
    (done : execute call.deps call.env call.info (.withdraw positionId assets sendTo) s =
      .ok (s', response')) :
    ∃ owner, (∃ recipient, validatePositionOwner call.deps call.info sendTo = .ok recipient ∧
        owner = withdrawOwner call.env call.info recipient sendTo) ∧
      (WithdrawSafe s s' call owner positionId response' ↔
        WithdrawsWithin s call owner positionId assets) := by
  obtain ⟨sound, natives⟩ := runs_natives instantiated run
  obtain ⟨-, recipient, position, out, hrecipient, ⟨i, htarget⟩, outcome⟩ :=
    executeWithdraw_spec done
  refine ⟨withdrawOwner call.env call.info recipient sendTo, ⟨recipient, hrecipient, rfl⟩, ?_⟩
  obtain ⟨list, stored, found, rfl⟩ := getTargetPosition_spec htarget
  have hbefore := positionAt_of_target sound htarget
  have hnatives := (natives.at stored found).each
  have hunique : ∀ j target out', getTargetPosition s
      (withdrawOwner call.env call.info recipient sendTo) position.positionId = .ok (j, target) →
      accrue call.deps call.env s.config s.prices target s.basket
        (withdrawOwner call.env call.info recipient sendTo) false = .ok out' →
      target = position := fun j target out' hfound _ =>
    (Prod.mk.inj (Except.ok.inj (htarget.symm.trans hfound))).2.symm
  cases outcome with
  | overran again overran =>
    obtain ⟨id, hother, hpresent, hgone⟩ := overran.loses_another sound
    constructor
    · intro safe
      rw [← safe.others _ id (.inr hother), hgone] at hpresent
      cases hpresent
    · intro within
      rw [(within i position out htarget overran.accrued).1] at again
      cases again
  | once target once withdrawn messages =>
    cases htouch : touches position.held assets with
    | true =>
      refine ⟨fun _ j target' out' hfound haccrue => ?_, fun _ =>
        withdrawn.safe_touched htouch messages sound hnatives hbefore⟩
      obtain rfl := hunique j target' out' hfound haccrue
      exact ⟨once, .inl htouch⟩
    | false =>
      refine (withdrawn.safe_untouched_iff htouch messages hbefore).trans ⟨?_, ?_⟩
      · intro within j target' out' hfound haccrue
        obtain rfl := hunique j target' out' hfound haccrue
        obtain rfl : out = out' := Except.ok.inj (withdrawn.accrued.symm.trans haccrue)
        exact ⟨once, .inr within⟩
      · intro within
        refine (within i position out htarget withdrawn.accrued).2.resolve_left ?_
        rw [htouch]
        exact Bool.false_ne_true

/-! ## On a sample chain -/

theorem withdraw_safe_iff_closing :
    ∃ s s' response owner, lastStep opening (.call closingWithdrawal) = some (s, s') ∧
      (WithdrawSafe s s' closingWithdrawal owner 1 response ↔
        WithdrawsWithin s closingWithdrawal owner 1 [⟨.nativeToken "uatom", 40000000000⟩]) := by
  have hsome : (lastStep opening (.call closingWithdrawal)).isSome = true := by decide +kernel
  obtain ⟨⟨s, s'⟩, hrun⟩ := Option.isSome_iff_exists.mp hsome
  obtain ⟨created, hnew, hall, response, hstep⟩ := lastStep_spec hrun
  obtain ⟨first, hcreated⟩ := newContract_spec hnew
  have hpath : RunWhere transactionStep FromOutside created s := by
    refine execAll_run (fun _ _ _ => Transaction.exec_step) (fun t ht s => ?_) hall
    simp only [opening, List.mem_cons, List.not_mem_nil, or_false] at ht
    rcases ht with rfl | rfl
    · trivial
    · trivial
  obtain ⟨owner, -, hiff⟩ := withdraw_safe_iff hcreated hpath hstep
  exact ⟨s, s', response, owner, hrun, hiff⟩

def halfBid : Deps := { atPar with
  oraclePrices _ assets _ _ := .ok (assets.map fun asset =>
    ⟨if asset = .nativeToken "ucdt" then Decimal.one else Decimal.percent 4, 6⟩)
  checkLiquidatible _ asset _ _ _ _ :=
    if asset = .nativeToken "uosmo" then .ok ⟨0, 100000000⟩ else .error (.genericErr "") }

def halfLiquidation : Liquidation := { queueLiquidation 0 with
  deps := halfBid
  answers := ⟨none, [⟨halfBid, ⟨100000000, 3420000000, "uosmo", "native_token"⟩⟩], none, true⟩ }

def repaidAfterLiquidation : List Transaction := [
  .call openBasket, .call addSecond,
  .call (sampleCall 0 "gov" (.editBasket {
    collateralSupplyCaps := some [⟨.nativeToken "uosmo", 0, 0, Decimal.one, false, none⟩] })),
  .call (sampleDeposit 0 "user" none 24000000000 (by decide)),
  .call (secondDeposit "user" (some 1) 6000000000 (by decide)),
  .call (sampleCall 0 "user" (.increaseDebt 1 (some 1200000000) none none)),
  .call (sampleDeposit 0 "user" none 60000000000 (by decide)),
  .liquidation halfLiquidation,
  .call ⟨halfBid, atTime 7200, MessageInfo.oneCoin "user" ⟨"ucdt", 1300000000⟩ (by decide),
    .repay 1 none none⟩]

def emptyingWithdrawal : Call :=
  ⟨halfBid, atTime 7200, MessageInfo.noFunds "user",
    .withdraw 1 [⟨.nativeToken "uatom", 13680000000⟩, ⟨.nativeToken "uosmo", 0⟩] none⟩

/-- A withdrawal removes a second position of the user with all that it holds. -/
theorem withdraw_not_safe :
    ¬ ∀ ts call positionId assets s s' response owner, (∀ t ∈ ts, ∀ s, FromOutside s t) →
      call.msg = .withdraw positionId assets none → owner = call.info.sender →
      lastStep ts (.call call) = some (s, s') →
      call.steps s s' response → WithdrawSafe s s' call owner positionId response := by
  intro claim
  have hpositions : (lastStep repaidAfterLiquidation (.call emptyingWithdrawal)).map (fun run =>
      (storedAmount run.1.positions "user" 2 (.nativeToken "uatom"),
        (positionAt run.2.positions "user" 2).isNone)) = some (60000000000, true) := by
    decide +kernel
  obtain ⟨⟨s, s'⟩, hrun, hpositions⟩ := Option.map_eq_some_iff.mp hpositions
  obtain ⟨hbefore, hafter⟩ := Prod.mk.inj hpositions
  obtain ⟨created, -, -, response, hstep⟩ := lastStep_spec hrun
  have hsafe := claim _ _ _ _ s s' response "user" (fun t ht s => ?_) rfl rfl hrun hstep
  · have hgone := Option.isNone_iff_eq_none.mp hafter
    rw [hsafe.others "user" 2 (.inr (by decide))] at hgone
    rw [storedAmount_of_none hgone] at hbefore
    cases hbefore
  · simp only [repaidAfterLiquidation, List.mem_cons, List.not_mem_nil, or_false] at ht
    rcases ht with rfl | rfl | rfl | rfl | rfl | rfl | rfl | rfl | rfl
    all_goals trivial

end Membrane.Cdp
