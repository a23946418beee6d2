import Membrane.Cdp.Proofs.Accounting

/-!
# The collateral that a liquidation takes

The fees are sent whatever happens, but the position is written only when its owner
covers the repayment, or the queue or the pool is asked. A reply in which the queue
repaid nothing sends it collateral that the position keeps.
-/

namespace Membrane.Cdp

open Outcome

/-! ## Amounts of coins -/

theorem coinsOf_eq_zero {info : AssetInfo} {coins : List Coin}
    (none : ∀ coin ∈ coins, coin.amount = 0) : coinsOf info coins = 0 := by
  refine List.sum_eq_zero fun amount hmem => ?_
  obtain ⟨asset, hasset, rfl⟩ := List.mem_map.mp hmem
  obtain ⟨coin, hcoin, rfl⟩ := List.mem_map.mp hasset
  simp [none coin hcoin]

theorem coinsOf_eq_zero_iff {coins : List Coin} :
    (∀ info, coinsOf info coins = 0) ↔ ∀ coin ∈ coins, coin.amount = 0 := by
  refine ⟨fun hzero coin hmem => ?_, fun hzero info => coinsOf_eq_zero hzero⟩
  have hown := hzero (.nativeToken coin.denom)
  obtain ⟨before, after, rfl⟩ := List.append_of_mem hmem
  rw [coinsOf_append, ← List.singleton_append, coinsOf_append, coinsOf_singleton,
    if_pos rfl] at hown
  omega

theorem amountOf_eq_zero {info : AssetInfo} {held : List Asset} (empty : nothingLeft held = true) :
    amountOf info held = 0 := by
  refine List.sum_eq_zero fun amount hmem => ?_
  obtain ⟨asset, hasset, rfl⟩ := List.mem_map.mp hmem
  have hzero : asset.amount = 0 := by simpa using List.all_eq_true.mp empty asset hasset
  simp [hzero]

/-! ## What the queue takes -/

def RepaysForCollateral (queue : List QueueAnswer) : Prop :=
  ∀ answer ∈ queue, answer.event.repayAmount = 0 → answer.event.collateralAmount = 0

def queueUntaken (queue : List QueueAnswer) : List Coin :=
  (queue.filter fun answer => answer.event.repayAmount = 0).map (·.event.coin)

theorem queueSent_eq (info : AssetInfo) (queue : List QueueAnswer) :
    coinsOf info (queueSent queue) =
      coinsOf info (queueTaken queue) + coinsOf info (queueUntaken queue) := by
  induction queue with
  | nil => rfl
  | cons answer rest ih =>
    have hsent : queueSent (answer :: rest) = [answer.event.coin] ++ queueSent rest := rfl
    have htaken : queueTaken (answer :: rest) = answer.event.taken ++ queueTaken rest := rfl
    rw [hsent, htaken, coinsOf_append, coinsOf_append, ih]
    by_cases hnothing : answer.event.repayAmount = 0
    · have huntaken : queueUntaken (answer :: rest) = [answer.event.coin] ++ queueUntaken rest := by
        simp [queueUntaken, hnothing]
      rw [huntaken, coinsOf_append, LiqQueueEvent.taken, if_neg (not_not.mpr hnothing), coinsOf_nil]
      omega
    · have huntaken : queueUntaken (answer :: rest) = queueUntaken rest := by
        simp [queueUntaken, hnothing]
      rw [huntaken, LiqQueueEvent.taken, if_pos hnothing]
      omega

theorem queueSent_eq_taken_iff {queue : List QueueAnswer} :
    (∀ info, coinsOf info (queueSent queue) = coinsOf info (queueTaken queue)) ↔
      RepaysForCollateral queue := by
  have hcoins : (∀ info, coinsOf info (queueSent queue) = coinsOf info (queueTaken queue)) ↔
      ∀ info, coinsOf info (queueUntaken queue) = 0 := by
    refine forall_congr' fun info => ?_
    rw [queueSent_eq]
    omega
  rw [hcoins, coinsOf_eq_zero_iff]
  constructor
  · intro hzero answer hmem hnothing
    refine hzero answer.event.coin (List.mem_map_of_mem ?_)
    exact List.mem_filter.mpr ⟨hmem, by simpa using hnothing⟩
  · intro hfair coin hmem
    obtain ⟨answer, hanswer, rfl⟩ := List.mem_map.mp hmem
    obtain ⟨hmem, hnothing⟩ := List.mem_filter.mp hanswer
    exact hfair answer hmem (by simpa using hnothing)

/-! ## The fees -/

def FeesVanish (deps : Deps) (env : Env) (s : State) (position : Position) : Prop :=
  ∀ terms, feeTerms deps env s position = .ok terms →
    ∀ index ∈ collateralIndices position, terms.feesAt index = (0, 0)

theorem FeeCoins.vanish_iff {terms : FeeTerms} {indices : List Nat} {caller protocol : List Coin}
    (coins : FeeCoins terms indices caller protocol) :
    (∀ info, coinsOf info caller + coinsOf info protocol = 0) ↔
      ∀ index ∈ indices, terms.feesAt index = (0, 0) := by
  have hamounts : ∀ {coins : List Coin} {fee : Nat → Nat}, coins.map (·.amount) = indices.map fee →
      ((∀ coin ∈ coins, coin.amount = 0) ↔ ∀ index ∈ indices, fee index = 0) := by
    intro coins fee hsame
    rw [← List.forall_mem_map (f := fun coin : Coin => coin.amount) (P := fun amount => amount = 0),
      hsame, List.forall_mem_map]
  have hboth : (∀ info, coinsOf info caller + coinsOf info protocol = 0) ↔
      (∀ info, coinsOf info caller = 0) ∧ ∀ info, coinsOf info protocol = 0 := by
    rw [← forall_and]
    exact forall_congr' fun info => Nat.add_eq_zero_iff
  rw [hboth, coinsOf_eq_zero_iff, coinsOf_eq_zero_iff, hamounts coins.caller,
    hamounts coins.protocol, ← forall₂_and]
  refine forall₂_congr fun index _ => ?_
  rw [Prod.ext_iff]

/-! ## The collateral stored for a position -/

/-- The amount of an asset stored for a position, none when it is gone. -/
def storedAmount (store : Store) (owner : Addr) (id : Nat) (info : AssetInfo) : Nat :=
  (positionAt store owner id).elim 0 fun position => amountOf info position.held

theorem storedAmount_of_some {store : Store} {owner : Addr} {id : Nat} {position : Position}
    (found : positionAt store owner id = some position) (info : AssetInfo) :
    storedAmount store owner id info = amountOf info position.held := by
  rw [storedAmount, found]
  rfl

theorem storedAmount_of_none {store : Store} {owner : Addr} {id : Nat}
    (gone : positionAt store owner id = none) (info : AssetInfo) :
    storedAmount store owner id info = 0 := by
  rw [storedAmount, gone]
  rfl

theorem OwnerStage.collateral {covers : Prop} {s s' : State} {owner : Addr}
    {positionId due : Nat} {payment : Option Payment} {stored : Position}
    (stage : OwnerStage covers s s' owner positionId due payment) (sound : s.Sound)
    (before : positionAt s.positions owner positionId = some stored) :
    (∃ stored', positionAt s'.positions owner positionId = some stored' ∧
        stored'.held = stored.held) ∨
      positionAt s'.positions owner positionId = none ∧ nothingLeft stored.held = true := by
  cases stage with
  | idle same =>
    subst same
    exact .inl ⟨stored, before, rfl⟩
  | repaid payment i target bound found write =>
    obtain rfl : target = stored :=
      Option.some.inj ((positionAt_of_target sound found).symm.trans before)
    obtain ⟨-, -, -, hid⟩ := getTargetPosition_spec found
    cases write.write with
    | replaced _ replaced =>
      have hafter := replaced.new_at sound
      rw [hid] at hafter
      exact .inl ⟨_, hafter, rfl⟩
    | removed empty removed =>
      have hafter := removed.gone_at sound
      rw [hid] at hafter
      rw [checkForEmptyPosition_eq] at empty
      exact .inr ⟨hafter, empty⟩

/-- What a liquidation takes off the collateral of `position`: nothing, or the fees and
    what is sent to those who repay. -/
inductive CollateralSettled (l : Liquidation) (s : State) (p : Progress) (position : Position)
    (msgs : LiquidationMsgs) : Prop
  | kept (uncovered : ¬ OwnerCovers l.deps l.env s position l.positionOwner)
      (queue : l.answers.queue = []) (pool : l.answers.liqRepay = none) (sent : p.sent = [])
      (stored : ∀ info, storedAmount p.state.positions l.positionOwner l.positionId info =
        amountOf info position.held)
  | taken (used : OwnerCovers l.deps l.env s position l.positionOwner ∨ l.answers.queue ≠ [] ∨
        l.answers.liqRepay ≠ none) (distributed : List Coin)
      (sent : p.sent = queueSent l.answers.queue ++ distributed)
      (stored : ∀ info, storedAmount p.state.positions l.positionOwner l.positionId info +
        (coinsOf info msgs.callerCoins + coinsOf info msgs.protocolCoins) +
        coinsOf info (queueTaken l.answers.queue ++ distributed) = amountOf info position.held)

theorem Repayments.collateral {l : Liquidation} {s s₀ s₁ : State} {p : Progress}
    {position : Position} {due : Nat} {msgs : LiquidationMsgs} {prop : LiquidationPropagation}
    (run : Repayments l s p position due msgs prop s₀ s₁) (sound : s.Sound) :
    CollateralSettled l s p position msgs := by
  obtain ⟨response, liquidated⟩ := run.liquidated
  obtain ⟨i, htarget⟩ := liquidated.target
  obtain ⟨-, -, -, hid⟩ := getTargetPosition_spec htarget
  have howner : prop.positionOwner = l.positionOwner :=
    (Deps.addrValidate_eq_ok.mp liquidated.owner).2.symm
  have hbefore := positionAt_of_target sound htarget
  have sound₀ := liquidated.write.sound sound
  have sound₁ := run.owner.sound sound₀
  cases liquidated.write with
  | deferred uncovered hsame _ =>
    have hstored : positionAt s₀.positions l.positionOwner l.positionId = some position := by
      rw [hsame, ← howner]
      exact hbefore
    have hafter := run.owner.collateral sound₀ hstored
    cases run.rest with
    | unwritten noQueue noPool same sent _ =>
      refine .kept uncovered noQueue noPool sent fun info => ?_
      rw [same]
      rcases hafter with ⟨stored, hfound, hheld⟩ | ⟨hgone, hempty⟩
      · rw [storedAmount_of_some hfound, hheld]
      · rw [storedAmount_of_none hgone, amountOf_eq_zero hempty]
    | written target forgiven distributed write =>
      refine .taken (.inr write.used) distributed write.sent fun info => ?_
      have hsaved := write.saved
      rw [howner] at hsaved
      have hlast := hsaved.after sound₁
      rw [show target.positionId = l.positionId from
        write.positionId.trans (liquidated.positionId.trans hid)] at hlast
      have hfees := liquidated.fees info
      have htaken := write.collateral info
      rcases hafter with ⟨stored, hfound, -⟩ | ⟨hgone, hempty⟩
      · rw [hfound, Option.map_some] at hlast
        rw [storedAmount_of_some hlast]
        omega
      · -- the position held nothing, so nothing was taken off it
        rw [hgone, Option.map_none] at hlast
        rw [storedAmount_of_none hlast]
        have hzero : amountOf info _ = 0 := amountOf_eq_zero hempty
        omega
  | settled covers write _ _ =>
    have hstored := write.new_at sound
    rw [hid, howner] at hstored
    obtain ⟨-, hasks, hpool⟩ := liquidated.covered covers
    have hqueue : l.answers.queue = [] := by
      rw [← List.length_eq_zero_iff, run.asked, hasks, List.length_nil]
    cases run.rest with
    | written _ _ _ write =>
      rcases write.used with h | h
      · exact absurd hqueue h
      · exact absurd (run.unasked hpool) h
    | unwritten _ _ same sent _ =>
      refine .taken (.inl covers) [] (by rw [sent, hqueue]; rfl) fun info => ?_
      have hfees := liquidated.fees info
      rw [same, hqueue]
      rcases run.owner.collateral sound₀ hstored with ⟨stored, hfound, hheld⟩ | ⟨hgone, hempty⟩
      · rw [storedAmount_of_some hfound, hheld]
        exact hfees
      · rw [storedAmount_of_none hgone]
        rw [amountOf_eq_zero hempty] at hfees
        exact hfees

theorem ClosingStage.collateral {s s' : State} {owner : Addr} {positionId : Nat}
    (stage : ClosingStage s s' owner positionId) (sound : s.Sound) (info : AssetInfo) :
    storedAmount s'.positions owner positionId info =
      storedAmount s.positions owner positionId info := by
  cases stage with
  | nothing same => rw [same]
  | writtenOff i position covered found write =>
    obtain ⟨-, -, -, hid⟩ := getTargetPosition_spec found
    have hbefore := write.write.old_at sound
    have hafter := write.write.new_at sound
    rw [hid] at hbefore hafter
    rw [storedAmount_of_some hbefore, storedAmount_of_some hafter]
    rfl

/-! ## When what is sent was the position's -/

/-- Of every asset, what leaves the contract is what the stored position has less. -/
def CollateralConserved (l : Liquidation) (s : State) (p : Progress) : Prop :=
  ∀ info, storedAmount p.state.positions l.positionOwner l.positionId info + coinsOf info p.sent =
    storedAmount s.positions l.positionOwner l.positionId info

/-- The queue repays for all the collateral it takes, and somebody writes the position:
    its owner covers the repayment, or the queue or the pool is asked. Otherwise the
    fees round to nothing. -/
def CollateralWritten (l : Liquidation) (s : State) : Prop :=
  ∀ i position, getTargetPosition s l.positionOwner l.positionId = .ok (i, position) →
    RepaysForCollateral l.answers.queue ∧
      (OwnerCovers l.deps l.env s position l.positionOwner ∨ l.answers.queue ≠ [] ∨
        l.answers.liqRepay ≠ none ∨ FeesVanish l.deps l.env s position)

/-- A liquidation sends what it takes off the position exactly when the queue repays for
    all that it takes, and somebody writes the position or there are no fees. -/
theorem collateral_conserved_iff {deps : Deps} {env : Env} {info : MessageInfo}
    {msg : InstantiateMsg} {created s : State} {response : Response OutMsg}
    (instantiated : instantiate deps env info msg = .ok (created, response))
    (run : RunWhere transactionStep FromOutside created s) {l : Liquidation} {p : Progress}
    (done : l.exec s = some p) : CollateralConserved l s p ↔ CollateralWritten l s := by
  have sound : s.Sound := runs_sound instantiated (fun _ _ houtside => houtside) run
  obtain ⟨mid, position, due, msgs, prop, s₀, s₁, hrun, hclosing, hsent, -⟩ := exec_spec sound done
  have hsettled := hrun.collateral sound
  have sound' := hrun.sound sound
  obtain ⟨_, liquidated⟩ := hrun.liquidated
  obtain ⟨i, htarget⟩ := liquidated.target
  obtain ⟨terms, hterms, hfees⟩ := liquidated.feeCoins
  have howner : prop.positionOwner = l.positionOwner :=
    (Deps.addrValidate_eq_ok.mp liquidated.owner).2.symm
  rw [howner] at htarget hclosing
  have hbefore := storedAmount_of_some (positionAt_of_target sound htarget)
  have hafter := hclosing.collateral sound'
  have hwhen : ∀ {P : Position → Prop}, P position ↔ ∀ j target,
      getTargetPosition s l.positionOwner l.positionId = .ok (j, target) → P target := by
    intro P
    refine ⟨fun hp j target hfound => ?_, fun h => h i position htarget⟩
    obtain ⟨-, rfl⟩ := Prod.mk.inj (Except.ok.inj (htarget.symm.trans hfound))
    exact hp
  have hvanish : (∀ info, coinsOf info msgs.callerCoins + coinsOf info msgs.protocolCoins = 0) ↔
      FeesVanish l.deps l.env s position := by
    refine hfees.vanish_iff.trans ⟨fun hzero terms' hterms' => ?_, fun h => h terms hterms⟩
    obtain rfl := Except.ok.inj (hterms.symm.trans hterms')
    exact hzero
  unfold CollateralWritten
  rw [← hwhen (P := fun target => RepaysForCollateral l.answers.queue ∧
    (OwnerCovers l.deps l.env s target l.positionOwner ∨ l.answers.queue ≠ [] ∨
      l.answers.liqRepay ≠ none ∨ FeesVanish l.deps l.env s target))]
  cases hsettled with
  | kept uncovered queue pool sent stored =>
    have hconserved : CollateralConserved l s p ↔
        ∀ info, coinsOf info msgs.callerCoins + coinsOf info msgs.protocolCoins = 0 := by
      refine forall_congr' fun info => ?_
      rw [hafter, stored, hbefore, hsent, sent, List.nil_append, coinsOf_append]
      omega
    rw [hconserved, hvanish, queue]
    constructor
    · exact fun h => ⟨by simp [RepaysForCollateral], .inr (.inr (.inr h))⟩
    · rintro ⟨-, h | h | h | h⟩
      · exact absurd h uncovered
      · exact absurd rfl h
      · exact absurd pool h
      · exact h
  | taken used distributed sent stored =>
    have hconserved : CollateralConserved l s p ↔
        ∀ info, coinsOf info (queueSent l.answers.queue) =
          coinsOf info (queueTaken l.answers.queue) := by
      refine forall_congr' fun info => ?_
      have hstored := stored info
      rw [coinsOf_append] at hstored
      rw [hafter, hbefore, hsent, sent, coinsOf_append, coinsOf_append, coinsOf_append]
      omega
    rw [hconserved, queueSent_eq_taken_iff]
    constructor
    · exact fun h => ⟨h, used.imp_right fun h' => h'.imp_right .inl⟩
    · exact fun h => h.1

/-! ## On a sample chain -/

def sampleExec (calls : List Call) (l : Liquidation) : Option (State × Progress) :=
  (afterGenesis 0 calls).bind fun s => (l.exec s).map fun p => (s, p)

theorem sampleExec_spec {calls : List Call} {l : Liquidation} {s : State} {p : Progress}
    (done : sampleExec calls l = some (s, p)) :
    afterGenesis 0 calls = some s ∧ l.exec s = some p := by
  obtain ⟨s', hs, hmap⟩ := Option.bind_eq_some_iff.mp done
  obtain ⟨p', hexec, heq⟩ := Option.map_eq_some_iff.mp hmap
  obtain ⟨rfl, rfl⟩ := Prod.mk.inj heq
  exact ⟨hs, hexec⟩

theorem collateral_conserved_iff_queue :
    ∃ s p, sampleExec borrowing (queueLiquidation 100000000) = some (s, p) ∧
      (CollateralConserved (queueLiquidation 100000000) s p ↔
        CollateralWritten (queueLiquidation 100000000) s) := by
  have hsome : (sampleExec borrowing (queueLiquidation 100000000)).isSome = true := by
    decide +kernel
  obtain ⟨⟨s, p⟩, hrun⟩ := Option.isSome_iff_exists.mp hsome
  obtain ⟨hs, hexec⟩ := sampleExec_spec hrun
  obtain ⟨created, response, hcreated, houtside⟩ := afterGenesis_run borrowing_outside hs
  exact ⟨s, p, hrun, collateral_conserved_iff hcreated houtside hexec⟩

def idleLiquidation : Liquidation :=
  let deps : Deps := { crashed with checkLiquidatible := atPar.checkLiquidatible }
  { queueLiquidation 0 with deps := deps, answers := ⟨none, [], none, true⟩ }

/-- Nobody is there to repay: the fees are sent, and the position keeps its collateral. -/
theorem collateral_not_conserved :
    ¬ ∀ calls l s p, (∀ call ∈ calls, ∀ s, FromOutside s (.call call)) →
      sampleExec calls l = some (s, p) → CollateralConserved l s p := by
  intro claim
  have hamounts : (sampleExec borrowing idleLiquidation).map (fun run =>
      (storedAmount run.1.positions "user" 1 (.nativeToken "uatom"),
        storedAmount run.2.state.positions "user" 1 (.nativeToken "uatom"),
        coinsOf (.nativeToken "uatom") run.2.sent)) =
          some (10000000000, 10000000000, 127777777) := by decide +kernel
  obtain ⟨⟨s, p⟩, hrun, hamounts⟩ := Option.map_eq_some_iff.mp hamounts
  simp only [Prod.mk.injEq] at hamounts
  obtain ⟨hbefore, hafter, hsent⟩ := hamounts
  have hclaim := claim borrowing _ s p borrowing_outside hrun (.nativeToken "uatom")
  have howner : idleLiquidation.positionOwner = "user" := rfl
  have hid : idleLiquidation.positionId = 1 := rfl
  rw [howner, hid] at hclaim
  omega

end Membrane.Cdp
