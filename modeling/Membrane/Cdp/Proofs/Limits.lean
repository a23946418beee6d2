import Membrane.Cdp.Proofs.Uniform

/-!
# The order of a collateral type's limits

A loan is to stop below the value at which it is liquidated, and that value is to be at
most the collateral's. The message that creates the basket is not held to either, an
added type is not held to the second, and an edit of the liquidation limit alone is not
held to the first. Everything else keeps the order.
-/

namespace Membrane.Cdp

open Outcome

/-- Borrowing stops below liquidation, which starts at 100% at the latest. -/
structure CAsset.Ordered (cAsset : CAsset) : Prop where
  below : cAsset.maxBorrowLTV < cAsset.maxLTV
  most : cAsset.maxLTV ≤ Decimal.percent 100

/-- The limits of every type are in order. -/
def Ordered (types : List CAsset) : Prop := ∀ cAsset ∈ types, CAsset.Ordered cAsset

/-- An edit whose limits are in order where the contract does not see to it: those of
    an added type, and the borrow limit that an edit of the other limit leaves. -/
def OrdersLimits (s : State) (t : Transaction) : Prop :=
  match t with
  | .call call =>
    match call.msg with
    | .editBasket edit =>
      ∀ added, edit.addedCAsset = some added → added.maxLTV ≤ Decimal.percent 100
    | .editCAsset asset none (some ltv) =>
      ∀ limits, limitsOf s.basket asset = some limits → limits.1 < ltv
    | _ => True
  | .liquidation _ => True

/-! ## Types -/

theorem CAsset.Ordered.of_limits {cAsset cAsset' : CAsset} (ordered : CAsset.Ordered cAsset)
    (borrow : cAsset'.maxBorrowLTV = cAsset.maxBorrowLTV) (max : cAsset'.maxLTV = cAsset.maxLTV) :
    CAsset.Ordered cAsset' := by
  constructor
  · rw [borrow, max]
    exact ordered.below
  · rw [max]
    exact ordered.most

theorem Ordered.of_terms {types types' : List CAsset} (ordered : Ordered types)
    (same : types'.map terms = types.map terms) : Ordered types' := by
  intro cAsset' hmem'
  have hterms : terms cAsset' ∈ types.map terms := same ▸ List.mem_map_of_mem hmem'
  obtain ⟨cAsset, hmem, heq⟩ := List.mem_map.mp hterms
  simp only [terms, Prod.mk.injEq] at heq
  exact (ordered cAsset hmem).of_limits heq.2.1.symm heq.2.2.symm

theorem ordered_append_iff {types : List CAsset} {last : CAsset} (ordered : Ordered types) :
    Ordered (types ++ [last]) ↔ CAsset.Ordered last := by
  constructor
  · intro hall
    exact hall last (by simp)
  · intro hlast cAsset hmem
    rcases List.mem_append.mp hmem with hold | hnew
    · exact ordered cAsset hold
    · rw [List.mem_singleton.mp hnew]
      exact hlast

theorem lasting_ordered :
    Lasting (fun basket => Ordered basket.collateralTypes) (fun _ => True) where
  basket same h := h.of_terms same.types
  entry _ _ := trivial
  deposited _ _ := trivial

/-! ## Edits -/

section

variable {deps : Deps} {env : Env} {info : MessageInfo} {s s' : State} {response : Response OutMsg}

theorem editLimits_checked {cAsset cAsset' : CAsset} {maxBorrowLTV maxLTV : Option Decimal}
    (done : editLimits cAsset maxBorrowLTV maxLTV = .ok cAsset') :
    (∀ ltv, maxLTV = some ltv → ltv ≤ Decimal.percent 100) ∧
      ∀ ltv, maxBorrowLTV = some ltv → ltv < cAsset'.maxLTV := by
  simp only [editLimits, bind_eq_ok] at done
  obtain ⟨mid, hmid, hrest⟩ := done
  constructor
  · intro ltv hltv
    subst hltv
    simp only [bind_eq_ok, guardErr_eq_ok] at hmid
    obtain ⟨_, hrange, -⟩ := hmid
    exact Nat.le_of_not_lt fun h => hrange (.inl h)
  · intro ltv hltv
    subst hltv
    simp only [bind_eq_ok, guardErr_eq_ok, pure_eq_ok] at hrest
    obtain ⟨_, hbelow, rfl⟩ := hrest
    exact (Decidable.of_not_not hbelow).2

theorem addCollateral_below {config : Config} {basket : Basket} {added newCAsset : CAsset}
    {newQueue : Option Addr} {msgs : List (CosmosMsg OutMsg)}
    (done : addCollateral deps config basket added newQueue = .ok (newCAsset, msgs)) :
    newCAsset.maxBorrowLTV < newCAsset.maxLTV := by
  simp only [addCollateral, bind_eq_ok, guardErr_eq_ok] at done
  obtain ⟨_, -, _, -, _, -, _, -, _, -, _, hlimits, heq⟩ := done
  obtain ⟨rfl, -⟩ := Prod.mk.inj (pure_eq_ok.mp heq)
  exact Nat.lt_of_not_le fun h => hlimits (.inl h)

theorem editBasket_ordered_iff {edit : EditBasket} (ordered : Ordered s.basket.collateralTypes)
    (done : editBasket deps env info edit s = .ok (s', response)) :
    Ordered s'.basket.collateralTypes ↔
      ∀ added, edit.addedCAsset = some added → added.maxLTV ≤ Decimal.percent 100 := by
  obtain ⟨-, -, ⟨hnone, same⟩ | ⟨added, new, _, _, hsome, hadd, htypes, -⟩⟩ := editBasket_spec done
  · constructor
    · intro _ added hadded
      rw [hnone] at hadded
      cases hadded
    · intro _
      exact ordered.of_terms same.types
  · obtain ⟨-, hborrow, hmax⟩ := addCollateral_spec hadd
    rw [htypes, ordered_append_iff ordered]
    constructor
    · intro hnew other hother
      obtain rfl : added = other := Option.some.inj (hsome.symm.trans hother)
      rw [← hmax]
      exact hnew.most
    · intro hmost
      refine ⟨addCollateral_below hadd, ?_⟩
      rw [hmax]
      exact hmost added hsome

theorem editCAsset_ordered_iff {asset : AssetInfo} {maxBorrowLTV maxLTV : Option Decimal}
    (ordered : Ordered s.basket.collateralTypes)
    (done : editCAsset info asset maxBorrowLTV maxLTV s = .ok (s', response)) :
    Ordered s'.basket.collateralTypes ↔ ∀ ltv limits, maxBorrowLTV = none → maxLTV = some ltv →
      limitsOf s.basket asset = some limits → limits.1 < ltv := by
  obtain ⟨found, edited, hfound, hedit, rfl⟩ := editCAsset_spec done
  obtain ⟨hborrow, hmax⟩ := editLimits_limits hedit
  obtain ⟨hmost, hbelow⟩ := editLimits_checked hedit
  have hold : CAsset.Ordered found := ordered found (List.mem_of_find?_eq_some hfound)
  have hlimits : limitsOf s.basket asset = some (found.maxBorrowLTV, found.maxLTV) := by
    rw [limitsOf, hfound, Option.map_some]
  have hkept : Ordered (s.basket.collateralTypes.filter fun cAsset =>
      !cAsset.asset.info.equal edited.asset.info) :=
    fun cAsset hmem => ordered cAsset (List.mem_filter.mp hmem).1
  show Ordered (_ ++ [edited]) ↔ _
  rw [ordered_append_iff hkept]
  constructor
  · intro hedited ltv limits hnone hsome hsame
    obtain rfl := Option.some.inj (hlimits.symm.trans hsame)
    subst hnone hsome
    rw [Option.getD_none] at hborrow
    rw [Option.getD_some] at hmax
    rw [← hborrow, ← hmax]
    exact hedited.below
  · intro hleft
    constructor
    · cases maxBorrowLTV with
      | some ltv =>
        rw [hborrow, Option.getD_some]
        exact hbelow ltv rfl
      | none =>
        rw [hborrow, hmax, Option.getD_none]
        cases maxLTV with
        | none => exact hold.below
        | some ltv => exact hleft ltv _ rfl rfl hlimits
    · rw [hmax]
      cases maxLTV with
      | none => exact hold.most
      | some ltv => exact hmost ltv rfl

end

/-! ## Runs -/

def OrderKept (s : State) : Prop :=
  Holds (fun basket => Ordered basket.collateralTypes) (fun _ => True) s ∧
    Pending (fun basket => Ordered basket.collateralTypes) (fun _ => True) s

theorem OrderKept.of_types {s s' : State} (kept : OrderKept s)
    (ordered : Ordered s'.basket.collateralTypes) (same : s'.liquidation = s.liquidation) :
    OrderKept s' := by
  refine ⟨⟨ordered, fun _ _ _ _ _ _ _ => trivial⟩, fun prop hprop => ?_⟩
  exact kept.2 prop (same.symm.trans hprop)

theorem step_ordered_iff {s s' : State} {t : Transaction} (kept : OrderKept s)
    (step : transactionStep s t s') :
    (Ordered s'.basket.collateralTypes ↔ OrdersLimits s t) ∧
      (Ordered s'.basket.collateralTypes → OrderKept s') := by
  cases t with
  | liquidation l =>
    obtain ⟨p, hexec, rfl⟩ := step
    have hboth : OrderKept p.state :=
      Liquidation.exec_keeps OrderKept
        (fun _ _ hliquidate => liquidate_holds lasting_ordered kept.1 hliquidate)
        (fun _ _ _ hinv hstep => carryOut_holds lasting_ordered hinv hstep) hexec
    exact ⟨⟨fun _ => trivial, fun _ => hboth.1.basket⟩, fun _ => hboth⟩
  | call call =>
    obtain ⟨response, hcall⟩ := step
    obtain ⟨deps, env, info, msg⟩ := call
    unfold Call.steps at hcall
    have huser : (∀ edit, msg ≠ .editBasket edit) →
        (∀ asset maxBorrowLTV maxLTV, msg ≠ .editCAsset asset maxBorrowLTV maxLTV) →
        OrderKept s' := by
      intro hbasket hcAsset
      obtain ⟨hholds, hpending⟩ :=
        execute_holds lasting_ordered kept.1 (fun _ => kept.2) hbasket hcAsset hcall
      exact ⟨hholds, hpending kept.2⟩
    cases msg with
    | editBasket edit =>
      refine ⟨editBasket_ordered_iff kept.1.basket hcall, fun hordered => ?_⟩
      exact kept.of_types hordered (editBasket_spec hcall).2.1
    | editCAsset asset maxBorrowLTV maxLTV =>
      have hiff := editCAsset_ordered_iff kept.1.basket hcall
      have hsame : s'.liquidation = s.liquidation := by
        obtain ⟨_, _, -, -, rfl⟩ := editCAsset_spec hcall
        rfl
      refine ⟨hiff.trans ?_, fun hordered => kept.of_types hordered hsame⟩
      cases maxBorrowLTV with
      | some _ => simp [OrdersLimits]
      | none =>
        cases maxLTV with
        | none => simp [OrdersLimits]
        | some ltv =>
          constructor
          · intro hall limits
            exact hall ltv limits rfl rfl
          · intro hall other limits _ hother
            rw [← Option.some.inj hother]
            exact hall limits
    | _ =>
      have hkept := huser (by simp) (by simp)
      exact ⟨⟨fun _ => trivial, fun _ => hkept.1.basket⟩, fun _ => hkept⟩

theorem instantiate_types {deps : Deps} {env : Env} {info : MessageInfo} {msg : InstantiateMsg}
    {created : State} {response : Response OutMsg}
    (instantiated : instantiate deps env info msg = .ok (created, response)) :
    created.basket.collateralTypes.map terms = msg.createBasket.collateralTypes.map terms ∧
      created.liquidation = none := by
  simp only [instantiate, bind_eq_ok, liftStd_eq_ok, pure_eq_ok, Prod.mk.injEq] at instantiated
  obtain ⟨_, -, _, -, _, -, _, -, _, -, _, -, _, -, _, -, ⟨basket, _⟩, hbasket, rfl, -⟩ :=
    instantiated
  refine ⟨?_, rfl⟩
  simp only [createBasket, bind_eq_ok] at hbasket
  obtain ⟨_, -, _, -, _, -, hbasket⟩ := hbasket
  split at hbasket
  · cases hbasket
  · obtain ⟨rfl, -⟩ := Prod.mk.inj (pure_eq_ok.mp hbasket)
    simp [terms, Function.comp_def]

/-- A new basket's limits are in order exactly when those of its message are. In every
    state that a run of such edits reaches from there they are in order; and the next
    transaction leaves them so exactly when its own are. -/
theorem limits_ordered {deps : Deps} {env : Env} {info : MessageInfo} {msg : InstantiateMsg}
    {created : State} {response : Response OutMsg}
    (instantiated : instantiate deps env info msg = .ok (created, response)) :
    (Ordered created.basket.collateralTypes ↔ Ordered msg.createBasket.collateralTypes) ∧
      ∀ s, Ordered msg.createBasket.collateralTypes →
        RunWhere transactionStep OrdersLimits created s →
        Ordered s.basket.collateralTypes ∧ ∀ t s', transactionStep s t s' →
          (Ordered s'.basket.collateralTypes ↔ OrdersLimits s t) := by
  obtain ⟨hsame, hnone⟩ := instantiate_types instantiated
  refine ⟨⟨fun h => h.of_terms hsame.symm, fun h => h.of_terms hsame⟩, ?_⟩
  intro s given run
  have hstart : OrderKept created := by
    refine ⟨⟨given.of_terms hsame, fun _ _ _ _ _ _ _ => trivial⟩, fun prop hprop => ?_⟩
    rw [hnone] at hprop
    cases hprop
  have hkeeps : ∀ s t s', OrderKept s → OrdersLimits s t → transactionStep s t s' →
      OrderKept s' := by
    intro s t s' hkept hallowed hstep
    obtain ⟨hiff, hthen⟩ := step_ordered_iff hkept hstep
    exact hthen (hiff.mpr hallowed)
  have hkept := RunWhere.keeps hkeeps run hstart
  exact ⟨hkept.1.basket, fun _ _ hstep => (step_ordered_iff hkept hstep).1⟩

/-! ## On a sample chain -/

/-- Governance edits the liquidation limit of the sample's collateral alone. -/
def editMaxLTV (percent : Nat) : Call :=
  sampleCall 0 "gov" (.editCAsset (.nativeToken "uatom") none (some (Decimal.percent percent)))

theorem limits_ordered_edited :
    ∃ s, afterGenesis 0 [addSecond, editMaxLTV 55] = some s ∧
      s.basket.collateralTypes.map (fun cAsset => (cAsset.maxBorrowLTV, cAsset.maxLTV)) =
        [(Decimal.percent 40, Decimal.percent 50), (Decimal.percent 50, Decimal.percent 55)] ∧
      Ordered s.basket.collateralTypes := by
  have htypes : (afterGenesis 0 [addSecond, editMaxLTV 55]).map (fun s =>
      s.basket.collateralTypes.map fun cAsset => (cAsset.maxBorrowLTV, cAsset.maxLTV)) =
        some [(Decimal.percent 40, Decimal.percent 50),
          (Decimal.percent 50, Decimal.percent 55)] := by
    decide +kernel
  have hfirst : ((newContract 0).bind (Call.exec · addSecond)).map (fun s =>
      (limitsOf s.basket (.nativeToken "uatom")).map Prod.fst) =
        some (some (Decimal.percent 50)) := by
    decide +kernel
  obtain ⟨s, hs, htypes⟩ := Option.map_eq_some_iff.mp htypes
  obtain ⟨created, hnew, hrun⟩ := Option.bind_eq_some_iff.mp hs
  obtain ⟨response, hcreated⟩ := newContract_spec hnew
  obtain ⟨mid, hadd, hrest⟩ := Option.bind_eq_some_iff.mp hrun
  obtain ⟨last, hedit, hdone⟩ := Option.bind_eq_some_iff.mp hrest
  obtain rfl : last = s := Option.some.inj hdone
  rw [hnew, Option.bind_some, hadd, Option.map_some] at hfirst
  have hgiven : Ordered (genesis 0).createBasket.collateralTypes := by
    intro cAsset hmem
    rw [List.mem_singleton.mp hmem]
    exact ⟨by decide, by decide⟩
  have hadded : OrdersLimits created (.call addSecond) := by
    intro added hsome
    rw [← Option.some.inj hsome]
    decide
  have hedited : OrdersLimits mid (.call (editMaxLTV 55)) := by
    intro limits hlimits
    have hborrow : limits.1 = Decimal.percent 50 := by
      rw [hlimits, Option.map_some] at hfirst
      exact Option.some.inj (Option.some.inj hfirst)
    rw [hborrow]
    show Decimal.percent 50 < Decimal.percent 55
    decide
  have hcalls : RunWhere transactionStep OrdersLimits created last :=
    (RunWhere.snoc .refl _ hadded (Call.exec_step hadd)).snoc _ hedited (Call.exec_step hedit)
  exact ⟨last, hs, htypes, ((limits_ordered hcreated).2 last hgiven hcalls).1⟩

/-- The limits are not in order in every reachable state: governance lowers the
    liquidation limit of a type to below its borrow limit. -/
theorem limits_not_ordered :
    ¬ ∀ calls s, (∀ call ∈ calls, SetupCall call.msg) →
      afterGenesis 0 calls = some s → Ordered s.basket.collateralTypes := by
  intro claim
  have htypes : (afterGenesis 0 [editMaxLTV 10]).map (fun s =>
      s.basket.collateralTypes.map fun cAsset => (cAsset.maxBorrowLTV, cAsset.maxLTV)) =
        some [(Decimal.percent 50, Decimal.percent 10)] := by
    decide +kernel
  obtain ⟨s, hs, htypes⟩ := Option.map_eq_some_iff.mp htypes
  obtain ⟨cAsset, hassets, hlimits⟩ := List.map_eq_singleton_iff.mp htypes
  obtain ⟨hborrow, hmax⟩ := Prod.mk.inj hlimits
  have hordered := claim _ s ?_ hs
  · have hbelow := (hordered cAsset (by simp [hassets])).below
    rw [hborrow, hmax] at hbelow
    exact absurd hbelow (by decide)
  · intro call hcall
    rw [List.mem_singleton.mp hcall]
    trivial

end Membrane.Cdp
