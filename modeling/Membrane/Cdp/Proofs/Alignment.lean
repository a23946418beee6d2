import Membrane.Cdp.Proofs.Conservation
import Membrane.Cdp.Proofs.Terms

/-!
# Collateral types and supply caps are paired by index

Tallies, caps and rates look an asset up in one of the two lists and read the other
at the same index. The lists pair up in every state that a run reaches in which an
edit of a collateral type edits the last one, which is where the edited type is put
back, and no pool share is added a second time.
-/

namespace Membrane.Cdp

open Outcome

def typeInfos (basket : Basket) : List AssetInfo := basket.collateralTypes.map (·.asset.info)

def capInfos (basket : Basket) : List AssetInfo :=
  basket.collateralSupplyCaps.map SupplyCap.assetInfo

/-- Entry `i` of both lists is of one asset, and no asset is listed twice. -/
structure Aligned (basket : Basket) : Prop where
  length : basket.collateralTypes.length = basket.collateralSupplyCaps.length
  paired : ∀ (i : Nat) cAsset cap, basket.collateralTypes[i]? = some cAsset →
    basket.collateralSupplyCaps[i]? = some cap → cAsset.asset.info = cap.assetInfo
  distinct : (typeInfos basket).Nodup

theorem aligned_iff {basket : Basket} :
    Aligned basket ↔ typeInfos basket = capInfos basket ∧ (typeInfos basket).Nodup := by
  refine ⟨fun aligned => ⟨?_, aligned.distinct⟩, fun ⟨same, distinct⟩ => ⟨?_, ?_, distinct⟩⟩
  · refine List.ext_getElem? fun i => ?_
    rw [typeInfos, capInfos, List.getElem?_map, List.getElem?_map]
    by_cases hlt : i < basket.collateralTypes.length
    · have hlt' : i < basket.collateralSupplyCaps.length := aligned.length ▸ hlt
      have htype := List.getElem?_eq_getElem hlt
      have hcap := List.getElem?_eq_getElem hlt'
      rw [htype, hcap, Option.map_some, Option.map_some, aligned.paired i _ _ htype hcap]
    · have hle := Nat.le_of_not_lt hlt
      rw [List.getElem?_eq_none hle, List.getElem?_eq_none (aligned.length ▸ hle)]
      rfl
  · simpa [typeInfos, capInfos] using congrArg List.length same
  · intro i cAsset cap htype hcap
    have hentry := congrArg (fun infos : List AssetInfo => infos[i]?) same
    simpa [typeInfos, capInfos, htype, hcap] using hentry

theorem Aligned.type_of_cap {basket : Basket} {info : AssetInfo} {i : Nat} {cap : SupplyCap}
    (aligned : Aligned basket) (found : findCap basket.collateralSupplyCaps info = some (i, cap)) :
    ∃ cAsset, basket.collateralTypes[i]? = some cAsset ∧ cAsset.asset.info = info := by
  obtain ⟨hcap, hinfo⟩ := findCap_spec found
  have hlt : i < basket.collateralTypes.length :=
    aligned.length ▸ (List.getElem?_eq_some_iff.mp hcap).1
  have htype := List.getElem?_eq_getElem hlt
  exact ⟨_, htype, (aligned.paired i _ _ htype hcap).trans hinfo⟩

/-! ## Users -/

theorem typeInfos_eq_terms (basket : Basket) :
    typeInfos basket = (basket.collateralTypes.map terms).map Prod.fst := by
  rw [typeInfos, List.map_map]
  rfl

theorem Aligned.sameKinds {basket basket' : Basket} (aligned : Aligned basket)
    (same : SameKinds basket basket') : Aligned basket' := by
  have htypes : typeInfos basket' = typeInfos basket := by
    rw [typeInfos_eq_terms, typeInfos_eq_terms, same.types]
  obtain ⟨hsame, hdistinct⟩ := aligned_iff.mp aligned
  exact aligned_iff.mpr ⟨htypes.trans (hsame.trans same.caps.symm), htypes.symm ▸ hdistinct⟩

theorem lasting_aligned : Lasting Aligned fun _ => True where
  basket same aligned := aligned.sameKinds same
  entry _ _ := trivial
  deposited _ _ := trivial

/-! ## Governance -/

section

variable {deps : Deps} {env : Env} {info : MessageInfo} {s s' : State} {response : Response OutMsg}

theorem editCAsset_typeInfos {asset : AssetInfo} {maxBorrowLTV maxLTV : Option Decimal}
    (distinct : (typeInfos s.basket).Nodup)
    (last : ∀ cAsset, s.basket.collateralTypes.getLast? = some cAsset → cAsset.asset.info = asset)
    (done : editCAsset info asset maxBorrowLTV maxLTV s = .ok (s', response)) :
    typeInfos s'.basket = typeInfos s.basket := by
  obtain ⟨found, newAsset, hfound, hedit, rfl⟩ := editCAsset_spec done
  have hinfo : newAsset.asset.info = found.asset.info := by rw [editLimits_info hedit]
  have hasset : found.asset.info = asset := by
    have hequal := List.find?_some hfound
    exact AssetInfo.equal_iff.mp hequal
  have hmem := List.mem_of_find?_eq_some hfound
  obtain ⟨front, cAsset, htypes⟩ : ∃ front cAsset, s.basket.collateralTypes = front ++
    [cAsset] := by
    refine ⟨s.basket.collateralTypes.dropLast, _, (List.dropLast_append_getLast ?_).symm⟩
    exact List.ne_nil_of_mem hmem
  have hlast : cAsset.asset.info = asset := last cAsset (by rw [htypes]; simp)
  unfold typeInfos at distinct ⊢
  rw [htypes, List.map_append, List.nodup_append] at distinct
  -- no other type is of the edited asset, so only the last leaves its place
  have hfront : (front.filter fun cAsset => !cAsset.asset.info.equal newAsset.asset.info) =
      front := by
    refine List.filter_eq_self.mpr fun other hother => ?_
    have hne : other.asset.info ≠ newAsset.asset.info := by
      intro heq
      refine distinct.2.2 other.asset.info
        (List.mem_map_of_mem hother) cAsset.asset.info (by simp) ?_
      rw [heq, hinfo, hasset, hlast]
    rw [Bool.not_eq_true', Bool.eq_false_iff]
    exact mt AssetInfo.equal_iff.mp hne
  have hdropped : ([cAsset].filter fun cAsset =>
      !cAsset.asset.info.equal newAsset.asset.info) = [] := by
    have htrue : cAsset.asset.info.equal newAsset.asset.info = true :=
      AssetInfo.equal_iff.mpr (by rw [hinfo, hasset, hlast])
    simp [htrue]
  simp only [htypes, List.filter_append, hfront, hdropped, List.append_nil, List.map_append,
    List.map_cons, List.map_nil]
  rw [hinfo, hasset, hlast]

def SharesNew (deps : Deps) (s : State) (edit : EditBasket) : Prop :=
  ∀ added pool state, edit.addedCAsset = some added → added.poolInfo = some pool →
    deps.poolState (addrOr s.config.osmosisProxy) pool.poolId = .ok state →
    AssetInfo.nativeToken state.sharesDenom ∉ typeInfos s.basket

theorem editBasket_aligned {edit : EditBasket} (aligned : Aligned s.basket)
    (shares : SharesNew deps s edit)
    (done : editBasket deps env info edit s = .ok (s', response)) : Aligned s'.basket := by
  obtain ⟨-, -, ⟨-, same⟩ | ⟨added, new, _, _, hadded, hadd, htypes, hcaps⟩⟩ := editBasket_spec done
  · exact aligned.sameKinds same
  · obtain ⟨hsame, hdistinct⟩ := aligned_iff.mp aligned
    have hfresh : new.asset.info ∉ typeInfos s.basket := by
      obtain ⟨hnew | ⟨pool, state, hpool, hstate, hshare⟩, -⟩ := addCollateral_spec hadd
      · intro hmem
        obtain ⟨cAsset, hcAsset, heq⟩ := List.mem_map.mp hmem
        exact hnew cAsset hcAsset heq
      · rw [hshare]
        exact shares added pool state hadded hpool hstate
    have htypes' : typeInfos s'.basket = typeInfos s.basket ++ [new.asset.info] := by
      rw [typeInfos, htypes, List.map_append]
      rfl
    refine aligned_iff.mpr ⟨?_, ?_⟩
    · rw [htypes', hsame]
      exact hcaps.symm
    · rw [htypes', List.nodup_append]
      refine ⟨hdistinct, List.nodup_singleton _, fun a ha b hb heq => ?_⟩
      obtain rfl : b = new.asset.info := List.mem_singleton.mp hb
      exact hfresh (heq ▸ ha)

theorem instantiate_aligned {msg : InstantiateMsg}
    (distinct : (msg.createBasket.collateralTypes.map (·.asset.info)).Nodup)
    (done : instantiate deps env info msg = .ok (s, response)) :
    Aligned s.basket ∧ s.positions = ∅ ∧ s.liquidation = none := by
  simp only [instantiate, bind_eq_ok, pure_eq_ok, liftStd_eq_ok, Prod.mk.injEq] at done
  obtain ⟨_, _, _, _, _, _, _, _, _, _, _, _, _, _, _, _, ⟨basket, _⟩, hbasket, rfl, -⟩ := done
  simp only [createBasket, bind_eq_ok, liftStd_eq_ok] at hbasket
  obtain ⟨_, _, _, _, msgs, _, hrest⟩ := hbasket
  split at hrest
  case h_1 => simp at hrest
  case h_2 =>
    obtain ⟨rfl, -⟩ := Prod.mk.inj (pure_eq_ok.mp hrest)
    refine ⟨aligned_iff.mpr ⟨?_, ?_⟩, rfl, rfl⟩
    · simp [typeInfos, capInfos, newSupplyCap]
    · rw [typeInfos, List.map_map]
      exact distinct

end

/-! ## Runs -/

/-- What calls the contract: a message, or a reply to one of its own. -/
inductive Entry where
  | call (call : Call)
  | reply (deps : Deps) (env : Env) (msg : Reply)

/-- A step of the contract, each entry on its own and in any order. -/
def entryStep (s : State) (entry : Entry) (s' : State) : Prop :=
  match entry with
  | .call call => callStep s call s'
  | .reply deps env msg => ∃ response, reply deps env msg s = .ok (s', response)

/-- The entries that keep the order: the last type is the one edited, and an added
    pool share is new. -/
def KeepsOrder (s : State) (entry : Entry) : Prop :=
  match entry with
  | .call call =>
    match call.msg with
    | .editCAsset asset _ _ =>
      ∀ cAsset, s.basket.collateralTypes.getLast? = some cAsset → cAsset.asset.info = asset
    | .editBasket edit => SharesNew call.deps s edit
    | _ => True
  | .reply .. => True

def AlignedAll (s : State) : Prop :=
  Holds Aligned (fun _ => True) s ∧ Pending Aligned (fun _ => True) s

private theorem AlignedAll.governed {s s' : State} (all : AlignedAll s)
    (aligned : Aligned s'.basket) (liquidation : s'.liquidation = s.liquidation) :
    AlignedAll s' := by
  refine ⟨⟨aligned, fun _ _ _ _ _ _ _ => trivial⟩, fun prop hprop => ?_⟩
  exact all.2 prop (liquidation.symm.trans hprop)

theorem step_aligned {s s' : State} {entry : Entry} (all : AlignedAll s)
    (allowed : KeepsOrder s entry) (step : entryStep s entry s') : AlignedAll s' := by
  cases entry with
  | reply deps env msg =>
    obtain ⟨response, hreply⟩ := step
    exact reply_holds lasting_aligned all.1 all.2 hreply
  | call call =>
    obtain ⟨response, hcall⟩ := step
    by_cases hgoverned : (∀ edit, call.msg ≠ .editBasket edit) ∧
        ∀ asset maxBorrowLTV maxLTV, call.msg ≠ .editCAsset asset maxBorrowLTV maxLTV
    · obtain ⟨hholds, hpending⟩ := execute_holds lasting_aligned all.1 (fun _ => all.2)
        hgoverned.1 hgoverned.2 hcall
      exact ⟨hholds, hpending all.2⟩
    · unfold Call.steps execute at hcall
      unfold KeepsOrder at allowed
      cases hmsg : call.msg with
      | editBasket edit =>
        simp only [hmsg] at hcall allowed
        exact all.governed (editBasket_aligned all.1.basket allowed hcall)
          (editBasket_spec hcall).2.1
      | editCAsset asset maxBorrowLTV maxLTV =>
        simp only [hmsg] at hcall allowed
        have htypes := editCAsset_typeInfos all.1.basket.distinct allowed hcall
        obtain ⟨hsame, hdistinct⟩ := aligned_iff.mp all.1.basket
        obtain ⟨_, _, -, -, rfl⟩ := editCAsset_spec hcall
        exact all.governed (aligned_iff.mpr ⟨htypes.trans hsame, htypes.symm ▸ hdistinct⟩) rfl
      | _ => simp [hmsg] at hgoverned

/-- The two lists are aligned in every state that such a run reaches, so an asset's cap
    is found at the index of its type. -/
theorem collateral_aligned {deps : Deps} {env : Env} {info : MessageInfo} {msg : InstantiateMsg}
    {created s : State} {response : Response OutMsg}
    (instantiated : instantiate deps env info msg = .ok (created, response))
    (distinct : (msg.createBasket.collateralTypes.map (·.asset.info)).Nodup)
    (run : RunWhere entryStep KeepsOrder created s) :
    Aligned s.basket ∧ ∀ asset i cap,
      findCap s.basket.collateralSupplyCaps asset = some (i, cap) →
      ∃ cAsset, s.basket.collateralTypes[i]? = some cAsset ∧ cAsset.asset.info = asset := by
  obtain ⟨hbasket, hpositions, hliquidation⟩ := instantiate_aligned distinct instantiated
  have hstart : AlignedAll created := by
    refine ⟨⟨hbasket, ?_⟩, fun prop hprop => ?_⟩
    · rw [hpositions]
      exact KeyMap.all_empty
    · rw [hliquidation] at hprop
      cases hprop
  have hkeeps : ∀ s entry s', AlignedAll s → KeepsOrder s entry → entryStep s entry s' →
      AlignedAll s' := fun _ _ _ all allowed step => step_aligned all allowed step
  have haligned := (RunWhere.keeps hkeeps run hstart).1.basket
  exact ⟨haligned, fun _ _ _ found => haligned.type_of_cap found⟩

/-! ## On a sample chain -/

def addSecond : Call := sampleCall 0 "gov" (.editBasket {
  addedCAsset := some ⟨⟨.nativeToken "uosmo", 0⟩, Decimal.percent 40, Decimal.percent 50,
    Decimal.one, none, none⟩ })

def editLTVs (denom : String) : Call :=
  sampleCall 0 "gov" (.editCAsset (.nativeToken denom) (some (Decimal.percent 30)) none)

theorem collateral_aligned_last_edited :
    ∃ s, afterGenesis 0 [addSecond, editLTVs "uosmo"] = some s ∧
      s.basket.collateralTypes.map (fun cAsset => (cAsset.asset.info, cAsset.maxBorrowLTV)) =
        [(.nativeToken "uatom", Decimal.percent 50), (.nativeToken "uosmo", Decimal.percent 30)] ∧
      Aligned s.basket := by
  have htypes : (afterGenesis 0 [addSecond, editLTVs "uosmo"]).map (fun s =>
      s.basket.collateralTypes.map fun cAsset => (cAsset.asset.info, cAsset.maxBorrowLTV)) =
        some [(.nativeToken "uatom", Decimal.percent 50),
          (.nativeToken "uosmo", Decimal.percent 30)] := by decide +kernel
  have hlast : ((newContract 0).bind (Call.exec · addSecond)).map (fun s =>
      s.basket.collateralTypes.getLast?.map (·.asset.info)) =
        some (some (.nativeToken "uosmo")) := by decide +kernel
  obtain ⟨s, hs, htypes⟩ := Option.map_eq_some_iff.mp htypes
  obtain ⟨created, hnew, hrun⟩ := Option.bind_eq_some_iff.mp hs
  obtain ⟨response, hcreated⟩ := newContract_spec hnew
  obtain ⟨mid, hadd, hrest⟩ := Option.bind_eq_some_iff.mp hrun
  obtain ⟨last, hedit, hdone⟩ := Option.bind_eq_some_iff.mp hrest
  obtain rfl : last = s := Option.some.inj hdone
  rw [hnew, Option.bind_some, hadd, Option.map_some] at hlast
  have hallowed : KeepsOrder mid (.call (editLTVs "uosmo")) := by
    intro cAsset hget
    rw [hget, Option.map_some] at hlast
    exact Option.some.inj (Option.some.inj hlast)
  have hshares : KeepsOrder created (.call addSecond) := by
    intro added pool state hadded hpool
    obtain rfl := Option.some.inj hadded
    cases hpool
  have hfirst : entryStep created (.call addSecond) mid := Call.exec_step hadd
  have hsecond : entryStep mid (.call (editLTVs "uosmo")) last := Call.exec_step hedit
  have hrun : RunWhere entryStep KeepsOrder created last :=
    (RunWhere.snoc .refl _ hshares hfirst).snoc _ hallowed hsecond
  exact ⟨last, hs, htypes, (collateral_aligned hcreated (by decide) hrun).1⟩

/-- The lists are not aligned in every reachable state: governance has two collateral
    types and edits the limits of the first. Two types of one asset in the message
    that creates the basket are not refused either. -/
theorem collateral_not_aligned :
    (¬ ∀ calls s, (∀ call ∈ calls, DebtCall call.msg ∨ SetupCall call.msg) →
      afterGenesis 0 calls = some s → Aligned s.basket) ∧
    ¬ ∀ msg created response,
      instantiate atPar (atTime 0) (MessageInfo.noFunds "gov") msg = .ok (created, response) →
      Aligned created.basket := by
  refine ⟨fun claim => ?_, fun claim => ?_⟩
  · have hinfos : (afterGenesis 0 [addSecond, editLTVs "uatom"]).map
        (fun s => (typeInfos s.basket, capInfos s.basket)) =
          some ([.nativeToken "uosmo", .nativeToken "uatom"],
            [.nativeToken "uatom", .nativeToken "uosmo"]) := by decide +kernel
    obtain ⟨s, hs, hinfos⟩ := Option.map_eq_some_iff.mp hinfos
    obtain ⟨htypes, hcaps⟩ := Prod.mk.inj hinfos
    have haligned := claim _ s ?_ hs
    · have hsame := (aligned_iff.mp haligned).1
      rw [htypes, hcaps] at hsame
      exact absurd hsame (by decide)
    · intro call hcall
      simp only [List.mem_cons, List.not_mem_nil, or_false] at hcall
      rcases hcall with rfl | rfl
      · exact .inr trivial
      · exact .inr trivial
  · let types := (genesis 0).createBasket.collateralTypes
    let twice : InstantiateMsg := { genesis 0 with
      createBasket := { (genesis 0).createBasket with collateralTypes := types ++ types } }
    have hinfos : (instantiate atPar (atTime 0) (MessageInfo.noFunds "gov") twice).toOption.map
        (fun result => typeInfos result.1.basket) =
          some [.nativeToken "uatom", .nativeToken "uatom"] := by decide +kernel
    obtain ⟨⟨created, response⟩, hcreated, hinfos⟩ := Option.map_eq_some_iff.mp hinfos
    have hdone : instantiate atPar (atTime 0) (MessageInfo.noFunds "gov") twice =
        .ok (created, response) := by
      cases hresult : instantiate atPar (atTime 0) (MessageInfo.noFunds "gov") twice with
      | error _ => rw [hresult] at hcreated; cases hcreated
      | ok result =>
        rw [hresult] at hcreated
        exact congrArg Except.ok (Option.some.inj hcreated)
    have hdistinct := (claim twice created response hdone).distinct
    rw [show typeInfos created.basket = _ from hinfos] at hdistinct
    exact absurd hdistinct (by decide)

end Membrane.Cdp
