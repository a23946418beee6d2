import Membrane.Cdp.Proofs.Accrual
import Membrane.Lib.ListEdit

/-!
# What tallies and accrual leave of the basket's collateral

A collateral type has terms, the asset it is and its two limits, and a supply cap has
an asset. Tallies, caps and rates move amounts and indices, never the terms nor the
order of the two lists; accrual does not even move the supplies.
-/

namespace Membrane.Cdp

open Outcome

def terms (cAsset : CAsset) : AssetInfo × Decimal × Decimal :=
  (cAsset.asset.info, cAsset.maxBorrowLTV, cAsset.maxLTV)

/-- Two baskets with the same collateral types and capped assets, in the same order. -/
structure SameKinds (basket basket' : Basket) : Prop where
  types : basket'.collateralTypes.map terms = basket.collateralTypes.map terms
  caps : basket'.collateralSupplyCaps.map SupplyCap.assetInfo =
    basket.collateralSupplyCaps.map SupplyCap.assetInfo

theorem SameKinds.refl (basket : Basket) : SameKinds basket basket := ⟨rfl, rfl⟩

theorem SameKinds.trans {b₁ b₂ b₃ : Basket} (h : SameKinds b₁ b₂) (h' : SameKinds b₂ b₃) :
    SameKinds b₁ b₃ := ⟨h'.types.trans h.types, h'.caps.trans h.caps⟩

/-- Two baskets of the same kinds whose caps count the same supplies. -/
structure SameSupplies (basket basket' : Basket) : Prop extends SameKinds basket basket' where
  supplies : basket'.collateralSupplyCaps.map SupplyCap.currentSupply =
    basket.collateralSupplyCaps.map SupplyCap.currentSupply

theorem SameSupplies.refl (basket : Basket) : SameSupplies basket basket := ⟨.refl _, rfl⟩

theorem SameSupplies.trans {b₁ b₂ b₃ : Basket} (h : SameSupplies b₁ b₂)
    (h' : SameSupplies b₂ b₃) : SameSupplies b₁ b₃ :=
  ⟨h.toSameKinds.trans h'.toSameKinds, h'.supplies.trans h.supplies⟩

/-! ## Tallies -/

theorem map_setIndex {α β ε : Type} {key : α → β} {l l' : List α} {i : Nat} {a b : α}
    (found : l[i]? = some a) (done : (setIndex l i b : Outcome ε (List α)) = .ok l')
    (same : key b = key a) : l'.map key = l.map key := by
  obtain ⟨-, rfl⟩ := setIndex_eq_ok.mp done
  exact ListEdit.map_set_same key found same

theorem findCap_spec {caps : List SupplyCap} {info : AssetInfo} {i : Nat} {cap : SupplyCap}
    (found : findCap caps info = some (i, cap)) : caps[i]? = some cap ∧ cap.assetInfo = info := by
  simp only [findCap, Option.bind_eq_some_iff, Option.map_eq_some_iff] at found
  obtain ⟨j, hidx, cap', hget, heq⟩ := found
  obtain ⟨rfl, rfl⟩ := Prod.mk.inj heq
  obtain ⟨a, ha, hinfo⟩ := ListEdit.findIdx?_getElem? hidx
  obtain rfl : cap' = a := Option.some.inj (hget.symm.trans ha)
  exact ⟨hget, by simpa using hinfo⟩

theorem tallyAsset_sameKinds {add : Bool} {basket basket' : Basket} {cAsset : CAsset}
    (done : tallyAsset add basket cAsset = .ok basket') : SameKinds basket basket' := by
  unfold tallyAsset at done
  split at done
  case h_1 =>
    obtain rfl := pure_eq_ok.mp done
    exact .refl _
  case h_2 i cap hcap =>
    simp only [bind_eq_ok, pure_eq_ok] at done
    obtain ⟨_, _, caps, hcaps, basketAsset, hasset, types, htypes, rfl⟩ := done
    exact ⟨map_setIndex (index_eq_ok.mp hasset) htypes rfl,
      map_setIndex (findCap_spec hcap).1 hcaps rfl⟩

theorem updateBasketTally_sameKinds {deps : Deps} {env : Env} {config : Config}
    {prices prices' : PriceStore} {basket basket' : Basket} {assets full : List CAsset}
    {add fromLiquidation : Bool}
    (done : updateBasketTally deps env config prices basket assets full add fromLiquidation =
      .ok (prices', basket')) : SameKinds basket basket' := by
  simp only [updateBasketTally, bind_eq_ok] at done
  obtain ⟨tallied, hfold, hrest⟩ := done
  have hkinds : SameKinds basket tallied :=
    foldlM_keeps (SameKinds basket)
      (fun _ _ _ hinv hstep => hinv.trans (tallyAsset_sameKinds hstep)) _ _ _ (.refl _) hfold
  split at hrest
  case isTrue =>
    obtain ⟨-, rfl⟩ := Prod.mk.inj (pure_eq_ok.mp hrest)
    exact hkinds
  case isFalse =>
    simp only [bind_eq_ok, pure_eq_ok] at hrest
    obtain ⟨_, _, _, _, _, _, heq⟩ := hrest
    obtain ⟨-, rfl⟩ := Prod.mk.inj heq
    exact hkinds

theorem updateBasketTally_sameKinds_if {c : Prop} [Decidable c] {deps : Deps} {env : Env}
    {config : Config} {prices prices' : PriceStore} {basket basket' : Basket}
    {assets full : List CAsset} {add fromLiquidation : Bool}
    (done : (if c then updateBasketTally deps env config prices basket assets full add
      fromLiquidation else pure (prices, basket)) = .ok (prices', basket')) :
    SameKinds basket basket' := by
  split at done
  case isTrue => exact updateBasketTally_sameKinds done
  case isFalse =>
    obtain ⟨-, rfl⟩ := Prod.mk.inj (pure_eq_ok.mp done)
    exact .refl _

/-! ## Rates -/

theorem splitDebt_caps {β : Type} {key : SupplyCap → β}
    (keyed : ∀ cap debtTotal, key { cap with debtTotal := debtTotal } = key cap)
    {ratios : List Decimal} {credit : Nat} {acc acc' : List SupplyCap × List SupplyCap}
    {entry : CAsset × Nat} (done : splitDebt ratios credit acc entry = .ok acc') :
    acc'.1.map key = acc.1.map key := by
  unfold splitDebt at done
  have hall : acc'.1.map key = [] ++ acc.1.map key := by
    refine foldlM_appends (fun acc => acc.1.map key) key (fun mid cap next hstep => ?_) _ _ _ done
    dsimp only at hstep
    split at hstep
    case isTrue =>
      simp only [bind_eq_ok, pure_eq_ok] at hstep
      obtain ⟨_, _, _, _, _, _, _, _, rfl⟩ := hstep
      simp [keyed]
    case isFalse =>
      obtain rfl := pure_eq_ok.mp hstep
      simp
  simpa using hall

theorem getBasketDebtCaps_sameSupplies {deps : Deps} {env : Env} {config : Config}
    {prices : PriceStore} {basket basket' : Basket} {supplyCaps supplyCaps' : List SupplyCap}
    {cdtLiquidity : Option Nat} {debtCaps : List Nat}
    (done : getBasketDebtCaps deps env config prices basket supplyCaps cdtLiquidity =
      .ok (basket', supplyCaps', debtCaps)) : SameSupplies basket basket' := by
  simp only [getBasketDebtCaps, bind_eq_ok, pure_eq_ok, Prod.mk.injEq] at done
  obtain ⟨_, _, ⟨caps, _⟩, hsplit, _, _, _, _, _, _, rfl, -⟩ := done
  have hcaps : ∀ {β : Type} {key : SupplyCap → β},
      (∀ cap debtTotal, key { cap with debtTotal := debtTotal } = key cap) →
      caps.map key = basket.collateralSupplyCaps.map key := by
    intro β key keyed
    exact foldlM_keeps (fun acc => acc.1.map key = basket.collateralSupplyCaps.map key)
      (fun _ _ _ hinv hstep => (splitDebt_caps keyed hstep).trans hinv) _ _ _ rfl hsplit
  split
  · exact ⟨⟨rfl, hcaps fun _ _ => rfl⟩, hcaps fun _ _ => rfl⟩
  · exact ⟨⟨rfl, hcaps fun _ _ => rfl⟩, hcaps fun _ _ => rfl⟩

theorem getInterestRates_sameSupplies {deps : Deps} {env : Env} {config : Config}
    {prices prices' : PriceStore} {basket basket' : Basket} {supplyCaps : List SupplyCap}
    {cdtLiquidity : Option Nat} {rates : List Decimal}
    (done : getInterestRates deps env config prices basket supplyCaps cdtLiquidity =
      .ok (prices', basket', rates)) : SameSupplies basket basket' := by
  simp only [getInterestRates, bind_eq_ok, pure_eq_ok, rewrapStd_eq_ok, Prod.mk.injEq] at done
  obtain ⟨_, _, ⟨mid, _, _⟩, hcaps, _, _, _, _, _, _, _, _, -, rfl, -⟩ := done
  exact getBasketDebtCaps_sameSupplies hcaps

theorem mapM_zipIdx_key {α β ε : Type} {key : α → β} {f : α × Nat → Outcome ε α} {l l' : List α}
    (keeps : ∀ entry a, f entry = .ok a → key a = key entry.1)
    (done : l.zipIdx.mapM f = .ok l') : l'.map key = l.map key := by
  have hall : ∀ {entries : List (α × Nat)} {l' : List α},
      List.Forall₂ (fun entry a => f entry = .ok a) entries l' →
      l'.map key = (entries.map Prod.fst).map key := by
    intro entries l' h
    induction h with
    | nil => rfl
    | cons hhead _ ih => rw [List.map_cons, List.map_cons, List.map_cons, ih, keeps _ _ hhead]
  rw [hall (mapM_forall₂ done), List.zipIdx_map_fst]

theorem updateRateIndices_sameSupplies {deps : Deps} {env : Env} {config : Config}
    {prices prices' : PriceStore} {basket basket' : Basket} {supplyCaps : List SupplyCap}
    {negativeRate : Bool} {creditPriceRate : Decimal} {cdtLiquidity : Option Nat}
    (done : updateRateIndices deps env config prices basket supplyCaps negativeRate creditPriceRate
      cdtLiquidity = .ok (prices', basket')) : SameSupplies basket basket' := by
  simp only [updateRateIndices, bind_eq_ok, pure_eq_ok, rewrapStd_eq_ok, Prod.mk.injEq] at done
  obtain ⟨⟨_, mid, _⟩, hrates, _, _, _, _, types, htypes, -, rfl⟩ := done
  have hsame := getInterestRates_sameSupplies hrates
  refine ⟨⟨?_, hsame.caps⟩, hsame.supplies⟩
  refine (mapM_zipIdx_key (fun entry cAsset hstep => ?_) htypes).trans hsame.types
  simp only [bind_eq_ok, pure_eq_ok] at hstep
  obtain ⟨_, _, _, _, _, _, rfl⟩ := hstep
  rfl

/-! ## Accrual -/

theorem indexChange_terms {basket : Basket} {ratios : List Decimal}
    {acc acc' : Decimal × List CAsset} {entry : CAsset × Nat}
    (done : indexChange basket ratios acc entry = .ok acc') :
    acc'.2.map terms = acc.2.map terms ++ [terms entry.1] := by
  unfold indexChange at done
  split at done
  case h_1 =>
    obtain rfl := pure_eq_ok.mp done
    simp
  case h_2 =>
    simp only [bind_eq_ok, pure_eq_ok] at done
    obtain ⟨_, _, _, _, _, _, _, _, rfl⟩ := done
    simp [terms]

theorem getCreditRateOfChange_kinds {deps : Deps} {env : Env} {config : Config}
    {prices prices' : PriceStore} {basket basket' : Basket} {assets assets' : List CAsset}
    {negativeRate : Bool} {creditPriceRate rateOfChange : Decimal} {cdtLiquidity : Option Nat}
    {ratios : List Decimal}
    (done : getCreditRateOfChange deps env config prices basket assets negativeRate creditPriceRate
      cdtLiquidity = .ok (prices', basket', assets', rateOfChange, ratios)) :
    SameSupplies basket basket' ∧ assets'.map terms = assets.map terms := by
  simp only [getCreditRateOfChange, bind_eq_ok, pure_eq_ok, rewrapStd_eq_ok, Prod.mk.injEq] at done
  obtain ⟨_, _, ⟨_, mid⟩, hrates, ⟨_, collateral⟩, hloop, -, rfl, rfl, -, -⟩ := done
  refine ⟨updateRateIndices_sameSupplies hrates, ?_⟩
  have hterms : collateral.map terms = [] ++ assets.zipIdx.map (fun entry => terms entry.1) :=
    foldlM_appends (fun acc => acc.2.map terms) (fun entry => terms entry.1)
      (fun _ _ _ hstep => indexChange_terms hstep) _ _ _ hloop
  calc collateral.map terms
      = (assets.zipIdx.map Prod.fst).map terms := by rw [hterms, List.map_map]; rfl
    _ = assets.map terms := by rw [List.zipIdx_map_fst]

theorem accrueRepaymentPrice_sameSupplies {env : Env} {config : Config} {basket basket' : Basket}
    {timeElapsed : Nat} {market creditPriceRate : Decimal} {negativeRate : Bool}
    (done : accrueRepaymentPrice env config basket timeElapsed market =
      .ok (basket', negativeRate, creditPriceRate)) : SameSupplies basket basket' := by
  simp only [accrueRepaymentPrice, bind_eq_ok] at done
  obtain ⟨_, _, hrest⟩ := done
  split at hrest
  case isTrue =>
    simp only [bind_eq_ok, pure_eq_ok, Prod.mk.injEq] at hrest
    obtain ⟨_, _, _, _, _, _, _, _, _, _, rfl, -⟩ := hrest
    exact ⟨⟨rfl, rfl⟩, rfl⟩
  case isFalse =>
    obtain ⟨rfl, -⟩ := Prod.mk.inj (pure_eq_ok.mp hrest)
    exact ⟨⟨rfl, rfl⟩, rfl⟩

theorem accrue_kinds {deps : Deps} {env : Env} {config : Config} {prices : PriceStore}
    {position : Position} {basket : Basket} {user : String} {isDepositFunction : Bool}
    {out : Accrued}
    (done : accrue deps env config prices position basket user isDepositFunction = .ok out) :
    SameSupplies basket out.basket ∧
      out.position.collateralAssets.map terms = position.collateralAssets.map terms := by
  simp only [accrue, bind_eq_ok, pure_eq_ok, rewrapStd_eq_ok] at done
  obtain ⟨_, _, _, _, _, _, _, _, ⟨mid, _, _⟩, hprice, ⟨_, last, _, _, _⟩, hchange, _, _,
    _, _, _, _,
    _, _, rfl⟩ := done
  have hmid : SameSupplies basket mid := by
    split at hprice
    · exact accrueRepaymentPrice_sameSupplies hprice
    · obtain ⟨rfl, -⟩ := Prod.mk.inj (pure_eq_ok.mp hprice)
      exact .refl _
  obtain ⟨hlast, hterms⟩ := getCreditRateOfChange_kinds hchange
  have hsame := hmid.trans hlast
  exact ⟨⟨⟨hsame.types, hsame.caps⟩, hsame.supplies⟩, hterms⟩

end Membrane.Cdp
