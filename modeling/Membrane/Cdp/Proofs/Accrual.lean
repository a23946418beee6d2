import Membrane.Cdp.Rates

/-!
# What accrual changes

Rates, caps and tallies move many fields of the basket, but neither the debt it
counts nor its revenue. `accrue` then adds one amount, the interest, to the
position's debt, to the basket's debt and to the revenue.
-/

namespace Membrane.Cdp

open Outcome

/-- Two baskets with the same debt, revenue and next position id. -/
structure SameBooks (basket basket' : Basket) : Prop where
  creditAsset : basket'.creditAsset = basket.creditAsset
  pendingRevenue : basket'.pendingRevenue = basket.pendingRevenue
  currentPositionId : basket'.currentPositionId = basket.currentPositionId

theorem SameBooks.refl (basket : Basket) : SameBooks basket basket := ⟨rfl, rfl, rfl⟩

theorem SameBooks.trans {b₁ b₂ b₃ : Basket} (h : SameBooks b₁ b₂) (h' : SameBooks b₂ b₃) :
    SameBooks b₁ b₃ :=
  ⟨h'.creditAsset.trans h.creditAsset, h'.pendingRevenue.trans h.pendingRevenue,
    h'.currentPositionId.trans h.currentPositionId⟩

@[simp]
theorem rewrapStd_eq_ok {α : Type} {context : String} {x : Outcome StdError α} {a : α} :
    rewrapStd context x = .ok a ↔ x = .ok a := mapErr_eq_ok

/-! ## Tallies and caps -/

theorem tallyAsset_sameBooks {add : Bool} {basket basket' : Basket} {cAsset : CAsset}
    (done : tallyAsset add basket cAsset = .ok basket') : SameBooks basket basket' := by
  unfold tallyAsset at done
  split at done
  case h_1 =>
    obtain rfl := pure_eq_ok.mp done
    exact .refl _
  case h_2 =>
    simp only [bind_eq_ok, pure_eq_ok] at done
    obtain ⟨_, _, _, _, _, _, _, _, rfl⟩ := done
    exact ⟨rfl, rfl, rfl⟩

theorem updateBasketTally_sameBooks {deps : Deps} {env : Env} {config : Config}
    {prices prices' : PriceStore} {basket basket' : Basket} {assets full : List CAsset}
    {add fromLiquidation : Bool}
    (done : updateBasketTally deps env config prices basket assets full add fromLiquidation =
      .ok (prices', basket')) : SameBooks basket basket' := by
  simp only [updateBasketTally, bind_eq_ok] at done
  obtain ⟨tallied, hfold, hrest⟩ := done
  have hbooks : SameBooks basket tallied :=
    foldlM_keeps (SameBooks basket)
      (fun _ _ _ hinv hstep => hinv.trans (tallyAsset_sameBooks hstep)) _ _ _ (.refl _) hfold
  split at hrest
  case isTrue =>
    obtain ⟨-, rfl⟩ := Prod.mk.inj (pure_eq_ok.mp hrest)
    exact hbooks
  case isFalse =>
    simp only [bind_eq_ok, pure_eq_ok] at hrest
    obtain ⟨_, _, _, _, _, _, heq⟩ := hrest
    obtain ⟨-, rfl⟩ := Prod.mk.inj heq
    exact hbooks

theorem getBasketDebtCaps_sameBooks {deps : Deps} {env : Env} {config : Config}
    {prices : PriceStore} {basket basket' : Basket} {supplyCaps supplyCaps' : List SupplyCap}
    {cdtLiquidity : Option Nat} {debtCaps : List Nat}
    (done : getBasketDebtCaps deps env config prices basket supplyCaps cdtLiquidity =
      .ok (basket', supplyCaps', debtCaps)) : SameBooks basket basket' := by
  simp only [getBasketDebtCaps, bind_eq_ok, pure_eq_ok, Prod.mk.injEq] at done
  obtain ⟨_, _, _, _, _, _, _, _, _, _, rfl, -⟩ := done
  split
  · exact ⟨rfl, rfl, rfl⟩
  · exact ⟨rfl, rfl, rfl⟩

/-! ## Rates -/

theorem getInterestRates_sameBooks {deps : Deps} {env : Env} {config : Config}
    {prices prices' : PriceStore} {basket basket' : Basket} {supplyCaps : List SupplyCap}
    {cdtLiquidity : Option Nat} {rates : List Decimal}
    (done : getInterestRates deps env config prices basket supplyCaps cdtLiquidity =
      .ok (prices', basket', rates)) : SameBooks basket basket' := by
  simp only [getInterestRates, bind_eq_ok, pure_eq_ok, rewrapStd_eq_ok, Prod.mk.injEq] at done
  obtain ⟨_, _, ⟨mid, _, _⟩, hcaps, _, _, _, _, _, _, _, _, -, rfl, -⟩ := done
  exact getBasketDebtCaps_sameBooks hcaps

theorem updateRateIndices_sameBooks {deps : Deps} {env : Env} {config : Config}
    {prices prices' : PriceStore} {basket basket' : Basket} {supplyCaps : List SupplyCap}
    {negativeRate : Bool} {creditPriceRate : Decimal} {cdtLiquidity : Option Nat}
    (done : updateRateIndices deps env config prices basket supplyCaps negativeRate creditPriceRate
      cdtLiquidity = .ok (prices', basket')) : SameBooks basket basket' := by
  simp only [updateRateIndices, bind_eq_ok, pure_eq_ok, rewrapStd_eq_ok, Prod.mk.injEq] at done
  obtain ⟨⟨_, mid, _⟩, hrates, _, _, _, _, _, _, -, rfl⟩ := done
  have hbooks := getInterestRates_sameBooks hrates
  exact ⟨hbooks.creditAsset, hbooks.pendingRevenue, hbooks.currentPositionId⟩

theorem indexChange_assets {basket : Basket} {ratios : List Decimal}
    {acc acc' : Decimal × List CAsset}
    {entry : CAsset × Nat} (done : indexChange basket ratios acc entry = .ok acc') :
    acc'.2.map (·.asset) = acc.2.map (·.asset) ++ [entry.1.asset] := by
  unfold indexChange at done
  split at done
  case h_1 =>
    obtain rfl := pure_eq_ok.mp done
    simp
  case h_2 =>
    simp only [bind_eq_ok, pure_eq_ok] at done
    obtain ⟨_, _, _, _, _, _, _, _, rfl⟩ := done
    simp

theorem getCreditRateOfChange_spec {deps : Deps} {env : Env} {config : Config}
    {prices prices' : PriceStore} {basket basket' : Basket} {assets assets' : List CAsset}
    {negativeRate : Bool} {creditPriceRate rateOfChange : Decimal} {cdtLiquidity : Option Nat}
    {ratios : List Decimal}
    (done : getCreditRateOfChange deps env config prices basket assets negativeRate creditPriceRate
      cdtLiquidity = .ok (prices', basket', assets', rateOfChange, ratios)) :
    SameBooks basket basket' ∧ assets'.map (·.asset) = assets.map (·.asset) := by
  simp only [getCreditRateOfChange, bind_eq_ok, pure_eq_ok, rewrapStd_eq_ok, Prod.mk.injEq] at done
  obtain ⟨_, _, ⟨_, mid⟩, hrates, ⟨_, collateral⟩, hloop, -, rfl, rfl, -, -⟩ := done
  refine ⟨updateRateIndices_sameBooks hrates, ?_⟩
  have hassets : collateral.map (·.asset) = [] ++ assets.zipIdx.map (·.1.asset) :=
    foldlM_appends (fun acc => acc.2.map (·.asset)) (·.1.asset)
      (fun _ _ _ hstep => indexChange_assets hstep) _ _ _ hloop
  have hentries : assets.zipIdx.map (·.1.asset) = assets.map (·.asset) := by
    calc assets.zipIdx.map (·.1.asset)
        = (assets.zipIdx.map Prod.fst).map (·.asset) := List.map_map.symm
      _ = assets.map (·.asset) := by rw [List.zipIdx_map_fst]
  simpa [hentries] using hassets

theorem accrueRepaymentPrice_sameBooks {env : Env} {config : Config} {basket basket' : Basket}
    {timeElapsed : Nat} {market creditPriceRate : Decimal} {negativeRate : Bool}
    (done : accrueRepaymentPrice env config basket timeElapsed market =
      .ok (basket', negativeRate, creditPriceRate)) : SameBooks basket basket' := by
  simp only [accrueRepaymentPrice, bind_eq_ok] at done
  obtain ⟨_, _, hrest⟩ := done
  split at hrest
  case isTrue =>
    simp only [bind_eq_ok, pure_eq_ok, Prod.mk.injEq] at hrest
    obtain ⟨_, _, _, _, _, _, _, _, _, _, rfl, -⟩ := hrest
    exact ⟨rfl, rfl, rfl⟩
  case isFalse =>
    obtain ⟨rfl, -⟩ := Prod.mk.inj (pure_eq_ok.mp hrest)
    exact ⟨rfl, rfl, rfl⟩

/-! ## Accrual -/

/-- What accrual did: `interest` was added to the three places that count it. -/
structure Charged (position : Position) (basket : Basket) (position' : Position) (basket' : Basket)
    (interest : Nat) : Prop where
  positionId : position'.positionId = position.positionId
  held : position'.held = position.held
  credit : position'.creditAmount = position.creditAmount + interest
  basketCredit : basket'.creditAsset.amount = basket.creditAsset.amount + interest
  creditInfo : basket'.creditAsset.info = basket.creditAsset.info
  pendingRevenue : basket'.pendingRevenue = basket.pendingRevenue + interest
  currentPositionId : basket'.currentPositionId = basket.currentPositionId

theorem Charged.zero (position : Position) (basket : Basket) :
    Charged position basket position basket 0 := ⟨rfl, rfl, rfl, rfl, rfl, rfl, rfl⟩

/-- The interest that accrual put on a position. -/
def Accrued.interest (out : Accrued) (position : Position) : Nat :=
  out.position.creditAmount - position.creditAmount

theorem accrue_charged {deps : Deps} {env : Env} {config : Config} {prices : PriceStore}
    {position : Position} {basket : Basket} {user : String} {isDepositFunction : Bool}
    {out : Accrued}
    (done : accrue deps env config prices position basket user isDepositFunction = .ok out) :
    Charged position basket out.position out.basket (out.interest position) := by
  simp only [accrue, bind_eq_ok, pure_eq_ok, rewrapStd_eq_ok] at done
  obtain ⟨_, _, _, _, _, _, _, _, ⟨mid, _, _⟩, hprice, ⟨_, last, _, _, _⟩, hchange, interest, _, _,
    hrevenue, _, hcredit, _, hbasket, rfl⟩ := done
  have hmid : SameBooks basket mid := by
    split at hprice
    · exact accrueRepaymentPrice_sameBooks hprice
    · obtain ⟨rfl, -⟩ := Prod.mk.inj (pure_eq_ok.mp hprice)
      exact .refl _
  obtain ⟨hlast, hassets⟩ := getCreditRateOfChange_spec hchange
  have hbooks := hmid.trans hlast
  obtain ⟨-, rfl⟩ := Uint128.add_eq_ok.mp hrevenue
  obtain ⟨-, rfl⟩ := Uint128.add_eq_ok.mp hcredit
  obtain ⟨-, rfl⟩ := Uint128.add_eq_ok.mp hbasket
  exact {
    positionId := rfl
    held := hassets
    credit := by simp [Accrued.interest]
    basketCredit := by simp [hbooks.creditAsset, Accrued.interest]
    creditInfo := by simp [hbooks.creditAsset]
    pendingRevenue := by simp [hbooks.pendingRevenue, Accrued.interest]
    currentPositionId := hbooks.currentPositionId }

end Membrane.Cdp
