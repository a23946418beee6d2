import Membrane.Cdp.Query

/-!
# A borrower starts below the liquidation limit

A position that passes the check on its borrow limit passes the check on its maximum at
the same prices: the average of the borrow limits is at most the average of the maxima,
each truncated as the code truncates it, and the two checks compare one loan-to-value.
-/

namespace Membrane

open Outcome

namespace Cdp

/-! ## Averages -/

private def weigh (limit : CAsset → Decimal) (cAssetRatios : List Decimal) (acc : Decimal)
    (entry : CAsset × Nat) : Outcome StdError Decimal := do
  let ratio ← index cAssetRatios entry.2
  Decimal.add acc (← decimalMultiplication ratio (limit entry.1))

private theorem weigh_mono {limit limit' : CAsset → Decimal} {cAssetRatios : List Decimal}
    {acc acc' next next' : Decimal} {entry : CAsset × Nat} (le : limit entry.1 ≤ limit' entry.1)
    (start : acc ≤ acc') (done : weigh limit cAssetRatios acc entry = .ok next)
    (done' : weigh limit' cAssetRatios acc' entry = .ok next') : next ≤ next' := by
  simp only [weigh, bind_eq_ok, index_eq_ok] at done done'
  obtain ⟨ratio, hratio, product, hproduct, hnext⟩ := done
  obtain ⟨ratio', hratio', product', hproduct', hnext'⟩ := done'
  -- both rounds read the same ratio
  rw [hratio] at hratio'
  cases hratio'
  exact Decimal.add_mono start (decimalMultiplication_mono le hproduct hproduct') hnext hnext'

private theorem weighs_mono {limit limit' : CAsset → Decimal} {cAssetRatios : List Decimal} :
    ∀ {entries : List (CAsset × Nat)} {acc acc' average average' : Decimal},
      (∀ entry ∈ entries, limit entry.1 ≤ limit' entry.1) → acc ≤ acc' →
      entries.foldlM (weigh limit cAssetRatios) acc = .ok average →
      entries.foldlM (weigh limit' cAssetRatios) acc' = .ok average' → average ≤ average' := by
  intro entries
  induction entries with
  | nil =>
    intro acc acc' average average' _ start done done'
    cases done
    cases done'
    exact start
  | cons entry rest ih =>
    intro acc acc' average average' le start done done'
    rw [List.foldlM_cons, bind_eq_ok] at done done'
    obtain ⟨next, hnext, hrest⟩ := done
    obtain ⟨next', hnext', hrest'⟩ := done'
    have hstep : next ≤ next' := weigh_mono (le entry List.mem_cons_self) start hnext hnext'
    exact ih (fun entry' mem => le entry' (List.mem_cons_of_mem _ mem)) hstep hrest hrest'

theorem weightedLTV_mono {limit limit' : CAsset → Decimal} {cAssetRatios : List Decimal}
    {assets : List CAsset} {average average' : Decimal}
    (each : ∀ cAsset ∈ assets, limit cAsset ≤ limit' cAsset)
    (done : weightedLTV limit cAssetRatios assets = .ok average)
    (done' : weightedLTV limit' cAssetRatios assets = .ok average') : average ≤ average' := by
  refine weighs_mono (fun entry mem => ?_) (Nat.le_refl _) done done'
  apply each
  exact (List.mem_zipIdx' mem).2 ▸ List.getElem_mem _

theorem calculateAvgLTV_le {values : List Decimal} {prices : List PriceResponse}
    {assets : List CAsset} {avg : AvgLTV}
    (each : ∀ cAsset ∈ assets, cAsset.maxBorrowLTV ≤ cAsset.maxLTV)
    (done : calculateAvgLTV values prices assets = .ok avg) : avg.avgBorrowLTV ≤ avg.avgMaxLTV := by
  simp only [calculateAvgLTV, bind_eq_ok] at done
  obtain ⟨total, -, ratios, -, hrest⟩ := done
  by_cases hempty : ratios.length = 0
  · rw [if_pos hempty] at hrest
    obtain rfl := pure_eq_ok.mp hrest
    exact Nat.le_refl _
  · rw [if_neg hempty] at hrest
    by_cases hone : ratios.length = 1
    · rw [if_pos hone] at hrest
      obtain ⟨only, honly, hpure⟩ := bind_eq_ok.mp hrest
      cases hpure
      exact each only (List.mem_of_getElem? (index_eq_ok.mp honly))
    · rw [if_neg hone] at hrest
      simp only [bind_eq_ok, pure_eq_ok] at hrest
      obtain ⟨borrow, hborrow, max, hmax, rfl⟩ := hrest
      exact weightedLTV_mono each hborrow hmax

/-! ## The two checks -/

theorem insolvencyCheckCalc_solvent {avg : AvgLTV} {assets : List CAsset} {credit : Nat}
    {creditPrice : PriceResponse} {maxBorrow : Bool} {ltv : Decimal} {fee : Nat} :
    insolvencyCheckCalc avg assets credit creditPrice maxBorrow = .ok (false, ltv, fee) ↔
      fee = 0 ∧ ∃ total, (Uint128.sum (assets.map (·.asset.amount)) :
        Outcome StdError Nat) = .ok total ∧
        (credit = 0 ∧ ltv = Decimal.percent 0 ∨ credit ≠ 0 ∧ total ≠ 0 ∧
          ∃ debtValue, creditPrice.getValue credit = .ok debtValue ∧
            Decimal.checkedDiv debtValue avg.totalValue = .ok ltv ∧
            ltv ≤ if maxBorrow then avg.avgBorrowLTV else avg.avgMaxLTV) := by
  have hcheck : ∀ current : Decimal,
      (if maxBorrow then decide (avg.avgBorrowLTV < current)
        else decide (avg.avgMaxLTV < current)) =
      decide ((if maxBorrow then avg.avgBorrowLTV else avg.avgMaxLTV) < current) := by
    intro current
    cases maxBorrow <;> rfl
  simp only [insolvencyCheckCalc, bind_eq_ok, hcheck]
  generalize (if maxBorrow then avg.avgBorrowLTV else avg.avgMaxLTV) = limit
  by_cases hdebt : credit = 0
  · simp only [hdebt, ne_eq, not_true_eq_false, and_false, if_false, if_true, pure_eq_ok,
      Prod.mk.injEq, true_and, false_and, or_false]
    constructor
    · rintro ⟨total, hsum, rfl, rfl⟩
      exact ⟨rfl, total, hsum, rfl⟩
    · rintro ⟨rfl, total, hsum, rfl⟩
      exact ⟨total, hsum, rfl, rfl⟩
  · simp only [hdebt, ne_eq, not_false_eq_true, and_true, if_false, true_and, false_and, false_or]
    constructor
    · rintro ⟨total, hsum, hrest⟩
      by_cases htotal : total = 0
      · -- debt without collateral is insolvent
        rw [if_pos htotal] at hrest
        cases hrest
      · rw [if_neg htotal] at hrest
        simp only [bind_eq_ok, mapErr_eq_ok, pure_eq_ok, Prod.mk.injEq] at hrest
        obtain ⟨debtValue, hvalue, current, hdiv, _, hfee, hsolvent, rfl, rfl⟩ := hrest
        rw [hsolvent] at hfee
        simp only [Bool.false_eq_true, false_and, if_false, pure_eq_ok] at hfee
        refine ⟨hfee.symm, total, hsum, htotal, debtValue, hvalue, hdiv, ?_⟩
        exact Nat.le_of_not_lt (of_decide_eq_false hsolvent)
    · rintro ⟨rfl, total, hsum, htotal, debtValue, hvalue, hdiv, hle⟩
      refine ⟨total, hsum, ?_⟩
      rw [if_neg htotal]
      have hsolvent : decide (limit < ltv) = false := decide_eq_false (Nat.not_lt_of_le hle)
      simp only [bind_eq_ok, mapErr_eq_ok, pure_eq_ok, Prod.mk.injEq]
      refine ⟨debtValue, hvalue, ltv, hdiv, 0, ?_, hsolvent, rfl, rfl⟩
      rw [hsolvent]
      rfl

/-- A borrower is not liquidatable at the prices it borrowed at. The averages of any
    collateral, at any values, are in order, so what is solvent against the borrow limit is
    solvent against the maximum, with the same loan-to-value and no fee. -/
theorem max_borrow_solvent_max_solvent {assets : List CAsset}
    (each : ∀ cAsset ∈ assets, cAsset.maxBorrowLTV ≤ cAsset.maxLTV) :
    (∀ values prices avg, calculateAvgLTV values prices assets = .ok avg →
      avg.avgBorrowLTV ≤ avg.avgMaxLTV ∧
      ∀ credit creditPrice ltv fee,
        insolvencyCheckCalc avg assets credit creditPrice true = .ok (false, ltv, fee) →
        insolvencyCheckCalc avg assets credit creditPrice false = .ok (false, ltv, fee)) ∧
    ∀ deps env config prices basket credit creditPrice ltv fee avg,
      insolvencyCheck deps env config prices basket assets credit creditPrice true =
        .ok ((false, ltv, fee), avg) →
      avg.avgBorrowLTV ≤ avg.avgMaxLTV ∧
      insolvencyCheck deps env config prices basket assets credit creditPrice false =
        .ok ((false, ltv, fee), avg) := by
  have hcalc : ∀ values prices avg, calculateAvgLTV values prices assets = .ok avg →
      avg.avgBorrowLTV ≤ avg.avgMaxLTV ∧
      ∀ credit creditPrice ltv fee,
        insolvencyCheckCalc avg assets credit creditPrice true = .ok (false, ltv, fee) →
        insolvencyCheckCalc avg assets credit creditPrice false = .ok (false, ltv, fee) := by
    intro values prices avg havg
    have hle : avg.avgBorrowLTV ≤ avg.avgMaxLTV := calculateAvgLTV_le each havg
    refine ⟨hle, fun credit creditPrice ltv fee done => ?_⟩
    obtain ⟨hfee, total, hsum, hcases⟩ := insolvencyCheckCalc_solvent.mp done
    apply insolvencyCheckCalc_solvent.mpr
    refine ⟨hfee, total, hsum, hcases.imp_right ?_⟩
    rintro ⟨hdebt, htotal, debtValue, hvalue, hdiv, hltv⟩
    exact ⟨hdebt, htotal, debtValue, hvalue, hdiv, Nat.le_trans hltv hle⟩
  refine ⟨hcalc, ?_⟩
  intro deps env config prices basket credit creditPrice ltv fee avg done
  simp only [insolvencyCheck, getAvgLTV, bind_eq_ok, pure_eq_ok, Prod.mk.injEq] at done ⊢
  obtain ⟨average, ⟨⟨values, read⟩, hvalues, havg⟩, _, hborrow, rfl, rfl⟩ := done
  obtain ⟨hle, hsolvent⟩ := hcalc values read average havg
  refine ⟨hle, average, ⟨(values, read), hvalues, havg⟩, (false, ltv, fee), ?_, rfl, rfl⟩
  exact hsolvent credit creditPrice ltv fee hborrow

/-- One of 2000000 `atom` and one of 1000001 `osmo`, with a margin of a tenth each. -/
private def borrowed : List CAsset :=
  [⟨⟨.nativeToken "atom", 2000000⟩, Decimal.percent 60, Decimal.percent 70, Decimal.one,
    none, none⟩,
    ⟨⟨.nativeToken "osmo", 1000001⟩, Decimal.percent 40, Decimal.percent 50, Decimal.one,
      none, none⟩]

private def borrowedValues : List Decimal := [⟨2000000000000000000⟩, ⟨1000001000000000000⟩]

private def borrowedAverage : AvgLTV :=
  ⟨⟨533333288888903702⟩, ⟨633333288888903702⟩, ⟨3000001000000000000⟩, [],
    [⟨666666444444518518⟩, ⟨333333555555481481⟩]⟩

/-- A position of two assets that has borrowed 1500000 at a price of one. -/
theorem max_borrow_solvent_max_solvent_pair :
    borrowedAverage.avgBorrowLTV ≤ borrowedAverage.avgMaxLTV ∧
    insolvencyCheckCalc borrowedAverage borrowed 1500000 ⟨Decimal.one, 6⟩ false =
      .ok (false, ⟨499999833333388888⟩, 0) := by
  have hmargin := (@max_borrow_solvent_max_solvent borrowed (by decide +kernel)).1
    borrowedValues [] borrowedAverage (by decide +kernel)
  exact ⟨hmargin.1, hmargin.2 1500000 ⟨Decimal.one, 6⟩ ⟨499999833333388888⟩ 0 (by decide +kernel)⟩

end Cdp

end Membrane
