import Membrane.Cdp.Proofs.Kinds
import Membrane.Lib.Traverse

/-!
# What the solvency verdict depends on

The verdict of the insolvency check on a position reads the amount and the two limits
of each collateral entry, and the price of its asset. It depends neither on the rest of
an entry nor on the order of the entries.
-/

namespace Membrane.Cdp

open Outcome

/-- What the insolvency check reads of a collateral entry. -/
def stake (cAsset : CAsset) : Asset × Decimal × Decimal :=
  (cAsset.asset, cAsset.maxBorrowLTV, cAsset.maxLTV)

/-! ## Averages -/

section

variable {assets assets' : List CAsset}

theorem map_stake_perm {α : Type} (read : Asset × Decimal × Decimal → α)
    (perm : (assets.map stake).Perm (assets'.map stake)) :
    (assets.map fun cAsset => read (stake cAsset)).Perm
      (assets'.map fun cAsset => read (stake cAsset)) := by
  have hread := perm.map read
  rwa [List.map_map, List.map_map] at hread

theorem weightedLTV_perm {limit : CAsset → Decimal} {ratio : Asset × Decimal × Decimal → Decimal}
    {average : Decimal} (weigh : Asset × Decimal × Decimal → Decimal)
    (reads : ∀ cAsset, limit cAsset = weigh (stake cAsset))
    (perm : (assets.map stake).Perm (assets'.map stake))
    (done : weightedLTV limit (assets.map fun cAsset => ratio (stake cAsset)) assets =
      .ok average) :
    weightedLTV limit (assets'.map fun cAsset => ratio (stake cAsset)) assets' = .ok average := by
  have hfold : ∀ assets : List CAsset,
      weightedLTV limit (assets.map fun cAsset => ratio (stake cAsset)) assets =
        (assets.map stake).foldlM (fun acc key => do
          Decimal.add acc (← decimalMultiplication (ratio key) (weigh key))) Decimal.zero := by
    intro assets
    unfold weightedLTV
    rw [foldlM_zipIdx_map (fun cAsset => ratio (stake cAsset)) (fun acc cAsset ratio => do
      Decimal.add acc (← decimalMultiplication ratio (limit cAsset))), List.foldlM_map]
    congr 1
    funext acc cAsset
    rw [reads]
  rw [hfold] at done ⊢
  refine foldlM_perm (fun acc a b result h => ?_) perm done
  simp only [bind_eq_ok] at h ⊢
  obtain ⟨_, ⟨x, hx, hfirst⟩, y, hy, hsecond⟩ := h
  obtain ⟨mid, hfirst', hsecond'⟩ := bind_eq_ok.mp
    (Decimal.add_swaps acc x y result (bind_eq_ok.mpr ⟨_, hfirst, hsecond⟩))
  exact ⟨mid, ⟨y, hy, hfirst'⟩, x, hx, hsecond'⟩

structure SameAverages (avg avg' : AvgLTV) : Prop where
  borrow : avg'.avgBorrowLTV = avg.avgBorrowLTV
  max : avg'.avgMaxLTV = avg.avgMaxLTV
  value : avg'.totalValue = avg.totalValue

theorem ratiosOf_perm {value : Asset × Decimal × Decimal → Decimal} {total : Decimal}
    {ratios : List Decimal} (perm : (assets.map stake).Perm (assets'.map stake))
    (done : ratiosOf (assets.map fun cAsset => value (stake cAsset)) total = .ok ratios) :
    ∃ ratio : Asset × Decimal × Decimal → Decimal,
      ratios = assets.map (fun cAsset => ratio (stake cAsset)) ∧
      ratiosOf (assets'.map fun cAsset => value (stake cAsset)) total =
        .ok (assets'.map fun cAsset => ratio (stake cAsset)) := by
  unfold ratiosOf at done ⊢
  let share : Decimal → Outcome StdError Decimal := fun value =>
    if total.isZero then pure Decimal.zero else decimalDivision value total
  obtain ⟨hall, hratios⟩ := (mapM_eq_ok_iff (f := share) Decimal.zero).mp done
  rw [List.map_map] at hratios
  refine ⟨fun key => (share (value key)).getD Decimal.zero, hratios, ?_⟩
  refine (mapM_eq_ok_iff (f := share) Decimal.zero).mpr ⟨fun v hmem => ?_, ?_⟩
  · exact hall v ((map_stake_perm value perm).mem_iff.mpr hmem)
  · rw [List.map_map]
    rfl

theorem calculateAvgLTV_perm {value : Asset × Decimal × Decimal → Decimal}
    {prices prices' : List PriceResponse} {avg : AvgLTV}
    (perm : (assets.map stake).Perm (assets'.map stake))
    (done : calculateAvgLTV (assets.map fun cAsset => value (stake cAsset)) prices assets =
      .ok avg) :
    ∃ avg', calculateAvgLTV (assets'.map fun cAsset => value (stake cAsset)) prices' assets' =
      .ok avg' ∧ SameAverages avg avg' := by
  simp only [calculateAvgLTV, bind_eq_ok] at done ⊢
  obtain ⟨total, hsum, ratios, hratios, hrest⟩ := done
  obtain ⟨ratio, rfl, hratios'⟩ := ratiosOf_perm perm hratios
  have hlength : assets.length = assets'.length := by simpa using perm.length_eq
  have hsum' := Decimal.sum_perm (map_stake_perm value perm) hsum
  simp only [List.length_map] at hrest ⊢
  split at hrest
  case isTrue hempty =>
    obtain rfl := pure_eq_ok.mp hrest
    refine ⟨_, ⟨total, hsum', _, hratios', ?_⟩, rfl, rfl, rfl⟩
    rw [List.length_map, if_pos (hlength.symm.trans hempty)]
    rfl
  case isFalse hsome =>
    have hsome' : ¬ assets'.length = 0 := hlength ▸ hsome
    split at hrest
    case isTrue hone =>
      simp only [bind_eq_ok, index_eq_ok, pure_eq_ok] at hrest
      obtain ⟨only, honly, rfl⟩ := hrest
      obtain ⟨a, rfl⟩ := List.length_eq_one_iff.mp hone
      obtain ⟨b, rfl⟩ := List.length_eq_one_iff.mp (hlength ▸ hone)
      obtain rfl : a = only := by simpa using honly
      have hstake : stake a = stake b := by simpa using perm
      simp only [stake, Prod.mk.injEq] at hstake
      refine ⟨⟨b.maxBorrowLTV, b.maxLTV, total, prices', [ratio (stake b)]⟩,
        ⟨total, hsum', _, hratios', ?_⟩, ?_⟩
      · rfl
      · exact ⟨hstake.2.1.symm, hstake.2.2.symm, rfl⟩
    case isFalse hmany =>
      have hmany' : ¬ assets'.length = 1 := hlength ▸ hmany
      simp only [bind_eq_ok, pure_eq_ok] at hrest
      obtain ⟨borrow, hborrow, max, hmax, rfl⟩ := hrest
      have hborrow' := weightedLTV_perm (fun key => key.2.1) (fun _ => rfl) perm hborrow
      have hmax' := weightedLTV_perm (fun key => key.2.2) (fun _ => rfl) perm hmax
      refine ⟨⟨borrow, max, total, prices', assets'.map fun cAsset => ratio (stake cAsset)⟩,
        ⟨total, hsum', _, hratios', ?_⟩, rfl, rfl, rfl⟩
      rw [List.length_map, if_neg hsome', if_neg hmany']
      simp only [bind_eq_ok, pure_eq_ok]
      exact ⟨borrow, hborrow', max, hmax', rfl⟩

/-! ## The check -/

theorem insolvencyCheckCalc_perm {avg avg' : AvgLTV} {creditAmount : Nat}
    {creditPrice : PriceResponse} {maxBorrow : Bool} {verdict : Bool × Decimal × Nat}
    (same : SameAverages avg avg') (perm : (assets.map stake).Perm (assets'.map stake))
    (done : insolvencyCheckCalc avg assets creditAmount creditPrice maxBorrow = .ok verdict) :
    insolvencyCheckCalc avg' assets' creditAmount creditPrice maxBorrow = .ok verdict := by
  simp only [insolvencyCheckCalc, bind_eq_ok] at done ⊢
  obtain ⟨total, hsum, hrest⟩ := done
  refine ⟨total, Uint128.sum_perm (map_stake_perm (fun key => key.1.amount) perm) hsum, ?_⟩
  rw [same.borrow, same.max, same.value]
  exact hrest

def ReadsPrices (deps : Deps) (env : Env) (config : Config) (prices : PriceStore) (basket : Basket)
    (price : AssetInfo → PriceResponse) (assets : List CAsset) : Prop :=
  queryPrices deps env config prices (assets.map (·.asset.info)) basket false =
    .ok (assets.map fun cAsset => price cAsset.asset.info)

variable {deps : Deps} {env : Env} {config : Config} {prices : PriceStore} {basket : Basket}
  {price : AssetInfo → PriceResponse}

def stakeValue (price : AssetInfo → PriceResponse) (key : Asset × Decimal × Decimal) : Decimal :=
  ((price key.1.info).getValue key.1.amount).getD Decimal.zero

theorem getAssetValues_eq {values : List Decimal} {read : List PriceResponse}
    (oracle : config.oracleContract.isSome = true) (some : 0 < assets.length)
    (reads : ReadsPrices deps env config prices basket price assets) :
    getAssetValues deps env config prices assets basket false = .ok (values, read) ↔
      assets.length ≤ 50 ∧ read = assets.map (fun cAsset => price cAsset.asset.info) ∧
      (∀ key ∈ assets.map stake, (price key.1.info).getValue key.1.amount =
        .ok (stakeValue price key)) ∧
      values = assets.map fun cAsset => stakeValue price (stake cAsset) := by
  have hvalues : (assets.zipIdx.mapM fun entry => do
      let read ← index (assets.map fun cAsset => price cAsset.asset.info) entry.2
      read.getValue entry.1.asset.amount : Outcome StdError (List Decimal)) =
        assets.mapM fun cAsset => (price cAsset.asset.info).getValue cAsset.asset.amount :=
    mapM_zipIdx_map (fun cAsset : CAsset => price cAsset.asset.info)
      (fun cAsset read => read.getValue cAsset.asset.amount) assets
  simp only [getAssetValues, bind_eq_ok, guardErr_eq_ok, pure_eq_ok, if_pos (And.intro oracle some)]
  rw [show queryPrices _ _ _ _ _ _ _ = _ from reads]
  simp only [Except.ok.injEq, exists_eq_left', hvalues]
  simp only [mapM_eq_ok_iff Decimal.zero, Prod.mk.injEq]
  refine ⟨?_, ?_⟩
  · rintro ⟨_, hlength, _, ⟨hall, rfl⟩, rfl, rfl⟩
    refine ⟨Nat.le_of_not_lt hlength, rfl, fun key hmem => ?_, rfl⟩
    obtain ⟨cAsset, hcAsset, rfl⟩ := List.mem_map.mp hmem
    exact hall cAsset hcAsset
  · rintro ⟨hlength, rfl, hall, rfl⟩
    exact ⟨⟨⟩, Nat.not_lt_of_le hlength, _,
      ⟨fun cAsset hmem => hall _ (List.mem_map_of_mem hmem), rfl⟩, rfl, rfl⟩

theorem insolvencyCheck_perm {creditAmount : Nat} {creditPrice : PriceResponse} {maxBorrow : Bool}
    {verdict : Bool × Decimal × Nat} {avg : AvgLTV}
    (perm : (assets.map stake).Perm (assets'.map stake))
    (reads : assets ≠ [] → ReadsPrices deps env config prices basket price assets)
    (reads' : assets' ≠ [] → ReadsPrices deps env config prices basket price assets')
    (done : insolvencyCheck deps env config prices basket assets creditAmount creditPrice
      maxBorrow =
      .ok (verdict, avg)) :
    ∃ avg', insolvencyCheck deps env config prices basket assets' creditAmount creditPrice
      maxBorrow = .ok (verdict, avg') := by
  have hlength : assets.length = assets'.length := by simpa using perm.length_eq
  simp only [insolvencyCheck, getAvgLTV, bind_eq_ok, pure_eq_ok, Prod.mk.injEq] at done ⊢
  obtain ⟨average, ⟨⟨values, read⟩, hvalues, havg⟩, _, hcalc, rfl, -⟩ := done
  suffices h : ∃ result avg', getAssetValues deps env config prices assets' basket false =
      .ok result ∧ calculateAvgLTV result.1 result.2 assets' = .ok avg' ∧
        SameAverages average avg' by
    obtain ⟨result, avg', hvalues', havg', hsame⟩ := h
    exact ⟨avg', avg', ⟨result, hvalues', havg'⟩, _, insolvencyCheckCalc_perm hsame perm hcalc, rfl,
      rfl⟩
  by_cases hprices : config.oracleContract.isSome = true ∧ 0 < assets.length
  · have hsome' : 0 < assets'.length := hlength ▸ hprices.2
    have hread := reads (List.ne_nil_of_length_pos hprices.2)
    have hread' := reads' (List.ne_nil_of_length_pos hsome')
    obtain ⟨hle, -, hall, rfl⟩ := (getAssetValues_eq hprices.1 hprices.2 hread).mp hvalues
    obtain ⟨avg', havg', hsame⟩ := calculateAvgLTV_perm perm havg
    refine ⟨⟨_, _⟩, avg', (getAssetValues_eq hprices.1 hsome' hread').mpr
      ⟨hlength ▸ hle, rfl, fun key hmem => ?_, rfl⟩, havg', hsame⟩
    exact hall key (perm.mem_iff.mpr hmem)
  · -- without an oracle, or without entries, no value is read
    have hprices' : ¬ (config.oracleContract.isSome = true ∧ 0 < assets'.length) :=
      hlength ▸ hprices
    simp only [getAssetValues, bind_eq_ok, guardErr_eq_ok, if_neg hprices, pure_eq_ok,
      Prod.mk.injEq] at hvalues
    obtain ⟨_, hle, rfl, rfl⟩ := hvalues
    refine ⟨([], []), average, ?_, havg, rfl, rfl, rfl⟩
    simp only [getAssetValues, bind_eq_ok, guardErr_eq_ok, if_neg hprices', pure_eq_ok]
    exact ⟨⟨⟩, hlength ▸ hle, trivial⟩

end

end Membrane.Cdp
