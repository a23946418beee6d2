import Membrane.Cdp.Proofs.Conservation
import Mathlib.Data.List.Induction

/-!
# Assets that must leave a position

A supply cap of zero says that the basket no longer trusts an asset. A withdrawal from a
position that holds such assets must be of one of them alone or take them in full. The check
keeps one flag over all caps and every such asset overwrites it, so its verdict is that of
the last one: the assets before it leave only where that one's leaving implies it.
-/

namespace Membrane

open Outcome

namespace Cdp

/-! ## What must leave -/

/-- The entry of an asset in a list, its first one. -/
def entryOf (assets : List Asset) (info : AssetInfo) : Option Asset :=
  assets.find? fun asset => asset.info.equal info

def zeroAndHeld (positionAssets : List Asset) (cap : SupplyCap) : Bool :=
  cap.supplyCapRatio.isZero && (entryOf positionAssets cap.assetInfo).isSome

def zeroCapsHeld (positionAssets : List Asset) (caps : List SupplyCap) : List SupplyCap :=
  caps.filter (zeroAndHeld positionAssets)

def WithdrawnAlone (withdrawalAssets : List Asset) (info : AssetInfo) : Prop :=
  withdrawalAssets.map (·.info) = [info]

def WithdrawnInFull (positionAssets withdrawalAssets : List Asset) (info : AssetInfo) : Prop :=
  ∃ held ∈ entryOf positionAssets info, ∃ withdrawn ∈ entryOf withdrawalAssets info,
    withdrawn.amount = held.amount

/-- The withdrawal lets `info` leave the position. -/
def Leaves (positionAssets withdrawalAssets : List Asset) (info : AssetInfo) : Prop :=
  WithdrawnAlone withdrawalAssets info ∨ WithdrawnInFull positionAssets withdrawalAssets info

instance (positionAssets withdrawalAssets : List Asset) (info : AssetInfo) :
    Decidable (WithdrawnInFull positionAssets withdrawalAssets info) :=
  inferInstanceAs (Decidable (∃ held ∈ entryOf positionAssets info, _))

instance (positionAssets withdrawalAssets : List Asset) (info : AssetInfo) :
    Decidable (Leaves positionAssets withdrawalAssets info) :=
  inferInstanceAs (Decidable (withdrawalAssets.map (·.info) = [info] ∨ _))

/-- Where the last of these caps lets its asset leave, so do the caps before it. -/
def LastDecides (positionAssets withdrawalAssets : List Asset) (caps : List SupplyCap) : Prop :=
  ∀ earlier last, zeroCapsHeld positionAssets caps = earlier ++ [last] →
    Leaves positionAssets withdrawalAssets last.assetInfo →
      ∀ cap ∈ earlier, Leaves positionAssets withdrawalAssets cap.assetInfo

theorem mem_zeroCapsHeld {positionAssets : List Asset} {caps : List SupplyCap} {cap : SupplyCap} :
    cap ∈ zeroCapsHeld positionAssets caps ↔
      cap ∈ caps ∧ cap.supplyCapRatio.isZero = true ∧
        (entryOf positionAssets cap.assetInfo).isSome = true := by
  rw [zeroCapsHeld, List.mem_filter, zeroAndHeld, Bool.and_eq_true]

theorem LastDecides.of_one {positionAssets withdrawalAssets : List Asset} {caps : List SupplyCap}
    (one : (zeroCapsHeld positionAssets caps).length ≤ 1) :
    LastDecides positionAssets withdrawalAssets caps := by
  intro earlier last heq _ cap mem
  rw [heq, List.length_append, List.length_singleton] at one
  have hlength := List.length_pos_of_mem mem
  omega

/-! ## The loop over the caps -/

section

variable {positionAssets withdrawalAssets : List Asset} {caps : List SupplyCap} {cap : SupplyCap}

theorem withdrawnAlone_iff {first : Asset} {info : AssetInfo}
    (head : withdrawalAssets[0]? = some first) :
    first.info.equal info = true ∧ withdrawalAssets.length = 1 ↔
      WithdrawnAlone withdrawalAssets info := by
  cases withdrawalAssets with
  | nil => cases head
  | cons asset rest =>
    cases head
    rw [AssetInfo.equal_iff, WithdrawnAlone, List.map_cons, List.cons_eq_cons, List.map_eq_nil_iff,
      List.length_cons, Nat.add_eq_right, List.length_eq_zero_iff]

theorem entryOf_info {assets : List Asset} {info : AssetInfo} {asset : Asset}
    (found : entryOf assets info = some asset) : asset.info = info := by
  have hequal := List.find?_some (p := fun asset : Asset => asset.info.equal info) found
  exact AssetInfo.equal_iff.mp hequal

theorem Leaves.nonempty {info : AssetInfo} (leaves : Leaves positionAssets withdrawalAssets info) :
    withdrawalAssets ≠ [] := by
  rintro rfl
  rcases leaves with alone | ⟨_, _, _, found, _⟩
  · cases alone
  · cases found

theorem expungedStep_skips (acc : Bool × List String)
    (skip : zeroAndHeld positionAssets cap = false) :
    expungedStep positionAssets withdrawalAssets acc cap = .ok acc := by
  unfold expungedStep
  by_cases hzero : cap.supplyCapRatio.isZero = true
  · rw [if_pos hzero]
    cases hfound : entryOf positionAssets cap.assetInfo with
    | none =>
      rw [entryOf] at hfound
      rw [hfound]
      rfl
    | some held => simp [zeroAndHeld, hzero, hfound] at skip
  · rw [if_neg hzero]
    rfl

theorem expungedStep_sets (acc : Bool × List String) {first : Asset}
    (head : withdrawalAssets[0]? = some first)
    (concerns : zeroAndHeld positionAssets cap = true) :
    ∃ invalid, expungedStep positionAssets withdrawalAssets acc cap =
      .ok (decide (Leaves positionAssets withdrawalAssets cap.assetInfo), invalid) := by
  rw [zeroAndHeld, Bool.and_eq_true, Option.isSome_iff_exists] at concerns
  obtain ⟨hzero, held, hheld⟩ := concerns
  have hinfo : held.info = cap.assetInfo := entryOf_info hheld
  have hindex : (Outcome.index withdrawalAssets 0 : Outcome StdError Asset) = .ok first :=
    index_eq_ok.mpr head
  have hfind :
      positionAssets.find? (fun asset => asset.info.equal cap.assetInfo) = some held := hheld
  unfold expungedStep
  rw [if_pos hzero, hfind]
  simp only [hindex, hinfo]
  by_cases halone : WithdrawnAlone withdrawalAssets cap.assetInfo
  · have hleaves : Leaves positionAssets withdrawalAssets cap.assetInfo := .inl halone
    refine ⟨acc.2, ?_⟩
    rw [decide_eq_true hleaves]
    exact if_pos ((withdrawnAlone_iff head).mpr halone)
  · have hif : ¬ (first.info.equal cap.assetInfo = true ∧ withdrawalAssets.length = 1) :=
      fun h => halone ((withdrawnAlone_iff head).mp h)
    cases hentry : entryOf withdrawalAssets cap.assetInfo with
    | none =>
      have hstays : ¬ Leaves positionAssets withdrawalAssets cap.assetInfo := by
        rintro (h | ⟨_, _, _, found, _⟩)
        · exact halone h
        · rw [hentry] at found
          cases found
      rw [entryOf] at hentry
      refine ⟨acc.2 ++ [cap.assetInfo.toText], ?_⟩
      rw [decide_eq_false hstays, hentry]
      exact if_neg hif
    | some withdrawn =>
      have hfull : Leaves positionAssets withdrawalAssets cap.assetInfo ↔
          withdrawn.amount = held.amount := by
        constructor
        · rintro (h | ⟨held', hheld', withdrawn', hwithdrawn', hamount⟩)
          · exact absurd h halone
          · rw [hheld] at hheld'
            rw [hentry] at hwithdrawn'
            cases hheld'
            cases hwithdrawn'
            exact hamount
        · intro hamount
          exact .inr ⟨held, hheld, withdrawn, hentry, hamount⟩
      rw [entryOf] at hentry
      simp only [hfull, hentry]
      by_cases hamount : withdrawn.amount = held.amount
      · refine ⟨acc.2, ?_⟩
        rw [decide_eq_true hamount, if_pos hamount]
        exact if_neg hif
      · refine ⟨acc.2 ++ [cap.assetInfo.toText], ?_⟩
        rw [decide_eq_false hamount, if_neg hamount]
        exact if_neg hif

def verdict (positionAssets withdrawalAssets : List Asset) (caps : List SupplyCap) : Bool :=
  match (zeroCapsHeld positionAssets caps).getLast? with
  | none => true
  | some last => decide (Leaves positionAssets withdrawalAssets last.assetInfo)

theorem verdict_skips
    (skip : zeroAndHeld positionAssets cap = false) :
    verdict positionAssets withdrawalAssets (caps ++ [cap]) =
      verdict positionAssets withdrawalAssets caps := by
  rw [verdict, zeroCapsHeld, List.filter_append, List.filter_singleton, skip, cond_false,
    List.append_nil]
  rfl

theorem verdict_sets
    (concerns : zeroAndHeld positionAssets cap = true) :
    verdict positionAssets withdrawalAssets (caps ++ [cap]) =
      decide (Leaves positionAssets withdrawalAssets cap.assetInfo) := by
  rw [verdict, zeroCapsHeld, List.filter_append, List.filter_singleton, concerns, cond_true,
    List.getLast?_append, List.getLast?_singleton]
  rfl

theorem expungedLoop_verdict {first : Asset} (head : withdrawalAssets[0]? = some first) :
    ∃ invalid, caps.foldlM (expungedStep positionAssets withdrawalAssets) (true, []) =
      .ok (verdict positionAssets withdrawalAssets caps, invalid) := by
  induction caps using List.reverseRecOn with
  | nil => exact ⟨[], rfl⟩
  | append_singleton rest cap ih =>
    obtain ⟨invalid, hrest⟩ := ih
    rw [foldlM_snoc hrest]
    cases concerns : zeroAndHeld positionAssets cap with
    | true =>
      rw [verdict_sets concerns]
      exact expungedStep_sets _ head concerns
    | false =>
      refine ⟨invalid, ?_⟩
      rw [verdict_skips concerns]
      exact expungedStep_skips _ concerns

theorem expungedLoop_nothing :
    (∃ out, caps.foldlM (expungedStep positionAssets []) (true, []) = .ok out ∧ out.1 = true) ↔
      zeroCapsHeld positionAssets caps = [] := by
  constructor
  · rintro ⟨out, done, -⟩
    rw [zeroCapsHeld, List.filter_eq_nil_iff]
    intro cap mem concerns
    refine foldlM_fails (fun acc acc' hstep => ?_) mem _ _ done
    rw [zeroAndHeld, Bool.and_eq_true, Option.isSome_iff_exists] at concerns
    obtain ⟨hzero, held, hheld⟩ := concerns
    rw [entryOf] at hheld
    unfold expungedStep at hstep
    rw [if_pos hzero, hheld] at hstep
    cases hstep
  · intro none
    refine ⟨(true, []), ?_, rfl⟩
    rw [zeroCapsHeld, List.filter_eq_nil_iff] at none
    induction caps with
    | nil => rfl
    | cons cap rest ih =>
      have hskip : zeroAndHeld positionAssets cap = false :=
        Bool.eq_false_iff.mpr (none cap List.mem_cons_self)
      rw [List.foldlM_cons, expungedStep_skips _ hskip]
      exact ih fun cap' mem => none cap' (List.mem_cons_of_mem _ mem)

end

/-! ## The check -/

theorem checkForExpunged_eq_ok {positionAssets withdrawalAssets : List CAsset} {basket : Basket} :
    checkForExpunged positionAssets withdrawalAssets basket = .ok ⟨⟩ ↔
      ∀ last ∈ (zeroCapsHeld (positionAssets.map (·.asset)) basket.collateralSupplyCaps).getLast?,
        Leaves (positionAssets.map (·.asset)) (withdrawalAssets.map (·.asset)) last.assetInfo := by
  have hcheck : checkForExpunged positionAssets withdrawalAssets basket = .ok ⟨⟩ ↔
      ∃ out, basket.collateralSupplyCaps.foldlM (expungedStep (positionAssets.map (·.asset))
        (withdrawalAssets.map (·.asset))) (true, []) = .ok out ∧ out.1 = true := by
    rw [checkForExpunged, bind_eq_ok]
    simp only [guardErr_eq_ok, Bool.not_eq_false]
  rw [hcheck]
  generalize withdrawalAssets.map (·.asset) = withdrawn
  generalize positionAssets.map (·.asset) = held
  cases withdrawn with
  | nil =>
    rw [expungedLoop_nothing, ← List.getLast?_eq_none_iff]
    cases hlast : (zeroCapsHeld held basket.collateralSupplyCaps).getLast? with
    | none => simp
    | some last =>
      constructor
      · intro h
        cases h
      · intro h
        exact absurd rfl (h last rfl).nonempty
  | cons first rest =>
    have hloop : ∃ invalid, basket.collateralSupplyCaps.foldlM (expungedStep held (first :: rest))
        (true, []) = .ok (verdict held (first :: rest) basket.collateralSupplyCaps, invalid) :=
      expungedLoop_verdict rfl
    obtain ⟨invalid, hloop⟩ := hloop
    rw [hloop, verdict]
    cases (zeroCapsHeld held basket.collateralSupplyCaps).getLast? with
    | none => simp
    | some last => simp

/-- A withdrawal that the check lets pass lets every asset with a zero cap leave the
    position exactly where the last of these caps decides. -/
theorem expunged_leave_iff (positionAssets withdrawalAssets : List CAsset) (basket : Basket) :
    (checkForExpunged positionAssets withdrawalAssets basket = .ok ⟨⟩ →
      ∀ cap ∈ basket.collateralSupplyCaps, cap.supplyCapRatio.isZero = true →
        (entryOf (positionAssets.map (·.asset)) cap.assetInfo).isSome = true →
          Leaves (positionAssets.map (·.asset)) (withdrawalAssets.map (·.asset)) cap.assetInfo) ↔
      LastDecides (positionAssets.map (·.asset)) (withdrawalAssets.map (·.asset))
        basket.collateralSupplyCaps := by
  rw [checkForExpunged_eq_ok]
  constructor
  · intro h earlier last heq hlast cap mem
    have hmem : cap ∈ zeroCapsHeld (positionAssets.map (·.asset)) basket.collateralSupplyCaps := by
      rw [heq]
      exact List.mem_append_left _ mem
    obtain ⟨hcap, hzero, hheld⟩ := mem_zeroCapsHeld.mp hmem
    refine h (fun last' hlast' => ?_) cap hcap hzero hheld
    rw [heq, List.getLast?_append, List.getLast?_singleton] at hlast'
    cases hlast'
    exact hlast
  · intro h hpassed cap hcap hzero hheld
    have hmem := mem_zeroCapsHeld.mpr ⟨hcap, hzero, hheld⟩
    obtain ⟨last, earlier, heq⟩ :
        ∃ last earlier, zeroCapsHeld (positionAssets.map (·.asset)) basket.collateralSupplyCaps =
          earlier ++ [last] := by
      have hne := List.ne_nil_of_mem hmem
      exact ⟨_, _, (List.dropLast_append_getLast hne).symm⟩
    have hlast := hpassed last (by rw [heq, List.getLast?_append, List.getLast?_singleton]; rfl)
    rw [heq] at hmem
    rcases List.mem_append.mp hmem with hearlier | hself
    · exact h earlier last heq hlast cap hearlier
    · rw [List.mem_singleton.mp hself]
      exact hlast

/-! ## Two assets at zero -/

private def sampleCollateral (denom : String) (amount : Nat) : CAsset :=
  ⟨⟨.nativeToken denom, amount⟩, Decimal.percent 40, Decimal.percent 60, Decimal.one, none, none⟩

private def sampleZeroCap (denom : String) : SupplyCap :=
  ⟨.nativeToken denom, 100, 0, Decimal.zero, false, none⟩

private def sampleExpunging : Basket := { sampleBasket with
  collateralTypes := [sampleCollateral "uluna" 100, sampleCollateral "uatom" 100]
  collateralSupplyCaps := [sampleZeroCap "uluna", sampleZeroCap "uatom"] }

private def samplePair : List CAsset := [sampleCollateral "uluna" 100, sampleCollateral "uatom" 100]

private def sampleSecond : List CAsset := [sampleCollateral "uatom" 1]

/-- A position holds two assets with zero caps. Withdrawing some of the second alone passes,
    and the first stays. -/
theorem not_expunged_leave :
    ¬ (checkForExpunged samplePair sampleSecond sampleExpunging = .ok ⟨⟩ →
      ∀ cap ∈ sampleExpunging.collateralSupplyCaps, cap.supplyCapRatio.isZero = true →
        (entryOf (samplePair.map (·.asset)) cap.assetInfo).isSome = true →
          Leaves (samplePair.map (·.asset)) (sampleSecond.map (·.asset)) cap.assetInfo) := by
  decide +kernel

end Cdp

end Membrane
