import Membrane.Cdp.Proofs.Accrual
import Membrane.Cdp.Proofs.Conservation
import Membrane.Lib.Truncation

/-!
# The debt caps of the collateral

The total debt cap is the liquidity cap with the stability pool space the contract may use,
or the configured minimum. What is set aside for caps based on the stability pool is taken
off it, at the pool's space; the caps themselves are granted on its whole liquidity. The
rest goes to the other collateral types by their share of the value. The total covers what
is granted exactly where the grants beyond what was set aside fit into what the shares
leave of the rest.
-/

namespace Membrane

open Outcome

namespace Cdp

/-! ## What a computation reads -/

/-- The numbers that debt caps are computed from. -/
structure CapInputs where
  cAssetRatios : List Decimal
  ownerParams : Decimal × Decimal
  liquidity : Nat
  spLiquidity : Nat

/-- The debt of the basket can be split: every type with a cap has a share, the debt is a
    decimal, and the transformed caps, where there are any, reach the type. -/
def Splittable (cAssetRatios : List Decimal) (creditAmount : Nat) (caps supplyCaps : List SupplyCap)
    (entry : CAsset × Nat) : Prop :=
  ∀ cap ∈ caps, cap.assetInfo.equal entry.1.asset.info = true →
    entry.2 < cAssetRatios.length ∧ creditAmount * Decimal.fractional < Uint128.limit ∧
      (0 < supplyCaps.length → entry.2 < supplyCaps.length)

namespace CapInputs

variable (inputs : CapInputs) (config : Config) (terms : List (Decimal × Option Decimal))

def spCapSpace : Nat := inputs.spLiquidity * inputs.ownerParams.2.atomics

def liquidityCap : Nat :=
  inputs.liquidity * inputs.ownerParams.1.atomics / Decimal.fractional +
    inputs.spCapSpace / Decimal.fractional

def totalDebtCap : Nat :=
  max inputs.liquidityCap (config.baseDebtCapMultiplier * config.debtMinimum)

def setAsideFor (term : Decimal × Option Decimal) : Nat :=
  match term.2 with
  | some spRatio =>
    inputs.spCapSpace * spRatio.atomics / Decimal.fractional / Decimal.fractional
  | none => 0

def setAside : Nat := (terms.map inputs.setAsideFor).sum

def rest : Nat := inputs.totalDebtCap config - inputs.setAside terms

def poolRatio (entry : Decimal × Nat) : Nat :=
  match terms[entry.2]? with
  | some (supplyCapRatio, some spRatio) => if supplyCapRatio.isZero then 0 else spRatio.atomics
  | _ => 0

def valueShare (entry : Decimal × Nat) : Nat :=
  match terms[entry.2]? with
  | some (_, some _) => 0
  | some (supplyCapRatio, none) => if supplyCapRatio.isZero then 0 else entry.1.atomics
  | none => entry.1.atomics

def spGrant (entry : Decimal × Nat) : Nat :=
  inputs.spLiquidity * poolRatio terms entry / Decimal.fractional

def shareGrant (entry : Decimal × Nat) : Nat :=
  inputs.rest config terms * valueShare terms entry / Decimal.fractional

def poolRatios : Nat := (inputs.cAssetRatios.zipIdx.map (poolRatio terms)).sum

def valueShares : Nat := (inputs.cAssetRatios.zipIdx.map (valueShare terms)).sum

def cutOff : Nat :=
  (inputs.cAssetRatios.zipIdx.map fun entry =>
    inputs.spLiquidity * poolRatio terms entry % Decimal.fractional).sum +
  (inputs.cAssetRatios.zipIdx.map fun entry =>
    inputs.rest config terms * valueShare terms entry % Decimal.fractional).sum

end CapInputs

/-- What is set aside leaves something of the total; and what the parts of the whole stability
    pool come to beyond it is at most what the other types, those with no share of the rest,
    would have of it, with what truncation cuts off. -/
structure CapsCovered (config : Config) (terms : List (Decimal × Option Decimal))
    (inputs : CapInputs) : Prop where
  leaves : inputs.setAside terms < inputs.totalDebtCap config
  excess : inputs.spLiquidity * inputs.poolRatios terms -
      inputs.setAside terms * Decimal.fractional ≤
    inputs.rest config terms * (Decimal.fractional - inputs.valueShares terms) +
      inputs.cutOff config terms

section

variable {cAssetRatios : List Decimal} {creditAmount : Nat} {entry : CAsset × Nat}
  {acc acc' : List SupplyCap × List SupplyCap} {cap : SupplyCap}

end

/-! ## The total cap -/

section

variable {inputs : CapInputs} {caps : List SupplyCap} {debtCap rest : Nat}

end

section

variable {deps : Deps} {env : Env} {config : Config} {basket : Basket}
  {cdtLiquidity : Option Nat} {inputs : CapInputs} {out : Nat × Decimal}

end

/-! ## The cap of one type -/

theorem getCAssetRatiosImut_sum {deps : Deps} {env : Env} {config : Config} {prices : PriceStore}
    {collateral : List CAsset} {basket : Basket} {ratios : List Decimal}
    {cAssetPrices : List PriceResponse}
    (done : getCAssetRatiosImut deps env config prices collateral basket =
      .ok (ratios, cAssetPrices)) : (ratios.map (·.atomics)).sum ≤ Decimal.fractional := by
  obtain ⟨⟨values, read⟩, -, done⟩ := bind_eq_ok.mp done
  obtain ⟨total, htotal, done⟩ := bind_eq_ok.mp done
  obtain ⟨-, rfl⟩ := Decimal.sum_eq_ok.mp htotal
  obtain ⟨shares, hshares, done⟩ := bind_eq_ok.mp done
  cases pure_eq_ok.mp done
  have hvalues : ∀ value share : Decimal,
      (if Decimal.isZero ⟨(values.map (·.atomics)).sum⟩ = true then pure Decimal.zero
        else decimalDivision value ⟨(values.map (·.atomics)).sum⟩) = .ok share ↔
      ((values.map (·.atomics)).sum ≠ 0 → value.atomics * Decimal.fractional /
        (values.map (·.atomics)).sum < Uint128.limit) ∧
        share = ⟨value.atomics * Decimal.fractional / (values.map (·.atomics)).sum⟩ := by
    intro value share
    by_cases hzero : (values.map (·.atomics)).sum = 0
    · have hisZero : Decimal.isZero ⟨(values.map (·.atomics)).sum⟩ = true := beq_iff_eq.mpr hzero
      rw [if_pos hisZero, pure_eq_ok, hzero, Nat.div_zero]
      exact ⟨fun h => ⟨fun h' => absurd rfl h', h.symm⟩, fun h => h.2.symm⟩
    · have hisZero : ¬ Decimal.isZero ⟨(values.map (·.atomics)).sum⟩ = true :=
        fun h => hzero (beq_iff_eq.mp h)
      rw [if_neg hisZero, decimalDivision_eq_ok]
      exact ⟨fun h => ⟨fun _ => h.2.1, h.2.2⟩, fun h => ⟨hzero, h.1 hzero, h.2⟩⟩
  obtain ⟨-, rfl⟩ := (mapM_spec fun value _ => hvalues value).mp hshares
  rw [List.map_map]
  exact sum_shares_le (fun value : Decimal => value.atomics) values

section

variable {config : Config} {basket : Basket} {inputs : CapInputs}
  {terms : List (Decimal × Option Decimal)} {entry : Decimal × Nat} {n : Nat}

end

/-! ## All caps -/

section

variable {deps : Deps} {env : Env} {config : Config} {prices : PriceStore} {basket : Basket}
  {supplyCaps : List SupplyCap} {cdtLiquidity : Option Nat} {inputs : CapInputs}

def CapInputs.caps (inputs : CapInputs) (config : Config)
    (terms : List (Decimal × Option Decimal)) :
    List Nat :=
  inputs.cAssetRatios.zipIdx.map fun entry =>
    inputs.spGrant terms entry + inputs.shareGrant config terms entry

theorem sum_range_getD_le (l : List Nat) (n : Nat) :
    ((List.range n).map fun index => l.getD index 0).sum ≤ l.sum := by
  induction l generalizing n with
  | nil => simp
  | cons a rest ih =>
    cases n with
    | zero => exact Nat.zero_le _
    | succ n =>
      rw [List.range_succ_eq_map, List.map_cons, List.map_map, List.sum_cons, List.sum_cons]
      exact Nat.add_le_add_left (ih n) a

theorem CapsCovered.of_unpooled {terms : List (Decimal × Option Decimal)}
    (some : 0 < inputs.totalDebtCap config) (unpooled : ∀ term ∈ terms, term.2 = none) :
    CapsCovered config terms inputs := by
  have haside : inputs.setAside terms = 0 := by
    refine List.sum_eq_zero fun aside mem => ?_
    obtain ⟨term, hterm, rfl⟩ := List.mem_map.mp mem
    rw [CapInputs.setAsideFor, unpooled term hterm]
  have hpool : inputs.poolRatios terms = 0 := by
    refine List.sum_eq_zero fun part mem => ?_
    obtain ⟨entry, -, rfl⟩ := List.mem_map.mp mem
    unfold CapInputs.poolRatio
    split
    case h_1 supplyCapRatio spRatio hterm => cases unpooled _ (List.mem_of_getElem? hterm)
    case h_2 => rfl
  constructor
  · rw [haside]
    exact some
  · rw [hpool, Nat.mul_zero, Nat.zero_sub]
    exact Nat.zero_le _

theorem CapsCovered.of_whole {terms : List (Decimal × Option Decimal)}
    (leaves : inputs.setAside terms < inputs.totalDebtCap config)
    (whole : Decimal.fractional ≤ inputs.ownerParams.2.atomics) :
    CapsCovered config terms inputs := by
  have hgrant : ∀ entry : Decimal × Nat, inputs.spGrant terms entry ≤
      (terms.map inputs.setAsideFor).getD entry.2 0 := by
    intro entry
    unfold CapInputs.spGrant CapInputs.poolRatio
    rw [List.getD_eq_getElem?_getD, List.getElem?_map]
    split
    case h_2 =>
      rw [Nat.mul_zero, Nat.zero_div]
      exact Nat.zero_le _
    case h_1 supplyCapRatio spRatio hterm =>
      rw [hterm]
      show _ ≤ inputs.spLiquidity * inputs.ownerParams.2.atomics * spRatio.atomics /
        Decimal.fractional / Decimal.fractional
      apply Nat.div_le_div_right
      have hpart : (if supplyCapRatio.isZero = true then 0 else spRatio.atomics) ≤
          spRatio.atomics := by
        split
        · exact Nat.zero_le _
        · exact Nat.le_refl _
      rw [Nat.le_div_iff_mul_le (by decide), Nat.mul_right_comm]
      exact Nat.mul_le_mul (Nat.mul_le_mul_left _ whole) hpart
  have hsums : (inputs.cAssetRatios.zipIdx.map (inputs.spGrant terms)).sum ≤
      inputs.setAside terms := by
    refine Nat.le_trans (List.sum_le_sum fun entry _ => hgrant entry) ?_
    have hindex : inputs.cAssetRatios.zipIdx.map (fun entry =>
        (terms.map inputs.setAsideFor).getD entry.2 0) =
          (List.range' 0 inputs.cAssetRatios.length).map fun index =>
            (terms.map inputs.setAsideFor).getD index 0 := by
      rw [← List.zipIdx_map_snd 0 inputs.cAssetRatios, List.map_map]
      rfl
    rw [hindex, ← List.range_eq_range']
    exact sum_range_getD_le _ _
  have hpool := sum_map_div_add_mod
    (fun entry => inputs.spLiquidity * CapInputs.poolRatio terms entry)
    Decimal.fractional inputs.cAssetRatios.zipIdx
  rw [List.sum_map_mul_left] at hpool
  change (inputs.cAssetRatios.zipIdx.map (inputs.spGrant terms)).sum * _ + _ =
    inputs.spLiquidity * inputs.poolRatios terms at hpool
  have hparts := Nat.mul_le_mul_right Decimal.fractional hsums
  refine ⟨leaves, ?_⟩
  unfold CapInputs.cutOff
  omega

end

/-! ## A tenth of the stability pool -/

end Cdp

end Membrane
