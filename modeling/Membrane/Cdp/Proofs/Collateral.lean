import Membrane.Cdp.Liquidations
import Membrane.Cdp.Proofs.Store

/-!
# Amounts of collateral

How much of an asset a position holds and how much of it some coins are, and what
taking an amount off one collateral asset does to both.
-/

namespace Membrane.Cdp

open Outcome

def amountOf (info : AssetInfo) (held : List Asset) : Nat :=
  (held.map fun asset => if asset.info = info then asset.amount else 0).sum

def coinAssets (coins : List Coin) : List Asset :=
  coins.map fun coin => ⟨.nativeToken coin.denom, coin.amount⟩

def coinsOf (info : AssetInfo) (coins : List Coin) : Nat := amountOf info (coinAssets coins)

def collateralHeld (cAssets : List CAsset) : List Asset := cAssets.map (·.asset)

def collateralKinds (position : Position) : List AssetInfo :=
  position.collateralAssets.map (·.asset.info)

@[simp]
theorem amountOf_nil (info : AssetInfo) : amountOf info [] = 0 := rfl

@[simp]
theorem amountOf_append (info : AssetInfo) (held held' : List Asset) :
    amountOf info (held ++ held') = amountOf info held + amountOf info held' := by
  simp [amountOf]

@[simp]
theorem amountOf_singleton (info : AssetInfo) (asset : Asset) :
    amountOf info [asset] = if asset.info = info then asset.amount else 0 := by
  simp [amountOf]

@[simp]
theorem coinsOf_nil (info : AssetInfo) : coinsOf info [] = 0 := rfl

@[simp]
theorem coinsOf_append (info : AssetInfo) (coins coins' : List Coin) :
    coinsOf info (coins ++ coins') = coinsOf info coins + coinsOf info coins' := by
  simp [coinsOf, coinAssets]

@[simp]
theorem coinsOf_singleton (info : AssetInfo) (coin : Coin) :
    coinsOf info [coin] = if .nativeToken coin.denom = info then coin.amount else 0 := by
  simp [coinsOf, coinAssets]

theorem amountOf_set {held : List Asset} {i : Nat} {asset : Asset} (found : held[i]? = some asset)
    {amount : Nat} (covered : amount ≤ asset.amount) (info : AssetInfo) :
    amountOf info (held.set i { asset with amount := asset.amount - amount }) +
      (if asset.info = info then amount else 0) = amountOf info held := by
  have h := ListEdit.sum_set (fun asset : Asset => if asset.info = info then asset.amount else 0)
    { asset with amount := asset.amount - amount } found
  unfold amountOf
  by_cases same : asset.info = info
  · simp only [same, if_true] at h ⊢
    omega
  · simp only [same, if_false] at h ⊢
    omega

theorem amountOf_eraseIdx {held : List Asset} {i : Nat} {asset : Asset}
    (found : held[i]? = some asset) (info : AssetInfo) :
    amountOf info (held.eraseIdx i) + (if asset.info = info then asset.amount else 0) =
      amountOf info held :=
  ListEdit.sum_eraseIdx (fun asset : Asset => if asset.info = info then asset.amount else 0) found

/-- Of the collateral, `amount` of kind `info` was taken off. -/
structure TookOff (cAssets cAssets' : List CAsset) (info : AssetInfo) (amount : Nat) : Prop where
  kinds : cAssets'.map (·.asset.info) = cAssets.map (·.asset.info)
  amounts : ∀ info', amountOf info' (collateralHeld cAssets') +
    (if info = info' then amount else 0) = amountOf info' (collateralHeld cAssets)

theorem tookOff_set {cAssets : List CAsset} {index : Nat} {held : CAsset} {amount : Nat}
    (found : cAssets[index]? = some held) (covered : amount ≤ held.asset.amount) :
    TookOff cAssets (cAssets.set index
      { held with asset := { held.asset with amount := held.asset.amount - amount } })
      held.asset.info amount := by
  refine ⟨ListEdit.map_set_same (fun cAsset : CAsset => cAsset.asset.info) found rfl,
    fun info => ?_⟩
  have hasset : (collateralHeld cAssets)[index]? = some held.asset := by
    rw [collateralHeld, List.getElem?_map, found]
    rfl
  rw [collateralHeld, List.map_set]
  exact amountOf_set hasset covered info

theorem takeAmount_spec {cAssets cAssets' : List CAsset} {index amount : Nat}
    (done : takeAmount cAssets index amount = .ok cAssets') :
    ∃ held, cAssets[index]? = some held ∧ TookOff cAssets cAssets' held.asset.info amount := by
  simp only [takeAmount, bind_eq_ok, index_eq_ok, subUint_eq_ok, setIndex_eq_ok] at done
  obtain ⟨held, found, left, ⟨covered, rfl⟩, -, rfl⟩ := done
  exact ⟨held, found, tookOff_set found covered⟩

end Membrane.Cdp
