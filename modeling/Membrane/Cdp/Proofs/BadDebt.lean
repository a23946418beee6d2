import Membrane.Cdp.Proofs.Conservation

/-!
# Settling bad debt

The callback at the end of a liquidation writes the debt of a position that holds nothing
any more off against revenue, and auctions the rest. Revenue that covers the debt leaves
nothing to auction, which the callback takes for a missing auction: it fails, and its
writes are gone. Revenue that covers a part lowers the position's debt but not the total
that the basket keeps. So the books agree exactly where there is no revenue.
-/

namespace Membrane

open Outcome

namespace Cdp

/-- What the callback finds after a liquidation that left a position with debt and at most
    a dollar of collateral, with an auction configured. -/
structure BadDebt (s : State) (owner : Addr) (positionId : Nat) (position : Position)
    (auction : Addr) : Prop where
  found : ∃ i, getTargetPosition s owner positionId = .ok (i, position)
  worthless : ∃ prop value, s.liquidation = some prop ∧
    leftAssetValue prop.cAssetPrices position.collateralAssets = .ok value ∧ value ≤ Decimal.one
  owes : position.creditAmount ≠ 0
  configured : s.config.debtAuction = some auction

def coveredDebt (s : State) (position : Position) : Nat :=
  Nat.min position.creditAmount s.basket.pendingRevenue

def auctionDebt (s : State) (owner : Addr) (positionId : Nat) (auction : Addr) (amount : Nat) :
    CosmosMsg OutMsg :=
  .execute auction (.startAuction (some ⟨positionId, owner⟩) ⟨s.basket.creditAsset.info,
    amount⟩ none) []

/-- Revenue, the position's debt and the basket's total are lowered by the covered debt
    alike, and the rest of the debt is auctioned. -/
structure BadDebtSettled (s s' : State) (response : Response OutMsg) (owner : Addr)
    (positionId : Nat) (position : Position) (auction : Addr) : Prop where
  revenue : s'.basket.pendingRevenue + coveredDebt s position = s.basket.pendingRevenue
  debt : ∃ i position', getTargetPosition s' owner positionId = .ok (i, position') ∧
    position'.creditAmount + coveredDebt s position = position.creditAmount
  total : s'.basket.creditAsset.amount + coveredDebt s position = s.basket.creditAsset.amount
  auctioned : response = Response.addMessages {}
    (if position.creditAmount = coveredDebt s position then []
    else [auctionDebt s owner positionId auction (position.creditAmount - coveredDebt s position)])

theorem findPosition_swap {positions : List Position} {id i : Nat} {position : Position}
    (new : Position) (same : new.positionId = id)
    (found : findPosition positions id = some (i, position)) :
    findPosition (swapPosition new positions) id = some (i, new) := by
  obtain ⟨hget, hid⟩ := findPosition_spec found
  simp only [findPosition, Option.bind_eq_some_iff, Option.map_eq_some_iff] at found
  obtain ⟨j, hindex, _, _, heq⟩ := found
  obtain ⟨rfl, -⟩ := Prod.mk.inj heq
  have hkeys : ∀ stored : Position,
      (if stored.positionId = new.positionId then new else stored).positionId =
        stored.positionId := by
    intro stored
    by_cases h : stored.positionId = new.positionId
    · rw [if_pos h, h]
    · rw [if_neg h]
  rw [findPosition, swapPosition, List.findIdx?_map]
  have hsame : ((fun position : Position => position.positionId == id) ∘ fun stored : Position =>
      if stored.positionId = new.positionId then new else stored) =
      fun position => position.positionId == id := by
    funext stored
    rw [Function.comp_apply, hkeys]
  rw [hsame, hindex, Option.bind_some, List.getElem?_map, hget, Option.map_some, Option.map_some,
    if_pos (hid.trans same.symm)]

section

variable {s : State} {owner auction : Addr} {positionId : Nat} {position : Position}

theorem checkAndFulfillBadDebt_eq_ok (bad : BadDebt s owner positionId position auction)
    {s' : State}
    {response : Response OutMsg} :
    checkAndFulfillBadDebt positionId owner s = .ok (s', response) ↔
      s.basket.pendingRevenue < position.creditAmount ∧
        (∃ stored, s.positions.lookup owner = some stored ∧
          s' = { s with
            positions := s.positions.insert owner (swapPosition { position with
              creditAmount := position.creditAmount - s.basket.pendingRevenue } stored)
            basket := { s.basket with pendingRevenue := 0 } }) ∧
        response = Response.addMessages {} [auctionDebt s owner positionId auction
          (position.creditAmount - s.basket.pendingRevenue)] := by
  obtain ⟨i, hfound⟩ := bad.found
  obtain ⟨prop, value, hprop, hvalue, hworthless⟩ := bad.worthless
  obtain ⟨stored, hstored, -⟩ := getTargetPosition_eq_ok.mp hfound
  have hguard : ¬ (Decimal.one < value ∨ position.creditAmount = 0) := by
    rintro (h | h)
    · exact absurd hworthless (Nat.not_le.mpr h)
    · exact bad.owes h
  simp only [checkAndFulfillBadDebt, bind_eq_ok, guardErr_eq_ok, ofOption_eq_ok, liftStd_eq_ok,
    updatePosition]
  constructor
  · rintro ⟨⟨i', target⟩, htarget, prop', hprop', value', hvalue', _, -, s₁, hwrite, hrest⟩
    cases hfound.symm.trans htarget
    rw [hstored] at hwrite
    obtain rfl := Except.ok.inj hwrite
    dsimp only at hrest
    rw [bad.configured] at hrest
    obtain ⟨_, hauctioned, hdone⟩ := bind_eq_ok.mp hrest
    rw [guardErr_eq_ok] at hauctioned
    have hpart : s.basket.pendingRevenue < position.creditAmount := by
      by_contra hall
      have hcovered : Nat.min position.creditAmount s.basket.pendingRevenue =
          position.creditAmount := Nat.min_eq_left (Nat.not_lt.mp hall)
      apply hauctioned
      rw [hcovered, Nat.sub_self]
    have hcovered : Nat.min position.creditAmount s.basket.pendingRevenue =
        s.basket.pendingRevenue := Nat.min_eq_right (Nat.le_of_lt hpart)
    rw [hcovered, Nat.sub_self] at hdone
    obtain ⟨rfl, rfl⟩ := Prod.mk.inj (pure_eq_ok.mp hdone)
    exact ⟨hpart, ⟨stored, hstored, rfl⟩, rfl⟩
  · rintro ⟨hpart, ⟨stored', hstored', rfl⟩, rfl⟩
    cases hstored.symm.trans hstored'
    have hcovered : Nat.min position.creditAmount s.basket.pendingRevenue =
        s.basket.pendingRevenue := Nat.min_eq_right (Nat.le_of_lt hpart)
    have hleft : ¬ position.creditAmount - s.basket.pendingRevenue = 0 := by omega
    refine ⟨(i, position), hfound, prop, hprop, value, hvalue, ⟨⟩, hguard, ?_⟩
    simp only [hstored, hcovered]
    refine ⟨_, rfl, ?_⟩
    dsimp only
    rw [bad.configured]
    refine bind_eq_ok.mpr ⟨⟨⟩, guardErr_eq_ok.mpr hleft, ?_⟩
    rw [Nat.sub_self]
    rfl

/-- The callback settles bad debt exactly where there is no revenue. -/
theorem bad_debt_settled_iff (bad : BadDebt s owner positionId position auction) :
    (∃ s' response, checkAndFulfillBadDebt positionId owner s = .ok (s', response) ∧
      BadDebtSettled s s' response owner positionId position auction) ↔
      s.basket.pendingRevenue = 0 := by
  constructor
  · rintro ⟨s', response, done, settled⟩
    obtain ⟨hpart, ⟨stored, -, rfl⟩, -⟩ := (checkAndFulfillBadDebt_eq_ok bad).mp done
    -- the total has not moved, so nothing of the debt was covered
    have hcovered : coveredDebt s position = 0 := Nat.add_eq_left.mp settled.total
    have hrevenue : coveredDebt s position = s.basket.pendingRevenue :=
      Nat.min_eq_right (Nat.le_of_lt hpart)
    rw [← hrevenue, hcovered]
  · intro hnone
    obtain ⟨i, hfound⟩ := bad.found
    obtain ⟨stored, hstored, hposition⟩ := getTargetPosition_eq_ok.mp hfound
    have hcovered : coveredDebt s position = 0 := by
      rw [coveredDebt, hnone]
      exact Nat.min_zero _
    have hpart : s.basket.pendingRevenue < position.creditAmount := by
      have howes := bad.owes
      omega
    have hid : position.positionId = positionId := (findPosition_spec hposition).2
    refine ⟨_, _, (checkAndFulfillBadDebt_eq_ok bad).mpr
      ⟨hpart, ⟨stored, hstored, rfl⟩, rfl⟩, ?_⟩
    constructor
    · rw [hcovered, hnone]
    · have hwritten : findPosition (swapPosition { position with
          creditAmount := position.creditAmount - s.basket.pendingRevenue } stored) positionId =
          some (i, { position with
            creditAmount := position.creditAmount - s.basket.pendingRevenue }) :=
        findPosition_swap _ hid hposition
      refine ⟨i, _, getTargetPosition_eq_ok.mpr ⟨_, AList.lookup_insert _, hwritten⟩, ?_⟩
      rw [hcovered, hnone]
      rfl
    · rw [hcovered]
      rfl
    · rw [hcovered, if_neg bad.owes, hnone]

end

/-! ## A position worth nothing -/

private def brokeState (revenue : Nat) : State where
  config := sampleConfig
  basket := { sampleBasket with
    creditAsset := ⟨.nativeToken "ucdt", 100⟩
    pendingRevenue := revenue }
  positions := (∅ : KeyMap Addr (List Position)).insert "user" [⟨1, [], 100⟩]
  prices := ⟨∅, ∅⟩
  redemptionOptIn := ∅
  ownershipTransfer := none
  withdraw := none
  liquidation := none
  freezeTimer := none

/-- The same after the liquidation that left it so. -/
private def brokeAfter (revenue : Nat) : State :=
  let s := brokeState revenue
  { s with liquidation := some {
      perAssetRepayment := []
      liqQueueRepayment := Decimal.zero
      stabilityPool := Decimal.zero
      userRepayAmount := Decimal.zero
      positionsContract := "cdp"
      spLiqFee := Decimal.zero
      cAssetRatios := []
      cAssetPrices := []
      targetPosition := ⟨1, [], 100⟩
      liquidatedAssets := []
      callerFeeValuePaid := Decimal.zero
      totalRepaid := Decimal.zero
      positionOwner := "user"
      basket := s.basket
      config := s.config } }

private theorem brokeAfter_bad (revenue : Nat) :
    BadDebt (brokeAfter revenue) "user" 1 ⟨1, [], 100⟩ "auction" where
  found := ⟨0, getTargetPosition_eq_ok.mpr ⟨_, AList.lookup_insert _, rfl⟩⟩
  worthless := ⟨_, Decimal.zero, rfl, rfl, by decide⟩
  owes := by decide
  configured := rfl

/-- Without revenue the debt goes to auction. -/
theorem bad_debt_settled_iff_broke :
    BadDebt (brokeAfter 0) "user" 1 ⟨1, [], 100⟩ "auction" ∧
      ((∃ s' response, checkAndFulfillBadDebt 1 "user" (brokeAfter 0) = .ok (s', response) ∧
        BadDebtSettled (brokeAfter 0) s' response "user" 1 ⟨1, [], 100⟩ "auction") ↔
        (brokeAfter 0).basket.pendingRevenue = 0) :=
  ⟨brokeAfter_bad 0, bad_debt_settled_iff (brokeAfter_bad 0)⟩

private theorem brokeAfter_not_settled {revenue : Nat} (mem : revenue ∈ [40, 150]) :
    BadDebt (brokeAfter revenue) "user" 1 ⟨1, [], 100⟩ "auction" ∧
      ¬ ∃ s' response, checkAndFulfillBadDebt 1 "user" (brokeAfter revenue) = .ok (s', response) ∧
        BadDebtSettled (brokeAfter revenue) s' response "user" 1 ⟨1, [], 100⟩ "auction" := by
  refine ⟨brokeAfter_bad revenue, ?_⟩
  rintro ⟨s', response, done, settled⟩
  obtain ⟨-, ⟨_, -, rfl⟩, -⟩ := (checkAndFulfillBadDebt_eq_ok (brokeAfter_bad revenue)).mp done
  have hcovered : coveredDebt (brokeAfter revenue) ⟨1, [], 100⟩ = 0 :=
    Nat.add_eq_left.mp settled.total
  simp only [List.mem_cons, List.not_mem_nil, or_false] at mem
  rcases mem with rfl | rfl
  · exact absurd hcovered (by decide)
  · exact absurd hcovered (by decide)

/-- Revenue of 150 against a debt of 100 makes the callback fail, and revenue of 40 leaves
    the basket's total debt at 100. -/
theorem bad_debt_not_settled :
    (BadDebt (brokeAfter 40) "user" 1 ⟨1, [], 100⟩ "auction" ∧
      ¬ ∃ s' response, checkAndFulfillBadDebt 1 "user" (brokeAfter 40) = .ok (s', response) ∧
        BadDebtSettled (brokeAfter 40) s' response "user" 1 ⟨1, [], 100⟩ "auction") ∧
    (BadDebt (brokeAfter 150) "user" 1 ⟨1, [], 100⟩ "auction" ∧
      ¬ ∃ s' response, checkAndFulfillBadDebt 1 "user" (brokeAfter 150) = .ok (s', response) ∧
        BadDebtSettled (brokeAfter 150) s' response "user" 1 ⟨1, [], 100⟩ "auction") :=
  ⟨brokeAfter_not_settled (by decide), brokeAfter_not_settled (by decide)⟩

end Cdp

end Membrane
