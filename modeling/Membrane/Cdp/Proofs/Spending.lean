import Membrane.Cdp.Proofs.Conservation
import Membrane.Cdp.Proofs.DebtCaps
import Membrane.Cdp.Proofs.Redeeming
import Membrane.Cdp.Proofs.Verdict
import Membrane.Cdp.Transaction
import Membrane.Prices
import Membrane.Std.Rational
import Mathlib.Algebra.Order.Field.Rat

/-!
# What a redemption spends

The debt tokens sent to a redemption, less those it sends back, are taken off the
positions. The debt of the basket stays what it was, so the books never agree with
what was spent. No visited position sends more value than is redeemed of it, less the
premium.
-/

namespace Membrane.Cdp

open Outcome

def exactValue (price : PriceResponse) (amount : Nat) : ℚ :=
  price.price.atomics / Decimal.fractional * (amount / 10 ^ price.decimals)

def valueSent (price : AssetInfo → PriceResponse) (position position' : Position) : ℚ :=
  ((position.collateralAssets.zip position'.collateralAssets).map fun entry =>
    exactValue (price entry.1.asset.info) (entry.1.asset.amount - entry.2.asset.amount)).sum

def OptedInAt (s : State) (maxCollateralPremium premium : Nat) (owner : Addr) (id : Nat) : Prop :=
  ∀ other ≤ maxCollateralPremium, (∃ visit ∈ redemptionVisits s [other],
    visit.1 = owner ∧ visit.2.positionId = id) ↔ other = premium

/-- The debt tokens that a redemption sends back: the bank message behind that of the
    collateral. -/
def creditRefunded (denom : String) (response : Response OutMsg) : Nat :=
  coinsOf (.nativeToken denom) (coinsIn bankCoinsOf { response with
    messages := response.messages.drop 1 })

/-- The debt tokens sent with a call. -/
def creditSent (denom : String) (info : MessageInfo) : Nat :=
  coinsOf (.nativeToken denom) info.funds

/-- What a redemption spends goes off the positions, is burned, and goes off the basket,
    and no position sends more value than was redeemed of it, less the premium. -/
structure RedemptionConserved (deps : Deps) (env : Env) (info : MessageInfo)
    (maxCollateralPremium spent : Nat) (s s' : State) (response : Response OutMsg) : Prop where
  debts : totalDebt s'.positions + spent = totalDebt s.positions
  burned : burned s.basket.creditAsset.info.toText response = spent
  basket : s'.basket.creditAsset.amount + spent = s.basket.creditAsset.amount
  value : ∀ price owner id position position' premium,
    positionAt s.positions owner id = some position →
    positionAt s'.positions owner id = some position' →
    OptedInAt s maxCollateralPremium premium owner id →
    ReadsPrices deps env s.config s.prices s.basket price position.collateralAssets →
    valueSent price position position' ≤
      exactValue s.basket.creditPrice (position.creditAmount - position'.creditAmount) *
        (1 - premium / 100)

section

variable {deps : Deps} {env : Env} {s s' : State}

/-! ## The books during a redemption -/

theorem updatePositionClaims_books {owner : Addr} {positionId amount : Nat} {asset : AssetInfo}
    (done : updatePositionClaims deps env s positionId owner asset amount = .ok s') :
    SameBooks s.basket s'.basket := by
  simp only [updatePositionClaims, bind_eq_ok] at done
  obtain ⟨_, -, _, -, hrest⟩ := done
  split at hrest
  case h_1 =>
    obtain rfl := pure_eq_ok.mp hrest
    exact .refl _
  case h_2 =>
    split at hrest
    case isTrue =>
      obtain rfl := pure_eq_ok.mp hrest
      exact .refl _
    case isFalse =>
      simp only [bind_eq_ok, mapErr_eq_ok, pure_eq_ok] at hrest
      obtain ⟨_, htally, rfl⟩ := hrest
      exact updateBasketTally_sameBooks htally

/-- What holds all through a redemption of `credit`: the books are those of the start,
    and a whole amount is left. -/
structure WholeLeft (s : State) (credit : Nat) (loop : RedeemLoop) : Prop where
  books : SameBooks s.basket loop.s.basket
  left : ∃ taken, taken ≤ credit ∧ loop.creditAmount = ⟨(credit - taken) * Decimal.fractional⟩

theorem redeemAssets_books {owner : Addr} {positionId : Nat} {redeemableValue : Decimal}
    {cAssetRatios : List Decimal} {cAssetPrices : List PriceResponse}
    {entries : List (CAsset × Nat)} {acc acc' : State × List Asset}
    (done : entries.foldlM (redeemAsset deps env owner positionId redeemableValue cAssetRatios
      cAssetPrices) acc = .ok acc') : SameBooks acc.1.basket acc'.1.basket := by
  let Inv := fun mid : State × List Asset => SameBooks acc.1.basket mid.1.basket
  refine foldlM_keeps Inv (fun mid entry next hinv hstep => ?_) _ _ _ (SameBooks.refl _) done
  simp only [redeemAsset, bind_eq_ok, pure_eq_ok] at hstep
  obtain ⟨_, -, _, -, _, -, _, -, _, -, last, hclaims, rfl⟩ := hstep
  exact SameBooks.trans hinv (updatePositionClaims_books hclaims)

theorem updatePosition_basket {owner : Addr} {position : Position}
    (done : updatePosition s owner position = .ok s') : s'.basket = s.basket := by
  unfold updatePosition at done
  split at done
  case h_1 =>
    obtain rfl := Except.ok.inj done
    rfl
  case h_2 => simp at done

theorem redeemPosition_wholeLeft {basket : Basket} {discountRatio : Decimal}
    {premium userIndex credit : Nat} {loop loop' : RedeemLoop} {entry : PositionRedemption × Nat}
    (before : WholeLeft s credit loop)
    (done : redeemPosition deps env basket discountRatio premium userIndex loop entry = .ok loop') :
    WholeLeft s credit loop' := by
  simp only [redeemPosition, bind_eq_ok] at done
  obtain ⟨⟨_, position⟩, -, hrest⟩ := done
  split at hrest
  case isTrue =>
    obtain ⟨hstate, hcredit, -, -⟩ := removeRedemption_frame hrest
    refine ⟨?_, ?_⟩
    · rw [hstate]
      exact before.books
    · rw [hcredit]
      exact before.left
  case isFalse =>
    simp only [bind_eq_ok, pure_eq_ok, liftStd_eq_ok, decimalSubtraction_eq_ok] at hrest
    obtain ⟨_, -, remaining, hremaining, debt, hdebt, _, ⟨-, rfl⟩, _, -, _, -, _, -, loop₁, hloop₁,
      _, -, _, -, _, -, ⟨_, _⟩, hsends, ⟨_, _⟩, -, _, -, loop₂, hloop₂, last, hupdate, rfl⟩ := hrest
    obtain rfl := Decimal.fromRatio_one hremaining
    obtain rfl := Decimal.fromRatio_one hdebt
    obtain ⟨taken, hbound, hleft⟩ := before.left
    obtain ⟨hstate₁, hcredit₁, -, -⟩ := removeRedemption_frame_if hloop₁
    obtain ⟨hstate₂, hcredit₂, -, -⟩ := removeRedemption_frame_if hloop₂
    have hbooks := redeemAssets_books hsends
    simp only at hstate₁ hcredit₁ hstate₂ hcredit₂ hbooks
    refine ⟨?_, ?_⟩
    · have hlast : last.basket = loop₂.s.basket := updatePosition_basket hupdate
      simp only
      rw [hlast, hstate₂]
      rw [hstate₁] at hbooks
      exact before.books.trans hbooks
    · refine ⟨taken + min (min entry.1.remainingLoanRepayment position.creditAmount)
        (credit - taken), by omega, ?_⟩
      simp only
      rw [hcredit₂, hcredit₁, hleft, Decimal.min_whole, Decimal.min_whole, ← Nat.sub_mul,
        Nat.sub_sub]

theorem redeemPremium_wholeLeft {basket : Basket} {premium credit : Nat} {loop loop' : RedeemLoop}
    (before : WholeLeft s credit loop)
    (done : redeemPremium deps env basket loop premium = .ok loop') : WholeLeft s credit loop' := by
  simp only [redeemPremium, bind_eq_ok] at done
  obtain ⟨_, -, hrest⟩ := done
  split at hrest
  case isTrue =>
    obtain rfl := pure_eq_ok.mp hrest
    exact before
  case isFalse =>
    have husers : WholeLeft s credit
        { loop with users := (loop.s.redemptionOptIn.lookup premium).getD [] } :=
      ⟨before.books, before.left⟩
    refine foldlM_keeps (WholeLeft s credit)
      (fun loop user loop' hinv huser => ?_) _ _ _ husers hrest
    have hpositions : WholeLeft s credit { loop with user := user.1 } := ⟨hinv.books, hinv.left⟩
    exact foldlM_keeps (WholeLeft s credit)
      (fun _ _ _ hinv hposition => redeemPosition_wholeLeft hinv hposition) _ _ _ hpositions huser

/-! ## The value of what is sent -/

def sendsWorth (price : AssetInfo → PriceResponse) (sends : List Asset) : ℚ :=
  (sends.map fun asset => exactValue (price asset.info) asset.amount).sum

def redeemableAssets (entry : PositionRedemption) (position : Position) : List CAsset :=
  position.collateralAssets.filter fun cAsset =>
    !entry.restrictedCollateralAssets.contains cAsset.asset.info.toText

theorem exactValue_nonneg (price : PriceResponse) (amount : Nat) : 0 ≤ exactValue price amount := by
  unfold exactValue
  positivity

theorem exactValue_add (price : PriceResponse) (amount amount' : Nat) :
    exactValue price (amount + amount') = exactValue price amount + exactValue price amount' := by
  simp only [exactValue, Nat.cast_add]
  ring

theorem exactValue_amountOf_le (price : PriceResponse) (value : Nat) :
    exactValue price (price.amountOf value) ≤ Decimal.toRat ⟨value⟩ := by
  have hunit : (price.unit : ℚ) ≤ 10 ^ price.decimals := by
    rw [PriceResponse.unit, Nat.cast_pow]
    exact pow_le_pow_right₀ (by norm_num) (Nat.mod_le _ _)
  have hpositive : (0 : ℚ) < price.unit := Nat.cast_pos.mpr PriceResponse.unit_pos
  have hle : ((price.amountOf value * price.price.atomics : ℕ) : ℚ) ≤ (value * price.unit : ℕ) :=
    Nat.cast_le.mpr (truncAmount_mul_le value (by decide))
  rw [Nat.cast_mul, Nat.cast_mul] at hle
  rw [exactValue, Decimal.toRat, div_mul_eq_mul_div]
  refine div_le_div_of_nonneg_right ?_ (Nat.cast_nonneg _)
  rw [← mul_div_assoc, div_le_iff₀ (hpositive.trans_le hunit), mul_comm]
  exact hle.trans (mul_le_mul_of_nonneg_left hunit (Nat.cast_nonneg _))

theorem valueOf_le_exactValue {price : PriceResponse} (narrow : price.decimals < 2 ^ 32)
    (amount : Nat) : Decimal.toRat ⟨price.valueOf amount⟩ ≤ exactValue price amount := by
  have hunit : (price.unit : ℚ) = 10 ^ price.decimals := by
    rw [PriceResponse.unit, Nat.mod_eq_of_lt narrow, Nat.cast_pow, Nat.cast_ofNat]
  have hle : ((price.valueOf amount * price.unit : ℕ) : ℚ) ≤ (price.price.atomics * amount : ℕ) :=
    Nat.cast_le.mpr (truncValue_mul_le amount (by decide))
  rw [Nat.cast_mul, Nat.cast_mul, hunit] at hle
  rw [exactValue, Decimal.toRat, div_mul_eq_mul_div]
  refine div_le_div_of_nonneg_right ?_ (Nat.cast_nonneg _)
  rwa [← mul_div_assoc, le_div_iff₀ (by positivity)]

theorem multiplication_toRat_le {a b c : Decimal} (done : decimalMultiplication a b = .ok c) :
    c.toRat ≤ a.toRat * b.toRat := by
  obtain ⟨-, rfl⟩ := decimalMultiplication_eq_ok.mp done
  have hfractional : (0 : ℚ) < Decimal.fractional := by norm_num [Decimal.fractional]
  rw [Decimal.toRat, Decimal.toRat, Decimal.toRat, div_mul_div_comm,
    div_le_div_iff₀ hfractional (by positivity), ← mul_assoc]
  refine mul_le_mul_of_nonneg_right ?_ hfractional.le
  exact_mod_cast Nat.div_mul_le_self _ _

theorem addSend_worth {price : AssetInfo → PriceResponse} {sends sends' : List Asset}
    {info : AssetInfo} {amount : Nat} (done : addSend sends info amount = .ok sends') :
    sendsWorth price sends' = sendsWorth price sends + exactValue (price info) amount := by
  unfold addSend at done
  split at done
  case h_1 =>
    obtain rfl := pure_eq_ok.mp done
    simp [sendsWorth]
  case h_2 i hi =>
    simp only [bind_eq_ok, index_eq_ok, setIndex_eq_ok, Uint128.add_eq_ok] at done
    obtain ⟨send, hsend, _, ⟨-, rfl⟩, -, rfl⟩ := done
    obtain ⟨hlt, hinfo, -⟩ := List.findIdx?_eq_some_iff_getElem.mp hi
    obtain ⟨-, rfl⟩ := List.getElem?_eq_some_iff.mp hsend
    have hsame : sends[i].info = info := by simpa using hinfo
    rw [sendsWorth, List.map_set, List.sum_set', dif_pos (by simpa using hlt), List.getElem_map]
    simp only [exactValue_add, hsame, sendsWorth]
    ring

theorem discount_toRat {premium : Nat} {discountRatio : Decimal}
    (discount : decimalSubtraction Decimal.one (Decimal.percent premium) = .ok discountRatio) :
    discountRatio.toRat = 1 - premium / 100 := by
  obtain ⟨hle, rfl⟩ := decimalSubtraction_eq_ok.mp discount
  have hatomics : premium * 10000000000000000 ≤ Decimal.fractional := hle
  rw [Decimal.toRat]
  change ((Decimal.fractional - premium * 10000000000000000 : ℕ) : ℚ) / _ = _
  rw [Nat.cast_sub hatomics]
  norm_num [Decimal.fractional]
  ring

theorem redeemAssets_worth {owner : Addr} {positionId : Nat} {redeemableValue : Decimal}
    {cAssetPrices : List PriceResponse} {price : AssetInfo → PriceResponse} :
    ∀ {assets : List CAsset} {before ratios : List Decimal} {acc acc' : State × List Asset},
      (∀ entry ∈ assets.zipIdx before.length, ∀ read, cAssetPrices[entry.2]? = some read →
        read = price entry.1.asset.info) →
      (assets.zipIdx before.length).foldlM (redeemAsset deps env owner positionId redeemableValue
        (before ++ ratios) cAssetPrices) acc = .ok acc' →
      sendsWorth price acc'.2 ≤
        sendsWorth price acc.2 + redeemableValue.toRat * (ratios.map Decimal.toRat).sum := by
  intro assets
  induction assets with
  | nil =>
    intro before ratios acc acc' _ done
    obtain rfl := pure_eq_ok.mp done
    have hratios : 0 ≤ (ratios.map Decimal.toRat).sum :=
      List.sum_nonneg (by simp [Decimal.toRat_nonneg])
    have hsent := mul_nonneg redeemableValue.toRat_nonneg hratios
    linarith
  | cons cAsset rest ih =>
    intro before ratios acc acc' reads done
    rw [List.zipIdx_cons] at done reads
    rw [List.foldlM_cons, bind_eq_ok] at done
    obtain ⟨mid, hstep, hrest⟩ := done
    simp only [redeemAsset, bind_eq_ok, pure_eq_ok, index_eq_ok] at hstep
    obtain ⟨ratio, hratio, value, hvalue, read, hread, amount, hamount, sends, hsends, last, -,
      rfl⟩ := hstep
    obtain rfl := reads _ List.mem_cons_self read hread
    rw [List.getElem?_append_right le_rfl, Nat.sub_self] at hratio
    obtain ⟨ratios', rfl⟩ : ∃ ratios', ratios = ratio :: ratios' := by
      cases ratios with
      | nil => cases hratio
      | cons head tail => exact ⟨tail, by rw [Option.some.inj hratio]⟩
    have hnext : (before ++ [ratio]).length = before.length + 1 := List.length_append
    rw [List.append_cons, ← hnext] at hrest
    have hlater := ih (fun entry mem => reads entry (List.mem_cons_of_mem _ (hnext ▸ mem))) hrest
    obtain ⟨-, -, -, -, rfl⟩ := PriceResponse.getAmount_eq_ok.mp hamount
    have hworth := exactValue_amountOf_le (price cAsset.asset.info) value.atomics
    have hshare := multiplication_toRat_le hvalue
    rw [addSend_worth hsends] at hlater
    rw [List.map_cons, List.sum_cons, mul_add]
    linarith

theorem sum_toRat (ratios : List Decimal) : (ratios.map Decimal.toRat).sum =
    ((ratios.map Decimal.atomics).sum : ℕ) / Decimal.fractional := by
  induction ratios with
  | nil => simp
  | cons ratio rest ih =>
    rw [List.map_cons, List.sum_cons, ih, List.map_cons, List.sum_cons, Nat.cast_add, add_div]
    rfl

theorem getCAssetRatios_spec {config : Config} {prices prices' : PriceStore} {basket : Basket}
    {assets : List CAsset} {ratios : List Decimal} {cAssetPrices : List PriceResponse}
    {price : AssetInfo → PriceResponse}
    (reads : ReadsPrices deps env config prices basket price assets)
    (done : getCAssetRatios deps env config prices assets basket =
      .ok (prices', ratios, cAssetPrices)) :
    (ratios.map Decimal.toRat).sum ≤ 1 ∧
      ∀ entry ∈ assets.zipIdx, ∀ read, cAssetPrices[entry.2]? = some read →
        read = price entry.1.asset.info := by
  simp only [getCAssetRatios, bind_eq_ok, pure_eq_ok, Prod.mk.injEq] at done
  obtain ⟨⟨values, found⟩, hvalues, _, -, total, htotal, shares, hshares, -, rfl, rfl⟩ := done
  have himut : getCAssetRatiosImut deps env config prices assets basket = .ok (shares, found) :=
    bind_eq_ok.mpr ⟨_, hvalues, bind_eq_ok.mpr ⟨_, htotal, bind_eq_ok.mpr ⟨_, hshares, rfl⟩⟩⟩
  refine ⟨?_, ?_⟩
  · rw [sum_toRat]
    exact div_le_one_of_le₀ (Nat.cast_le.mpr (getCAssetRatiosImut_sum himut)) (Nat.cast_nonneg _)
  · rintro ⟨cAsset, i⟩ mem read hread
    simp only [getAssetValues, bind_eq_ok, guardErr_eq_ok] at hvalues
    obtain ⟨-, -, hvalues⟩ := hvalues
    split at hvalues
    case isTrue =>
      simp only [bind_eq_ok, pure_eq_ok, Prod.mk.injEq] at hvalues
      obtain ⟨_, hquery, _, -, -, rfl⟩ := hvalues
      rw [show queryPrices _ _ _ _ _ _ _ = _ from reads] at hquery
      obtain rfl := Except.ok.inj hquery
      have hat : assets[i]? = some cAsset := by simpa using List.mem_zipIdx_iff_getElem?.mp mem
      rw [List.getElem?_map, hat] at hread
      exact (Option.some.inj hread).symm
    case isFalse =>
      simp only [pure_eq_ok, Prod.mk.injEq] at hvalues
      obtain ⟨-, rfl⟩ := hvalues
      cases hread

theorem removeRedemption_sends {c : Prop} [Decidable c] {userIndex index : Nat}
    {loop loop' : RedeemLoop}
    (done : (if c then removeRedemption userIndex index loop else pure loop) = .ok loop') :
    loop'.collateralSends = loop.collateralSends := by
  split at done
  case isTrue =>
    simp only [removeRedemption, bind_eq_ok, pure_eq_ok] at done
    obtain ⟨_, -, _, -, rfl⟩ := done
    rfl
  case isFalse =>
    obtain rfl := pure_eq_ok.mp done
    rfl

theorem redeemPosition_worth {basket : Basket} {discountRatio : Decimal}
    {premium userIndex credit nextId : Nat} {loop loop' : RedeemLoop}
    {entry : PositionRedemption × Nat} {position : Position} {price : AssetInfo → PriceResponse}
    (sound : SoundIds nextId loop.s.positions)
    (whole : loop.creditAmount = ⟨credit * Decimal.fractional⟩)
    (found : positionAt loop.s.positions loop.user.positionOwner entry.1.positionId = some position)
    (discount : decimalSubtraction Decimal.one (Decimal.percent premium) = .ok discountRatio)
    (narrow : basket.creditPrice.decimals < 2 ^ 32)
    (reads : ReadsPrices deps env loop.s.config loop.s.prices basket price
      (redeemableAssets entry.1 position))
    (done : redeemPosition deps env basket discountRatio premium userIndex loop entry = .ok loop') :
    sendsWorth price loop'.collateralSends ≤ sendsWorth price loop.collateralSends +
      exactValue basket.creditPrice
        (min (min entry.1.remainingLoanRepayment position.creditAmount) credit) *
          (1 - premium / 100) := by
  generalize hredeemed : min (min entry.1.remainingLoanRepayment position.creditAmount) credit =
    redeemed
  simp only [redeemPosition, bind_eq_ok] at done
  obtain ⟨⟨_, stored⟩, htarget, hrest⟩ := done
  obtain ⟨list, hlist, hat, hid⟩ := getTargetPosition_spec htarget
  obtain rfl : stored = position :=
    Option.some.inj ((hid ▸ positionAt_of_getElem? sound hlist hat).symm.trans found)
  rw [← discount_toRat discount]
  have hexact := exactValue_nonneg basket.creditPrice redeemed
  have hshare := mul_nonneg hexact discountRatio.toRat_nonneg
  split at hrest
  case isTrue =>
    simp only [removeRedemption, bind_eq_ok, pure_eq_ok] at hrest
    obtain ⟨_, -, _, -, rfl⟩ := hrest
    linarith
  case isFalse =>
    simp only [bind_eq_ok, pure_eq_ok, liftStd_eq_ok, decimalSubtraction_eq_ok] at hrest
    obtain ⟨⟨_, ratios, cAssetPrices⟩, hratios, remaining, hremaining, debt, hdebt, _, ⟨-, rfl⟩,
      _, -, _, -, _, -, loop₁, hloop₁, _, -, creditValue, hcredit, value, hvalue, ⟨_, sends⟩,
      hsends, ⟨_, _⟩, -, _, -, loop₂, hloop₂, _, -, rfl⟩ := hrest
    obtain rfl := Decimal.fromRatio_one hremaining
    obtain rfl := Decimal.fromRatio_one hdebt
    rw [whole, Decimal.min_whole, Decimal.min_whole, Decimal.toUintFloor_whole, hredeemed]
      at hcredit
    obtain ⟨hsum, hreads⟩ := getCAssetRatios_spec reads hratios
    have hworth := @redeemAssets_worth deps env _ _ _ _ price (redeemableAssets entry.1 stored) []
      ratios _ _ hreads hsends
    rw [removeRedemption_sends hloop₁] at hworth
    change sendsWorth price loop₂.collateralSends ≤ _
    rw [removeRedemption_sends hloop₂]
    obtain ⟨-, -, -, rfl⟩ := PriceResponse.getValue_eq_ok.mp hcredit
    have hvalued := valueOf_le_exactValue narrow redeemed
    have hdiscounted := multiplication_toRat_le hvalue
    calc sendsWorth price sends
        ≤ sendsWorth price loop.collateralSends + value.toRat * (ratios.map Decimal.toRat).sum :=
          hworth
      _ ≤ sendsWorth price loop.collateralSends + value.toRat := by
          have := mul_le_of_le_one_right value.toRat_nonneg hsum
          linarith
      _ ≤ _ := by
          have := mul_le_mul_of_nonneg_right hvalued discountRatio.toRat_nonneg
          linarith

/-! ## The whole redemption -/

theorem coinsIn_burnMsg (proxy : Addr) (denom : String) (amount : Nat) :
    (burnMsg proxy env denom amount).flatMap bankCoinsOf = [] := by
  unfold burnMsg
  split
  · rfl
  · rfl

theorem creditRefunded_eq {sender : Addr} {denom : String} {coins : List Coin}
    {burn excess : List (CosmosMsg OutMsg)} {left : Decimal}
    (noCoins : burn.flatMap bankCoinsOf = [])
    (sendsLeft : excess =
      if left.isZero then [] else [.bankSend sender [⟨denom, left.toUintFloor⟩]]) :
    creditRefunded denom (Response.addMessages {} ([.bankSend sender coins] ++ burn ++ excess)) =
      left.toUintFloor := by
  have hbehind : (Response.addMessages {} ([.bankSend sender coins] ++ burn ++ excess) :
      Response OutMsg).messages.drop 1 = (burn ++ excess).map SubMsg.new := by
    simp [Response.addMessages]
  rw [creditRefunded, coinsIn, hbehind, List.flatMap_map]
  simp only [SubMsg.new]
  rw [List.flatMap_append, noCoins, List.nil_append, sendsLeft]
  split
  case isTrue hzero =>
    rw [Decimal.isZero, beq_iff_eq] at hzero
    simp [Decimal.toUintFloor, hzero]
  case isFalse => simp [bankCoinsOf]

theorem redeemForCollateral_loop {info : MessageInfo} {maxCollateralPremium : Nat}
    {response : Response OutMsg}
    (done : redeemForCollateral deps env info maxCollateralPremium s = .ok (s', response)) :
    ∃ credit loop, info.funds = [⟨s.basket.creditAsset.info.toText, credit⟩] ∧
      (List.range (maxCollateralPremium + 1)).foldlM (redeemPremium deps env s.basket)
        ⟨s, ⟨credit * Decimal.fractional⟩, Decimal.zero, [], [], ⟨"", []⟩⟩ = .ok loop ∧
      loop.creditAmount ≠ ⟨credit * Decimal.fractional⟩ ∧ s' = loop.s ∧
      creditRefunded s.basket.creditAsset.info.toText response = loop.creditAmount.toUintFloor := by
  simp only [redeemForCollateral, bind_eq_ok, pure_eq_ok, guardErr_eq_ok, liftStd_eq_ok,
    Prod.mk.injEq] at done
  obtain ⟨credit, hsent, _, hcredit, loop, hloop, _, hsome, coins, _, rfl, rfl⟩ := done
  obtain rfl := Decimal.fromRatio_one hcredit
  refine ⟨credit, loop, (sentCredit_spec hsent).1, hloop, hsome, rfl, ?_⟩
  refine creditRefunded_eq ?_ rfl
  split
  · exact coinsIn_burnMsg _ _ _
  · rfl

/-- No redemption takes what it spends off the basket. It does take it off the
    positions. -/
theorem redemption_never_conserved {info : MessageInfo} {maxCollateralPremium : Option Nat}
    {response : Response OutMsg}
    (done : execute deps env info (.redeemCollateral maxCollateralPremium) s = .ok (s', response)) :
    ∃ spent, 0 < spent ∧
      spent + creditRefunded s.basket.creditAsset.info.toText response =
        creditSent s.basket.creditAsset.info.toText info ∧
      (s.Sound → totalDebt s'.positions + spent = totalDebt s.positions) ∧
      s'.basket.creditAsset = s.basket.creditAsset ∧
      ¬ RedemptionConserved deps env info (maxCollateralPremium.getD 99) spent s s' response := by
  have hredeem : redeemForCollateral deps env info (maxCollateralPremium.getD 99) s =
      .ok (s', response) := done
  obtain ⟨credit, loop, hfunds, hloop, hsome, rfl, hrefunded⟩ := redeemForCollateral_loop hredeem
  have hstart : WholeLeft s credit
      ⟨s, ⟨credit * Decimal.fractional⟩, Decimal.zero, [], [], ⟨"", []⟩⟩ :=
    ⟨.refl _, 0, Nat.zero_le _, rfl⟩
  obtain ⟨hbooks, spent, hbound, hleft⟩ := foldlM_keeps (WholeLeft s credit)
    (fun _ _ _ hinv hpremium => redeemPremium_wholeLeft hinv hpremium) _ _ _ hstart hloop
  have hpositive : 0 < spent := by
    refine Nat.pos_of_ne_zero fun hzero => hsome ?_
    rw [hleft, hzero, Nat.sub_zero]
  refine ⟨spent, hpositive, ?_, ?_, hbooks.creditAsset, ?_⟩
  · rw [hrefunded, hleft, Decimal.toUintFloor_whole, creditSent, hfunds, coinsOf_singleton,
      if_pos rfl]
    exact Nat.add_sub_cancel' hbound
  · intro sound
    obtain ⟨_, taken, run, -, -⟩ := redeemPremiums_redeeming (Redeeming.start credit sound) hloop
    have hatomics := congrArg Decimal.atomics (run.left.symm.trans hleft)
    have hwhole := Nat.eq_of_mul_eq_mul_right (by decide) hatomics
    have htaken := run.bound
    have hdebt := run.debt
    omega
  · intro conserved
    have hbasket := conserved.basket
    rw [hbooks.creditAsset] at hbasket
    omega

theorem redemption_burned {info : MessageInfo} {maxCollateralPremium : Option Nat}
    {response : Response OutMsg} (sound : s.Sound) (proxy : s.config.osmosisProxy.isSome)
    (once : RedeemsOnce s (creditSent s.basket.creditAsset.info.toText info)
      (maxCollateralPremium.getD 99))
    (done : execute deps env info (.redeemCollateral maxCollateralPremium) s = .ok (s', response)) :
    totalDebt s'.positions + burned s.basket.creditAsset.info.toText response =
      totalDebt s.positions := by
  have hredeem : redeemForCollateral deps env info (maxCollateralPremium.getD 99) s =
      .ok (s', response) := done
  obtain ⟨credit, taken, hsent, redeemed, -, hburned⟩ := redeemForCollateral_spec sound hredeem
  have hcredit : creditSent s.basket.creditAsset.info.toText info = credit := by
    rw [creditSent, (sentCredit_spec hsent).1, coinsOf_singleton, if_pos rfl]
  rw [hburned proxy (hcredit ▸ once)]
  simpa using redeemed.moved.debt

end

/-! ## On a sample chain -/

/-- Two borrowers opt in, one for half of the debt at no premium, the other at one
    percent. -/
def twoOptIns : List Call := borrowing ++ [
  sampleDeposit 0 "other" none 30000000000 (by decide),
  sampleCall 0 "other" (.increaseDebt 2 (some 1000000000) none none),
  sampleCall 0 "user" (.editRedeemability [1] ⟨some true, some 0, some (Decimal.percent 50), none⟩),
  sampleCall 0 "other" (.editRedeemability [2] ⟨some true, some 1, none, none⟩)]

/-- A redemption with 700000000 of the debt token, which takes from both. -/
def sampleRedemption : Call :=
  ⟨atPar, atTime 0, MessageInfo.oneCoin "keeper" ⟨"ucdt", 700000000⟩ (by decide),
    .redeemCollateral (some 1)⟩

def sampleResponse (calls : List Call) (call : Call) : Option (State × State × Response OutMsg) :=
  (afterGenesis 0 calls).bind fun s =>
    match execute call.deps call.env call.info call.msg s with
    | .ok (s', response) => some (s, s', response)
    | .error _ => none

theorem sampleResponse_spec {calls : List Call} {call : Call} {s s' : State}
    {response : Response OutMsg} (done : sampleResponse calls call = some (s, s', response)) :
    afterGenesis 0 calls = some s ∧
      execute call.deps call.env call.info call.msg s = .ok (s', response) := by
  obtain ⟨start, hstart, hcall⟩ := Option.bind_eq_some_iff.mp done
  split at hcall
  case h_1 hdone =>
    obtain ⟨rfl, rfl, rfl⟩ := by simpa only [Option.some.injEq, Prod.mk.injEq] using hcall
    exact ⟨hstart, hdone⟩
  case h_2 => cases hcall

theorem redemption_never_conserved_two_opt_ins :
    ∃ s s' response spent, sampleResponse twoOptIns sampleRedemption = some (s, s', response) ∧
      0 < spent ∧ s'.basket.creditAsset = s.basket.creditAsset ∧
      ¬ RedemptionConserved atPar (atTime 0) sampleRedemption.info 1 spent s s' response := by
  have hsome : (sampleResponse twoOptIns sampleRedemption).isSome = true := by decide +kernel
  obtain ⟨⟨s, s', response⟩, hrun⟩ := Option.isSome_iff_exists.mp hsome
  obtain ⟨spent, hpositive, -, -, hbasket, hnot⟩ :=
    redemption_never_conserved (sampleResponse_spec hrun).2
  exact ⟨s, s', response, spent, hrun, hpositive, hbasket, hnot⟩

/-- What a redemption spends is neither all burned nor taken off the basket: two
    positions give up 700000000 of debt, 200000000 is burned, the last part. -/
theorem redemption_not_conserved :
    ¬ ∀ calls call maxCollateralPremium s s' response spent,
      call.msg = .redeemCollateral (some maxCollateralPremium) →
      sampleResponse calls call = some (s, s', response) →
      spent + creditRefunded s.basket.creditAsset.info.toText response =
        creditSent s.basket.creditAsset.info.toText call.info →
      RedemptionConserved call.deps call.env call.info maxCollateralPremium spent s s'
        response := by
  intro claim
  have hamounts : (sampleResponse twoOptIns sampleRedemption).map (fun run =>
      (run.1.basket.creditAsset.info.toText, burned "ucdt" run.2.2, creditRefunded "ucdt" run.2.2,
        creditSent "ucdt" sampleRedemption.info)) = some ("ucdt", 200000000, 0, 700000000) := by
    decide +kernel
  obtain ⟨⟨s, s', response⟩, hrun, hamounts⟩ := Option.map_eq_some_iff.mp hamounts
  simp only [Prod.mk.injEq] at hamounts
  obtain ⟨hdenom, hburned, hrefunded, hsent⟩ := hamounts
  have hconserved := claim twoOptIns sampleRedemption 1 s s' response 700000000 rfl hrun
    (by rw [hdenom, hrefunded, hsent])
  have hall := hconserved.burned
  rw [hdenom, hburned] at hall
  omega

end Membrane.Cdp
