import Membrane.Auction.Proofs.Recapitalization
import Membrane.Lib.Truncation

/-!
# What the sale of fees pays out

A swap for a fee that is worth less than the auction is paid at the discounted price, and
what is left to sell is computed from the rest of the discounted value at that price. The
price and the value have been truncated by then, so the two may come to more than there
was. Where what is cut off the price comes to less than a unit over all that is on sale,
nothing is paid twice.
-/

namespace Membrane.Auction

open Outcome

/-! ## What a swap goes by -/

/-- What a swap for a fee reads: the two prices, the discount, the amount sent and the
    amount on sale. -/
structure FeeQuote where
  desired : PriceResponse
  auctioned : PriceResponse
  discountRatio : Decimal
  sent : Nat
  onSale : Nat
  deriving DecidableEq, Repr

def feeQuote (deps : Deps) (env : Env) (info : MessageInfo) (auctionAsset : AssetInfo) (s : State) :
    Result FeeQuote := do
  let coin ← sentCoin info s.config.desiredAsset
  let auction ← Outcome.ofOption (s.feeAuctions.lookup auctionAsset.toText)
    (.std (.notFound "membrane::types::FeeAuction"))
  Outcome.guardErr (auction.auctionAsset.amount = 0 ∨ env.blockTime < auction.auctionStartTime)
    (.std (.genericErr "Auction isn't running now"))
  let desiredPrice ← liftStd (priceOf deps s.config s.config.desiredAsset)
  let auctionPrice ← liftStd (priceOf deps s.config auction.auctionAsset.info.toText)
  let discountRatio ← liftStd (getDiscountRatio env auction.auctionStartTime s.config)
  pure ⟨desiredPrice, auctionPrice, discountRatio, coin.amount, auction.auctionAsset.amount⟩

def unitsOf (price : PriceResponse) : Nat := 10 ^ (price.decimals % 2 ^ 32)

namespace FeeQuote

def desiredValue (q : FeeQuote) : Nat :=
  truncValue Decimal.fractional (unitsOf q.desired) q.desired.price.atomics q.sent

def auctionValue (q : FeeQuote) : Nat :=
  truncValue Decimal.fractional (unitsOf q.auctioned) q.auctioned.price.atomics q.onSale *
    q.discountRatio.atomics / Decimal.fractional

def exactPrice (q : FeeQuote) : Nat := q.auctioned.price.atomics * q.discountRatio.atomics

def discountedPrice (q : FeeQuote) : Nat := q.exactPrice / Decimal.fractional

/-- Where the coin does not buy the whole auction: what the truncation cuts off the discounted
    price, over the whole amount on sale, is less than that price of a unit. Where it does: the
    truncation of the discounted value costs at most a unit. -/
def Fair (q : FeeQuote) : Prop :=
  if q.desiredValue < q.auctionValue then
    q.onSale * (q.exactPrice % Decimal.fractional) < q.discountedPrice * Decimal.fractional
  else q.onSale * q.exactPrice ≤
    q.auctionValue * unitsOf q.auctioned * Decimal.fractional + q.exactPrice

instance (q : FeeQuote) : Decidable q.Fair := by
  unfold Fair
  infer_instance

/-- The value of what is received, at the discount, is at most the value of what is kept,
    up to one unit of what is received. -/
def PaysAtMost (q : FeeQuote) (received kept : Nat) : Prop :=
  received * q.exactPrice * unitsOf q.desired ≤
    kept * q.desired.price.atomics * unitsOf q.auctioned * Decimal.fractional +
      q.exactPrice * unitsOf q.desired

def settle (q : FeeQuote) : Outcome StdError FeeSwap :=
  settleFeeSwap q.desired q.auctioned q.discountRatio q.sent q.onSale

end FeeQuote

/-! ## Prices -/

theorem fractional_positive : 0 < Decimal.fractional := by decide

theorem tenPow_units {ε : Type} {price : PriceResponse} {units : Nat}
    (done : (Uint64.tenPow price.decimals : Outcome ε Nat) = .ok units) :
    units = unitsOf price := by
  unfold Uint64.tenPow at done
  split at done
  · exact (Except.ok.inj done).symm
  · cases done

theorem multiplication_atomics {a b c : Decimal} (done : decimalMultiplication a b = .ok c) :
    c.atomics = a.atomics * b.atomics / Decimal.fractional := by
  simp only [decimalMultiplication, mapErr_eq_ok, Decimal.checkedMul, ofOption_eq_ok,
    Decimal.fits_eq_some] at done
  rw [done.2]

theorem getValue_atomics {price : PriceResponse} {amount : Nat} {value : Decimal}
    (done : price.getValue amount = .ok value) :
    value.atomics = truncValue Decimal.fractional (unitsOf price) price.price.atomics amount := by
  simp only [PriceResponse.getValue, bind_eq_ok] at done
  obtain ⟨units, hunits, scaled, hscaled, hvalue⟩ := done
  rw [multiplication_atomics hvalue, truncValue, ← tenPow_units hunits]
  unfold Decimal.fromRatio at hscaled
  split at hscaled
  · cases hscaled
  · rw [unwrap_eq_ok, Decimal.fits_eq_some] at hscaled
    rw [hscaled.2]

theorem getAmount_units {price : PriceResponse} {value : Decimal} {amount : Nat}
    (done : price.getAmount value = .ok amount) :
    amount = truncAmount Decimal.fractional (unitsOf price) price.price.atomics value.atomics ∧
      0 < price.price.atomics := by
  simp only [PriceResponse.getAmount, bind_eq_ok, decimalDivision, mapErr_eq_ok,
    Decimal.checkedDiv] at done
  obtain ⟨scaled, hscaled, units, hunits, hamount⟩ := done
  split at hscaled
  · cases hscaled
  · next hpositive =>
    rw [ofOption_eq_ok, Decimal.fits_eq_some] at hscaled
    rw [Decimal.mulUint_eq_ok hamount, truncAmount, ← tenPow_units hunits, hscaled.2]
    exact ⟨rfl, Nat.pos_of_ne_zero hpositive⟩

theorem sub_atomics {a b c : Decimal}
    (done : (Decimal.sub a b : Outcome StdError Decimal) = .ok c) :
    b.atomics ≤ a.atomics ∧ c.atomics = a.atomics - b.atomics := by
  unfold Decimal.sub at done
  split at done
  · next hle =>
    rw [← Except.ok.inj done]
    exact ⟨hle, rfl⟩
  · cases done

/-! ## One swap -/

/-- The three cases of a settlement. -/
inductive Settlement (q : FeeQuote) : FeeSwap → Prop
  | excess (price : 0 < q.desired.price.atomics) (more : q.auctionValue < q.desiredValue) :
      Settlement q ⟨truncAmount Decimal.fractional (unitsOf q.desired) q.desired.price.atomics
        (q.desiredValue - q.auctionValue), q.onSale, 0⟩
  | part (price : 0 < q.discountedPrice) (less : q.desiredValue < q.auctionValue) :
      Settlement q ⟨0,
        truncAmount Decimal.fractional (unitsOf q.auctioned) q.discountedPrice q.desiredValue,
        truncAmount Decimal.fractional (unitsOf q.auctioned) q.discountedPrice
          (q.auctionValue - q.desiredValue)⟩
  | whole (same : q.desiredValue = q.auctionValue) : Settlement q ⟨0, q.onSale, 0⟩

section

variable {q : FeeQuote} {swap : FeeSwap}

theorem settle_spec (done : q.settle = .ok swap) : Settlement q swap := by
  simp only [FeeQuote.settle, settleFeeSwap, bind_eq_ok] at done
  obtain ⟨desired, hdesired, worth, hworth, auctioned, hauctioned, hrest⟩ := done
  have hdesiredValue : desired.atomics = q.desiredValue := getValue_atomics hdesired
  have hauctionValue : auctioned.atomics = q.auctionValue := by
    rw [multiplication_atomics hauctioned, getValue_atomics hworth]
    rfl
  split at hrest
  case isTrue hmore =>
    simp only [bind_eq_ok, pure_eq_ok] at hrest
    obtain ⟨surplus, hsurplus, overpay, hoverpay, rfl⟩ := hrest
    obtain ⟨hamount, hprice⟩ := getAmount_units hoverpay
    rw [hamount, (sub_atomics hsurplus).2, hdesiredValue, hauctionValue]
    refine .excess hprice ?_
    rw [← hdesiredValue, ← hauctionValue]
    exact hmore
  case isFalse hmore =>
    split at hrest
    case isTrue hless =>
      simp only [bind_eq_ok, pure_eq_ok] at hrest
      obtain ⟨price, hprice, paid, hpaid, rest, hrest, left, hleft, rfl⟩ := hrest
      have hdiscounted : price.atomics = q.discountedPrice := multiplication_atomics hprice
      obtain ⟨hpaid, hpositive⟩ := getAmount_units hpaid
      obtain ⟨hleft, -⟩ := getAmount_units hleft
      rw [hpaid, hleft, (sub_atomics hrest).2, hdesiredValue, hauctionValue]
      simp only [hdiscounted] at hpositive ⊢
      refine .part hpositive ?_
      rw [← hdesiredValue, ← hauctionValue]
      exact hless
    case isFalse hless =>
      rw [← pure_eq_ok.mp hrest]
      refine .whole ?_
      rw [← hdesiredValue, ← hauctionValue]
      exact Nat.le_antisymm (Nat.le_of_not_lt hmore) (Nat.le_of_not_lt hless)

theorem Settlement.kept_worth (settled : Settlement q swap)
    (all : ¬ q.desiredValue < q.auctionValue) :
    swap.overpay ≤ q.sent ∧ q.auctionValue * unitsOf q.desired ≤
      (q.sent - swap.overpay) * q.desired.price.atomics := by
  have hsent : q.desiredValue * unitsOf q.desired ≤ q.desired.price.atomics * q.sent :=
    truncValue_mul_le q.sent fractional_positive
  cases settled with
  | part _ hless => exact absurd hless all
  | whole hsame =>
    refine ⟨Nat.zero_le _, ?_⟩
    rw [← hsame, Nat.sub_zero, Nat.mul_comm q.sent]
    exact hsent
  | excess hprice hmore =>
    have hback : truncAmount Decimal.fractional (unitsOf q.desired) q.desired.price.atomics
        (q.desiredValue - q.auctionValue) * q.desired.price.atomics ≤
          (q.desiredValue - q.auctionValue) * unitsOf q.desired :=
      truncAmount_mul_le _ fractional_positive
    dsimp only
    generalize truncAmount Decimal.fractional (unitsOf q.desired) q.desired.price.atomics
      (q.desiredValue - q.auctionValue) = overpay at hback ⊢
    have hsplit : (q.desiredValue - q.auctionValue) * unitsOf q.desired +
        q.auctionValue * unitsOf q.desired = q.desiredValue * unitsOf q.desired := by
      rw [← Nat.add_mul, Nat.sub_add_cancel (Nat.le_of_lt hmore)]
    have hle : overpay ≤ q.sent := by
      refine Nat.le_of_mul_le_mul_right ?_ hprice
      rw [Nat.mul_comm q.sent]
      omega
    refine ⟨hle, ?_⟩
    rw [Nat.sub_mul, Nat.mul_comm q.sent]
    omega

theorem Settlement.overpay_le (settled : Settlement q swap) : swap.overpay ≤ q.sent := by
  by_cases hless : q.desiredValue < q.auctionValue
  · cases settled with
    | part => exact Nat.zero_le _
    | excess _ hmore => exact absurd hmore (Nat.lt_asymm hless)
    | whole hsame => exact absurd hsame (Nat.ne_of_lt hless)
  · exact (settled.kept_worth hless).1

theorem auctionValue_worth (q : FeeQuote) :
    q.auctionValue * unitsOf q.auctioned * Decimal.fractional ≤ q.onSale * q.exactPrice := by
  have hworth : truncValue Decimal.fractional (unitsOf q.auctioned) q.auctioned.price.atomics
      q.onSale * unitsOf q.auctioned ≤ q.auctioned.price.atomics * q.onSale :=
    truncValue_mul_le q.onSale fractional_positive
  have hvalue : q.auctionValue * Decimal.fractional ≤ truncValue Decimal.fractional
      (unitsOf q.auctioned) q.auctioned.price.atomics q.onSale * q.discountRatio.atomics :=
    Nat.div_mul_le_self _ _
  unfold FeeQuote.exactPrice
  generalize truncValue Decimal.fractional (unitsOf q.auctioned) q.auctioned.price.atomics
    q.onSale = worth at hworth hvalue
  generalize Decimal.fractional = parts at hvalue ⊢
  calc q.auctionValue * unitsOf q.auctioned * parts
      = q.auctionValue * parts * unitsOf q.auctioned := by ring
    _ ≤ worth * q.discountRatio.atomics * unitsOf q.auctioned := Nat.mul_le_mul_right _ hvalue
    _ = worth * unitsOf q.auctioned * q.discountRatio.atomics := by ring
    _ ≤ q.auctioned.price.atomics * q.onSale * q.discountRatio.atomics :=
        Nat.mul_le_mul_right _ hworth
    _ = q.onSale * (q.auctioned.price.atomics * q.discountRatio.atomics) := by ring

theorem auctionAmount_le (price : 0 < q.discountedPrice)
    (little : q.onSale * (q.exactPrice % Decimal.fractional) <
      q.discountedPrice * Decimal.fractional) :
    truncAmount Decimal.fractional (unitsOf q.auctioned) q.discountedPrice q.auctionValue ≤
      q.onSale := by
  have hbuys : truncAmount Decimal.fractional (unitsOf q.auctioned) q.discountedPrice
      q.auctionValue * q.discountedPrice ≤ q.auctionValue * unitsOf q.auctioned :=
    truncAmount_mul_le _ fractional_positive
  have hworth := auctionValue_worth q
  have hexact : q.exactPrice = q.discountedPrice * Decimal.fractional +
      q.exactPrice % Decimal.fractional := (Nat.div_add_mod' _ _).symm
  have hpositive : 0 < q.discountedPrice * Decimal.fractional :=
    Nat.mul_pos price fractional_positive
  generalize truncAmount Decimal.fractional (unitsOf q.auctioned) q.discountedPrice
    q.auctionValue = amount at hbuys ⊢
  generalize q.exactPrice % Decimal.fractional = cut at hexact little
  rw [hexact] at hworth
  generalize Decimal.fractional = parts at *
  apply Nat.le_of_lt_succ
  refine Nat.lt_of_mul_lt_mul_right (a := q.discountedPrice * parts) ?_
  calc amount * (q.discountedPrice * parts)
      = amount * q.discountedPrice * parts := by ring
    _ ≤ q.auctionValue * unitsOf q.auctioned * parts := Nat.mul_le_mul_right _ hbuys
    _ ≤ q.onSale * (q.discountedPrice * parts + cut) := hworth
    _ = q.onSale * (q.discountedPrice * parts) + q.onSale * cut := Nat.mul_add _ _ _
    _ < q.onSale * (q.discountedPrice * parts) + q.discountedPrice * parts :=
        Nat.add_lt_add_left little _
    _ = (q.onSale + 1) * (q.discountedPrice * parts) := by ring

theorem cut_close (less : q.desiredValue < q.auctionValue)
    (little : q.onSale * (q.exactPrice % Decimal.fractional) <
      q.discountedPrice * Decimal.fractional) :
    q.desiredValue * unitsOf q.auctioned *
      (q.exactPrice - q.exactPrice / Decimal.fractional * Decimal.fractional) ≤
        q.exactPrice / Decimal.fractional * q.exactPrice := by
  have hworth := auctionValue_worth q
  have hcut : q.exactPrice - q.exactPrice / Decimal.fractional * Decimal.fractional =
      q.exactPrice % Decimal.fractional := by
    have hsplit := Nat.div_add_mod' q.exactPrice Decimal.fractional
    omega
  rw [hcut]
  change _ ≤ q.discountedPrice * q.exactPrice
  refine Nat.le_of_mul_le_mul_right ?_ fractional_positive
  generalize q.exactPrice % Decimal.fractional = cut at little ⊢
  generalize Decimal.fractional = parts at *
  calc q.desiredValue * unitsOf q.auctioned * cut * parts
      = q.desiredValue * (unitsOf q.auctioned * cut * parts) := by ring
    _ ≤ q.auctionValue * (unitsOf q.auctioned * cut * parts) :=
        Nat.mul_le_mul_right _ (Nat.le_of_lt less)
    _ = q.auctionValue * unitsOf q.auctioned * parts * cut := by ring
    _ ≤ q.onSale * q.exactPrice * cut := Nat.mul_le_mul_right _ hworth
    _ = q.onSale * cut * q.exactPrice := by ring
    _ ≤ q.discountedPrice * parts * q.exactPrice := Nat.mul_le_mul_right _ (Nat.le_of_lt little)
    _ = q.discountedPrice * q.exactPrice * parts := by ring

theorem Settlement.conserves (settled : Settlement q swap) (fair : q.Fair) :
    swap.successfulSwapAmount + swap.left ≤ q.onSale := by
  unfold FeeQuote.Fair at fair
  cases settled with
  | excess => exact Nat.le_refl _
  | whole => exact Nat.le_refl _
  | part hprice hless =>
    rw [if_pos hless] at fair
    refine Nat.le_trans (truncAmount_add_le _ _) ?_
    rw [Nat.add_sub_cancel' (Nat.le_of_lt hless)]
    exact auctionAmount_le hprice fair

theorem Settlement.pays_at_most (settled : Settlement q swap) (fair : q.Fair) :
    q.PaysAtMost swap.successfulSwapAmount (q.sent - swap.overpay) := by
  unfold FeeQuote.Fair at fair
  unfold FeeQuote.PaysAtMost
  by_cases hless : q.desiredValue < q.auctionValue
  · rw [if_pos hless] at fair
    cases settled with
    | excess _ hmore => exact absurd hmore (Nat.lt_asymm hless)
    | whole hsame => exact absurd hsame (Nat.ne_of_lt hless)
    | part hprice _ =>
      have hsent : q.desiredValue * unitsOf q.desired ≤ q.desired.price.atomics * q.sent :=
        truncValue_mul_le q.sent fractional_positive
      have hreceived := truncAmount_exact_le fractional_positive hprice (cut_close hless fair)
      dsimp only
      rw [Nat.sub_zero]
      change truncAmount _ _ q.discountedPrice _ * _ ≤ _ at hreceived
      generalize truncAmount Decimal.fractional (unitsOf q.auctioned) q.discountedPrice
        q.desiredValue = received at hreceived ⊢
      generalize Decimal.fractional = parts at hreceived ⊢
      calc received * q.exactPrice * unitsOf q.desired
          ≤ (q.desiredValue * unitsOf q.auctioned * parts + q.exactPrice) * unitsOf q.desired :=
            Nat.mul_le_mul_right _ hreceived
        _ = q.desiredValue * unitsOf q.desired * (unitsOf q.auctioned * parts) +
              q.exactPrice * unitsOf q.desired := by ring
        _ ≤ q.desired.price.atomics * q.sent * (unitsOf q.auctioned * parts) +
              q.exactPrice * unitsOf q.desired :=
            Nat.add_le_add_right (Nat.mul_le_mul_right _ hsent) _
        _ = q.sent * q.desired.price.atomics * unitsOf q.auctioned * parts +
              q.exactPrice * unitsOf q.desired := by ring
  · rw [if_neg hless] at fair
    obtain ⟨-, hkept⟩ := settled.kept_worth hless
    have hall : swap.successfulSwapAmount = q.onSale := by
      cases settled with
      | excess => rfl
      | whole => rfl
      | part _ hpart => exact absurd hpart hless
    rw [hall]
    generalize Decimal.fractional = parts at fair ⊢
    calc q.onSale * q.exactPrice * unitsOf q.desired
        ≤ (q.auctionValue * unitsOf q.auctioned * parts + q.exactPrice) * unitsOf q.desired :=
          Nat.mul_le_mul_right _ fair
      _ = q.auctionValue * unitsOf q.desired * (unitsOf q.auctioned * parts) +
            q.exactPrice * unitsOf q.desired := by ring
      _ ≤ (q.sent - swap.overpay) * q.desired.price.atomics * (unitsOf q.auctioned * parts) +
            q.exactPrice * unitsOf q.desired :=
          Nat.add_le_add_right (Nat.mul_le_mul_right _ hkept) _
      _ = (q.sent - swap.overpay) * q.desired.price.atomics * unitsOf q.auctioned * parts +
            q.exactPrice * unitsOf q.desired := by ring

end

end Membrane.Auction
