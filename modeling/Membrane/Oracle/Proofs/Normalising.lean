import Membrane.Lib.ConversionLoss
import Membrane.Oracle.Proofs.Batches
import Membrane.Std.Rational

/-!
# Decimals of a route

The TWAPs of a route multiply to units of the last quote for one unit of the asset. With the
decimals of both, and the USD price of the quote, that gives the price of a whole token. The
decimal point is moved the right way from an asset with more decimals than its quote, and the
wrong way from one with fewer.
-/

namespace Membrane

theorem Uint128.checkedPow_eq_ok {base exp power : Nat} :
    Uint128.checkedPow base exp = .ok power ↔ base ^ exp < Uint128.limit ∧ base ^ exp = power := by
  unfold Uint128.checkedPow
  by_cases hfits : base ^ exp < Uint128.limit
  · simp [hfits]
  · simp [hfits]

theorem foldlM_decimalMultiplication {steps : List Decimal} {start product : Decimal}
    (done : steps.foldlM decimalMultiplication start = .ok product) :
    product.atomics = roundedProduct start.atomics (steps.map (·.toRat)) := by
  induction steps generalizing start with
  | nil =>
    obtain rfl := Except.ok.inj done
    rfl
  | cons step rest ih =>
    rw [List.foldlM_cons, Outcome.bind_eq_ok] at done
    obtain ⟨mid, hmid, hrest⟩ := done
    obtain ⟨-, rfl⟩ := decimalMultiplication_eq_ok.mp hmid
    rw [List.map_cons, roundedProduct_cons, floor_mul_toRat]
    exact ih hrest

namespace Oracle

open Outcome Fueled

/-! ## Moving the decimal point -/

section

variable {decimals quoteDecimals : Nat} {price moved : Decimal}

theorem moveDecimals_down (few : decimals < 20) (le : quoteDecimals ≤ decimals)
    (done : moveDecimals decimals quoteDecimals price = .ok moved) :
    moved.atomics = price.atomics * 10 ^ (decimals - quoteDecimals) := by
  unfold moveDecimals at done
  by_cases hless : quoteDecimals < decimals
  · rw [if_pos hless] at done
    simp only [bind_eq_ok, subUint_eq_ok, Uint128.checkedPow_eq_ok, Decimal.fromRatio_eq_ok,
      decimalMultiplication_eq_ok] at done
    obtain ⟨_, ⟨-, rfl⟩, _, ⟨-, rfl⟩, _, ⟨-, -, rfl⟩, -, rfl⟩ := done
    rw [Nat.mod_eq_of_lt (by omega), Nat.mod_eq_of_lt (by omega), Nat.div_one, ← Nat.mul_assoc]
    exact Nat.mul_div_cancel _ (by decide)
  · rw [if_neg hless, if_neg (by omega)] at done
    obtain rfl := pure_eq_ok.mp done
    rw [Nat.sub_eq_zero_of_le (by omega), Nat.pow_zero, Nat.mul_one]

theorem moveDecimals_up (few : decimals < 20) (less : decimals < quoteDecimals)
    (done : moveDecimals decimals quoteDecimals price = .ok moved) :
    decimals ≤ quoteDecimals % 2 ^ 32 ∧
      moved.atomics = price.atomics * 10 ^ (quoteDecimals % 2 ^ 32 - decimals) := by
  unfold moveDecimals at done
  rw [if_neg (by omega), if_pos less] at done
  simp only [bind_eq_ok, subUint_eq_ok, Uint128.checkedPow_eq_ok, Decimal.fromRatio_eq_ok,
    decimalDivision_eq_ok] at done
  obtain ⟨_, ⟨hle, rfl⟩, _, ⟨-, rfl⟩, _, ⟨-, -, rfl⟩, hsome, -, rfl⟩ := done
  rw [Nat.mod_eq_of_lt (show decimals < 2 ^ 32 by omega)] at hle hsome ⊢
  refine ⟨hle, ?_⟩
  generalize quoteDecimals % 2 ^ 32 - decimals = exp at hsome ⊢
  -- a power of ten below the fractional divides it
  have hexp : exp ≤ 18 := by
    by_contra hmany
    refine hsome (Nat.div_eq_of_lt ?_)
    rw [Nat.one_mul]
    calc Decimal.fractional < 10 ^ 19 := by decide
      _ ≤ 10 ^ exp := Nat.pow_le_pow_right (by decide) (by omega)
  have hsplit : 1 * Decimal.fractional = 10 ^ exp * 10 ^ (18 - exp) := by
    rw [← Nat.pow_add, Nat.add_sub_cancel' hexp]
    rfl
  simp only
  rw [hsplit, Nat.mul_div_cancel_left _ (by positivity)]
  calc price.atomics * Decimal.fractional / 10 ^ (18 - exp)
      = price.atomics * 10 ^ exp * 10 ^ (18 - exp) / 10 ^ (18 - exp) := by
        rw [Nat.mul_assoc, ← hsplit, Nat.one_mul]
    _ = price.atomics * 10 ^ exp := Nat.mul_div_cancel _ (by positivity)

end

/-! ## The value of a whole token -/

theorem getValue_whole {response : Membrane.PriceResponse}
    (fits : response.price.atomics < Uint128.limit) :
    response.getValue (10 ^ response.decimals) = .ok response.price ↔ response.decimals < 20 := by
  unfold Membrane.PriceResponse.getValue
  simp only [bind_eq_ok, Uint64.tenPow_eq_ok, Decimal.fromRatio_eq_ok, decimalMultiplication_eq_ok]
  constructor
  · rintro ⟨_, ⟨hsmall, rfl⟩, _, ⟨-, hratio, rfl⟩, -⟩
    by_contra hmany
    -- the power of ten wrapped around
    have hwrapped : 39 ≤ response.decimals - response.decimals % 2 ^ 32 := by omega
    refine absurd hratio (Nat.not_lt.mpr ?_)
    rw [Nat.le_div_iff_mul_le (by positivity)]
    calc Uint128.limit * 10 ^ (response.decimals % 2 ^ 32)
        ≤ 10 ^ (response.decimals - response.decimals % 2 ^ 32) *
            10 ^ (response.decimals % 2 ^ 32) := by
          refine Nat.mul_le_mul_right _ ?_
          calc Uint128.limit ≤ 10 ^ 39 := by decide
            _ ≤ _ := Nat.pow_le_pow_right (by decide) hwrapped
      _ = 10 ^ response.decimals := by
          rw [← Nat.pow_add, Nat.sub_add_cancel (Nat.mod_le _ _)]
      _ ≤ 10 ^ response.decimals * Decimal.fractional := Nat.le_mul_of_pos_right _ (by decide)
  · intro hsmall
    rw [Nat.mod_eq_of_lt (show response.decimals < 2 ^ 32 by omega)]
    have hone : 10 ^ response.decimals * Decimal.fractional / 10 ^ response.decimals =
        Decimal.fractional := Nat.mul_div_cancel_left _ (by positivity)
    have hprice : response.price.atomics * Decimal.fractional / Decimal.fractional =
        response.price.atomics := Nat.mul_div_cancel _ (by decide)
    refine ⟨_, ⟨hsmall, rfl⟩, ⟨Decimal.fractional⟩, ⟨by positivity, ?_, ?_⟩, ?_, ?_⟩
    · rw [hone]
      decide
    · rw [hone]
    · rwa [hprice]
    · rw [hprice]

/-! ## Routes -/

def routeTwaps (asset : AssetInfo) (steps : List Decimal) : List Decimal :=
  if asset.toText = "uosmo" then [] else steps

/-- What the price of an asset is the product of: the TWAPs of its route, the difference in
    decimals to the last quote, and the price of that. -/
def priceFactors (asset : AssetInfo) (steps : List Decimal) (decimals quoteDecimals : Nat)
    (quotePrice : Decimal) : List ℚ :=
  (routeTwaps asset steps).map (·.toRat) ++ [10 ^ decimals / 10 ^ quoteDecimals, quotePrice.toRat]

def AssetOracleInfo.limited (oracleInfo : AssetOracleInfo) (price : Decimal) : Decimal :=
  if oracleInfo.quotedIn = none ∧ oracleInfo.isUsdPar then price.min staticUsdPrice else price

section

variable {deps : Deps} {s : State} {query : Query} {fuel : Nat} {asset : AssetInfo}
  {queried : Queried} {osmoQuotePrice : Option Decimal} {oracleInfo trailing : AssetOracleInfo}
  {steps : List Decimal} {quotePrice : Decimal}

/-- What the price of an asset without a Pyth price is put together from: its oracle, the
    TWAPs of its route, the oracle of the last quote, and the USD price of that. -/
structure Routed (deps : Deps) (s : State) (query : Query) (fuel : Nat) (asset : AssetInfo)
    (queried : Queried) (osmoQuotePrice : Option Decimal) (oracleInfo trailing : AssetOracleInfo)
    (steps : List Decimal) (quotePrice : Decimal) : Prop where
  oracle : oracleInfoFor s.assets query.basket asset.toText = .ok oracleInfo
  unfed : ∃ sources, pythPrice deps s.config query oracleInfo = .ok (sources, none)
  read : ∃ start, startTime query = .ok start ∧
    twaps deps oracleInfo.poolsForOsmoTwap start = .ok steps
  lastQuote : ∃ denom, oracleInfo.lastQuote = some denom ∧
    oracleInfoFor s.assets query.basket denom = .ok trailing
  quoted : match oracleInfo.quotedIn with
    | some denom => ∃ quote, QuotePriced deps s query fuel queried osmoQuotePrice denom quote ∧
        quote.1.price = quotePrice
    | none => ∃ start pushed, startTime query = .ok start ∧
        osmoQuote deps s.config query start osmoQuotePrice = .ok (pushed, quotePrice)

theorem QuotePriced.unique {denom : String} {quote quote' : PriceResponse × Option Decimal}
    (priced : QuotePriced deps s query fuel queried osmoQuotePrice denom quote)
    (priced' : QuotePriced deps s query fuel queried osmoQuotePrice denom quote') :
    quote = quote' := by
  rcases priced with ⟨hfound, hsame⟩ | ⟨hnone, hreturns⟩
  · rcases priced' with ⟨hfound', hsame'⟩ | ⟨hnone', -⟩
    · exact Prod.ext (Option.some.inj (hfound.symm.trans hfound')) (hsame.symm.trans hsame')
    · rw [hfound] at hnone'
      cases hnone'
  · rcases priced' with ⟨hfound', -⟩ | ⟨-, hreturns'⟩
    · rw [hnone] at hfound'
      cases hfound'
    · exact hreturns.unique hreturns'

theorem assetPriceInOsmo_spec {start : Nat} {denom : String} {priceInOsmo : Decimal}
    (read : twaps deps oracleInfo.poolsForOsmoTwap start = .ok steps)
    (last : oracleInfo.lastQuote = some denom)
    (trails : oracleInfoFor s.assets query.basket denom = .ok trailing)
    (done : assetPriceInOsmo deps s.assets query oracleInfo asset.toText start = .ok priceInOsmo) :
    ∃ product : Decimal, product.atomics =
        roundedProduct Decimal.fractional ((routeTwaps asset steps).map (·.toRat)) ∧
      moveDecimals oracleInfo.decimals trailing.decimals product = .ok priceInOsmo := by
  unfold assetPriceInOsmo at done
  simp only [read, last, trails, bind_eq_ok, Except.ok.injEq] at done
  obtain ⟨_, rfl, _, -, product, hproduct, _, rfl, hmoved⟩ := done
  refine ⟨product, ?_, hmoved⟩
  unfold routeTwaps
  split at hproduct
  case isTrue hosmo =>
    obtain rfl := pure_eq_ok.mp hproduct
    rw [if_pos hosmo]
    rfl
  case isFalse hosmo =>
    rw [if_neg hosmo]
    exact foldlM_decimalMultiplication hproduct

theorem Routed.price {result : PriceResponse × Option Decimal}
    (routed : Routed deps s query fuel asset queried osmoQuotePrice oracleInfo trailing steps
      quotePrice)
    (returned : (getAssetPrice deps s query (fuel + 1) asset (some queried)
      osmoQuotePrice).Returns result) :
    ∃ product moved price : Decimal, product.atomics =
        roundedProduct Decimal.fractional ((routeTwaps asset steps).map (·.toRat)) ∧
      moveDecimals oracleInfo.decimals trailing.decimals product = .ok moved ∧
      decimalMultiplication moved quotePrice = .ok price ∧
      result.1.toPriceResponse = ⟨oracleInfo.limited price, oracleInfo.decimals⟩ := by
  obtain ⟨oracleInfo', start, sources, pyth, horacle, hstart, hpyth, hrest⟩ :=
    getAssetPrice_returns.mp returned
  obtain rfl := Except.ok.inj (routed.oracle.symm.trans horacle)
  obtain ⟨_, hunfed⟩ := routed.unfed
  cases Except.ok.inj (hunfed.symm.trans hpyth)
  obtain ⟨_, hstart', hread⟩ := routed.read
  obtain rfl := Except.ok.inj (hstart'.symm.trans hstart)
  obtain ⟨denom, hlast, htrails⟩ := routed.lastQuote
  obtain ⟨moved, hroute, hquote⟩ := hrest
  obtain ⟨product, hproduct, hmoved⟩ := assetPriceInOsmo_spec hread hlast htrails hroute
  have hquoted := routed.quoted
  cases hin : oracleInfo.quotedIn with
  | some quoteDenom =>
    rw [hin] at hquote hquoted
    obtain ⟨quote, hpriced, hprice, -⟩ := hquote
    obtain ⟨quote', hpriced', rfl⟩ := hquoted
    obtain rfl := hpriced.unique hpriced'
    simp only [priceByQuote, bind_eq_ok, pure_eq_ok] at hprice
    obtain ⟨price, hprice, hresult⟩ := hprice
    refine ⟨product, moved, price, hproduct, hmoved, hprice, ?_⟩
    rw [← hresult, AssetOracleInfo.limited, if_neg]
    rw [hin]
    rintro ⟨hnone, -⟩
    cases hnone
  | none =>
    rw [hin] at hquote hquoted
    obtain ⟨_, pushed, hstart', hquoted⟩ := hquoted
    obtain rfl := Except.ok.inj (hstart'.symm.trans hstart)
    simp only [priceByOsmo, hquoted, bind_eq_ok, Except.ok.injEq, pure_eq_ok] at hquote
    obtain ⟨_, rfl, price, hprice, rfl⟩ := hquote
    refine ⟨product, moved, price, hproduct, hmoved, hprice, ?_⟩
    simp only [AssetOracleInfo.limited, hin, true_and]
    congr 1
    by_cases hpar : oracleInfo.isUsdPar
    · simp only [hpar, true_and, if_true, Decimal.min]
      by_cases hless : staticUsdPrice < price
      · rw [if_pos hless, if_neg (Nat.not_le.mpr hless)]
      · rw [if_neg hless, if_pos (Nat.not_lt.mp hless)]
    · simp [hpar]

/-- The price of an asset is the product of its factors up to the truncations, and that of
    its whole token its value. -/
structure Normalised (oracleInfo : AssetOracleInfo) (factors : List ℚ)
    (response : Membrane.PriceResponse) : Prop where
  product : response.price =
    oracleInfo.limited ⟨roundedProduct Decimal.fractional factors⟩
  close : (roundedProduct Decimal.fractional factors : ℚ) ≤ Decimal.fractional * factors.prod ∧
    Decimal.fractional * factors.prod - roundingLoss factors ≤
      roundedProduct Decimal.fractional factors
  whole : response.getValue (10 ^ oracleInfo.decimals) = .ok response.price

/-- The condition on an asset: its decimals fit, and they are at least those of its last
    quote, or the price vanishes all the same, or reaches the limit all the same. -/
structure Scalable (oracleInfo trailing : AssetOracleInfo) (asset : AssetInfo)
    (steps : List Decimal) (quotePrice : Decimal) : Prop where
  few : oracleInfo.decimals < 20
  aligned : trailing.decimals ≤ oracleInfo.decimals ∨
    roundedProduct Decimal.fractional ((routeTwaps asset steps).map (·.toRat)) *
        10 ^ (trailing.decimals % 2 ^ 32 - oracleInfo.decimals) * quotePrice.atomics <
      Decimal.fractional ∨
    (oracleInfo.quotedIn = none ∧ oracleInfo.isUsdPar) ∧ Decimal.fractional ≤
      roundedProduct Decimal.fractional
        (priceFactors asset steps oracleInfo.decimals trailing.decimals quotePrice)

theorem roundedProduct_priceFactors {decimals quoteDecimals : Nat} :
    roundedProduct Decimal.fractional (priceFactors asset steps decimals quoteDecimals quotePrice) =
      roundedProduct Decimal.fractional ((routeTwaps asset steps).map (·.toRat)) * 10 ^ decimals /
        10 ^ quoteDecimals * quotePrice.atomics / Decimal.fractional := by
  rw [priceFactors, roundedProduct_append]
  generalize roundedProduct Decimal.fractional ((routeTwaps asset steps).map (·.toRat)) = product
  have hscaled : ⌊(product : ℚ) * (10 ^ decimals / 10 ^ quoteDecimals)⌋₊ =
      product * 10 ^ decimals / 10 ^ quoteDecimals := by
    rw [← mul_div_assoc]
    exact_mod_cast Nat.floor_div_eq_div (K := ℚ) (product * 10 ^ decimals) (10 ^ quoteDecimals)
  rw [roundedProduct_cons, roundedProduct_cons, roundedProduct_nil, hscaled, floor_mul_toRat]

theorem priceFactors_nonneg {decimals quoteDecimals : Nat} :
    ∀ factor ∈ priceFactors asset steps decimals quoteDecimals quotePrice, 0 ≤ factor := by
  intro factor hmem
  rcases List.mem_append.mp hmem with htwap | hscale
  · obtain ⟨step, -, rfl⟩ := List.mem_map.mp htwap
    exact step.toRat_nonneg
  · simp only [List.mem_cons, List.not_mem_nil, or_false] at hscale
    rcases hscale with rfl | rfl
    · positivity
    · exact quotePrice.toRat_nonneg

theorem div_lt_div_of_two_mul_le {a b c : Nat} (pos : 0 < c) (half : 2 * a ≤ b) (some : c ≤ b) :
    a / c < b / c := by
  have hone : 1 ≤ b / c := (Nat.one_le_div_iff pos).mpr some
  have htwice : 2 * (a / c) ≤ b / c := by
    rw [Nat.le_div_iff_mul_le pos, Nat.mul_assoc]
    exact Nat.le_trans (Nat.mul_le_mul_left 2 (Nat.div_mul_le_self a c)) half
  omega

theorem min_staticUsdPrice (n : Nat) :
    Decimal.min ⟨n⟩ staticUsdPrice = ⟨min n Decimal.fractional⟩ := by
  by_cases hle : n ≤ Decimal.fractional
  · rw [Nat.min_eq_left hle]
    exact if_pos hle
  · rw [Nat.min_eq_right (Nat.le_of_not_le hle)]
    exact if_neg hle

theorem limited_eq_iff {low high : Nat} (le : low ≤ high) :
    oracleInfo.limited ⟨high⟩ = oracleInfo.limited ⟨low⟩ ↔
      low = high ∨ (oracleInfo.quotedIn = none ∧ oracleInfo.isUsdPar) ∧
        Decimal.fractional ≤ low := by
  unfold AssetOracleInfo.limited
  by_cases hlimited : oracleInfo.quotedIn = none ∧ oracleInfo.isUsdPar
  · rw [if_pos hlimited, if_pos hlimited, and_iff_right hlimited]
    rw [min_staticUsdPrice, min_staticUsdPrice, Decimal.mk.injEq]
    omega
  · rw [if_neg hlimited, if_neg hlimited, Decimal.mk.injEq]
    constructor
    · exact fun hsame => .inl hsame.symm
    · rintro (hsame | ⟨hboth, -⟩)
      · exact hsame.symm
      · exact absurd hboth hlimited

/-- The price along a route is normalised exactly where the asset's decimals fit, and it has
    at least as many as its last quote, or the price vanishes or reaches the limit. -/
theorem normalised_iff {result : PriceResponse × Option Decimal}
    (routed : Routed deps s query fuel asset queried osmoQuotePrice oracleInfo trailing steps
      quotePrice)
    (returned : (getAssetPrice deps s query (fuel + 1) asset (some queried)
      osmoQuotePrice).Returns result) :
    Normalised oracleInfo
        (priceFactors asset steps oracleInfo.decimals trailing.decimals quotePrice)
        result.1.toPriceResponse ↔
      Scalable oracleInfo trailing asset steps quotePrice := by
  obtain ⟨product, moved, price, hproduct, hmoved, hprice, hresult⟩ := routed.price returned
  rw [hresult]
  obtain ⟨hfits, rfl⟩ := decimalMultiplication_eq_ok.mp hprice
  have hlimited : (oracleInfo.limited
      ⟨moved.atomics * quotePrice.atomics / Decimal.fractional⟩).atomics < Uint128.limit := by
    unfold AssetOracleInfo.limited Decimal.min
    split
    · split
      · exact hfits
      · decide
    · exact hfits
  have hwhole := @getValue_whole ⟨_, oracleInfo.decimals⟩ hlimited
  have hclose := roundedProduct_bounds (@priceFactors_nonneg asset steps quotePrice
    oracleInfo.decimals trailing.decimals) Decimal.fractional
  have hfactors := @roundedProduct_priceFactors asset steps quotePrice oracleInfo.decimals
    trailing.decimals
  suffices hsame : oracleInfo.decimals < 20 →
      (oracleInfo.limited ⟨moved.atomics * quotePrice.atomics / Decimal.fractional⟩ =
        oracleInfo.limited ⟨roundedProduct Decimal.fractional
          (priceFactors asset steps oracleInfo.decimals trailing.decimals quotePrice)⟩ ↔
        trailing.decimals ≤ oracleInfo.decimals ∨
        roundedProduct Decimal.fractional ((routeTwaps asset steps).map (·.toRat)) *
            10 ^ (trailing.decimals % 2 ^ 32 - oracleInfo.decimals) * quotePrice.atomics <
          Decimal.fractional ∨
        (oracleInfo.quotedIn = none ∧ oracleInfo.isUsdPar) ∧ Decimal.fractional ≤
          roundedProduct Decimal.fractional
            (priceFactors asset steps oracleInfo.decimals trailing.decimals quotePrice)) by
    constructor
    · intro normalised
      have hfew := hwhole.mp normalised.whole
      exact ⟨hfew, (hsame hfew).mp normalised.product⟩
    · intro scalable
      exact ⟨(hsame scalable.few).mpr scalable.aligned, hclose, hwhole.mpr scalable.few⟩
  intro hfew
  rw [hfactors, ← hproduct]
  by_cases hle : trailing.decimals ≤ oracleInfo.decimals
  · -- the point is moved the right way
    have hmoved := moveDecimals_down hfew hle hmoved
    rw [hmoved, iff_true_right (.inl hle)]
    congr 4
    rw [← Nat.sub_add_cancel hle, Nat.pow_add, ← Nat.mul_assoc,
      Nat.mul_div_cancel _ (by positivity), Nat.add_sub_cancel]
  · obtain ⟨-, hmoved⟩ := moveDecimals_up hfew (Nat.lt_of_not_le hle) hmoved
    rw [hmoved, or_iff_right hle]
    generalize trailing.decimals % 2 ^ 32 - oracleInfo.decimals = exp
    -- moved the right way, the price is less than half
    have hscaled : 2 * (product.atomics * 10 ^ oracleInfo.decimals / 10 ^ trailing.decimals *
        quotePrice.atomics) ≤ product.atomics * 10 ^ exp * quotePrice.atomics := by
      rw [← Nat.mul_assoc]
      refine Nat.mul_le_mul_right _ ?_
      calc 2 * (product.atomics * 10 ^ oracleInfo.decimals / 10 ^ trailing.decimals)
          ≤ 10 * (product.atomics * 10 ^ oracleInfo.decimals / 10 ^ (oracleInfo.decimals + 1)) := by
            refine Nat.mul_le_mul (by decide) (Nat.div_le_div_left ?_ (by positivity))
            exact Nat.pow_le_pow_right (by decide) (by omega)
        _ ≤ product.atomics := by
            rw [Nat.pow_succ', Nat.mul_div_mul_right _ _ (by positivity)]
            exact Nat.mul_div_le _ _
        _ ≤ product.atomics * 10 ^ exp := Nat.le_mul_of_pos_right _ (by positivity)
    rw [limited_eq_iff (Nat.div_le_div_right (by omega))]
    refine or_congr_left ?_
    constructor
    · intro hsame
      by_contra hsome
      exact absurd hsame (div_lt_div_of_two_mul_le (by decide) hscaled (by omega)).ne
    · intro hnone
      rw [Nat.div_eq_of_lt hnone, Nat.div_eq_of_lt (by omega)]

end

/-! ## Examples -/

def sampleQuoted (decimals : Nat) : AssetOracleInfo :=
  { sampleOracle "ucent" ["uosmo"] with decimals := decimals }

/-- OSMO and an asset quoted in it. -/
def quotedCalls (decimals : Nat) : List Call :=
  [sampleAdd "uosmo" (sampleOracle "uosmo" []), sampleAdd "ucent" (sampleQuoted decimals)]

def SampleReads (decimals : Nat) (s : State) (response : PriceResponse) : Prop :=
  oracleInfoFor s.assets 1 "ucent" = .ok (sampleQuoted decimals) ∧
  oracleInfoFor s.assets 1 "uosmo" = .ok (sampleOracle "uosmo" []) ∧
  pythPrice pricedDeps s.config sampleQuery (sampleQuoted decimals) = .ok ([], none) ∧
  osmoQuote pricedDeps s.config sampleQuery 0 none =
    .ok ([⟨"pyth", .percent 50⟩], .percent 50) ∧
  (getAssetPrice pricedDeps s sampleQuery 1 (.nativeToken "ucent") (some []) none).value =
    some (response, some (.percent 50))

instance (decimals : Nat) (s : State) (response : PriceResponse) :
    Decidable (SampleReads decimals s response) := by
  unfold SampleReads
  infer_instance

theorem SampleReads.routed {decimals : Nat} {s : State} {response : PriceResponse}
    (reads : SampleReads decimals s response) :
    Routed pricedDeps s sampleQuery 0 (.nativeToken "ucent") [] none (sampleQuoted decimals)
        (sampleOracle "uosmo" []) [.percent 200] (.percent 50) ∧
      (getAssetPrice pricedDeps s sampleQuery 1 (.nativeToken "ucent") (some []) none).Returns
        (response, some (.percent 50)) := by
  obtain ⟨hasset, hosmo, hpyth, hquote, hprice⟩ := reads
  exact ⟨⟨hasset, ⟨[], hpyth⟩, ⟨0, rfl, rfl⟩, ⟨"uosmo", rfl, hosmo⟩, ⟨0, _, rfl, hquote⟩⟩,
    value_eq_some.mp hprice⟩

/-- An asset with eight decimals, of which one unit is worth two of OSMO's, is at a hundred
    dollars. -/
theorem normalised_eight :
    ∃ s₀ s, configured (fun _ _ => True) (quotedCalls 8) = some (s₀, s) ∧
      Normalised (sampleQuoted 8) (priceFactors (.nativeToken "ucent") [.percent 200] 8 6
        (.percent 50))
        ⟨.percent 10000, 8⟩ := by
  have hreads : (configured (fun _ _ => True) (quotedCalls 8)).any (fun run => decide (SampleReads 8
      run.2 ⟨⟨.percent 10000, 8⟩, [⟨"osmosis", .percent 20000⟩, ⟨"pyth", .percent 50⟩]⟩)) =
        true := by
    decide +kernel
  obtain ⟨⟨s₀, s⟩, hrun, hreads⟩ := (Option.any_eq_true _ _).mp hreads
  obtain ⟨hrouted, hreturned⟩ := (of_decide_eq_true hreads).routed
  exact ⟨s₀, s, hrun, (normalised_iff hrouted hreturned).mpr ⟨by decide, .inl (by decide)⟩⟩

/-- An asset with two decimals, of which one unit is worth two of OSMO's, is at ten thousand
    dollars instead of a hundredth of a cent. -/
theorem not_normalised :
    ¬ ∀ s₀ s : State, configured (fun _ _ => True) (quotedCalls 2) = some (s₀, s) →
      ∀ fuel asset queried osmoQuotePrice oracleInfo trailing steps quotePrice result,
        Routed pricedDeps s sampleQuery fuel asset queried osmoQuotePrice oracleInfo trailing steps
          quotePrice →
        (getAssetPrice pricedDeps s sampleQuery (fuel + 1) asset (some queried)
          osmoQuotePrice).Returns result →
        Normalised oracleInfo
          (priceFactors asset steps oracleInfo.decimals trailing.decimals quotePrice)
          result.1.toPriceResponse := by
  intro claim
  have hreads : (configured (fun _ _ => True) (quotedCalls 2)).any (fun run => decide (SampleReads 2
      run.2 ⟨⟨.percent 1000000, 2⟩, [⟨"osmosis", .percent 2000000⟩, ⟨"pyth", .percent 50⟩]⟩)) =
        true := by
    decide +kernel
  obtain ⟨⟨s₀, s⟩, hrun, hreads⟩ := (Option.any_eq_true _ _).mp hreads
  obtain ⟨hrouted, hreturned⟩ := (of_decide_eq_true hreads).routed
  have hproduct := (claim s₀ s hrun _ _ _ _ _ _ _ _ _ hrouted hreturned).product
  rw [roundedProduct_priceFactors, routeTwaps, if_neg (by decide), List.map_cons, List.map_nil,
    roundedProduct_cons, roundedProduct_nil, floor_mul_toRat] at hproduct
  exact absurd hproduct (by decide)

end Oracle

end Membrane
