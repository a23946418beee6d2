import Membrane.Cdp.Proofs.Conservation
import Membrane.Lib.Traverse

/-!
# The volatility index over a run of price reads

A read of collateral whose price has moved multiplies the asset's volatility index by a
factor and keeps it at one at most. The factor is a quotient by the truncated speed of the
move, or one minus the move. The read fails where the speed truncates to zero, and the
index hits zero where its product truncates to zero, as it does when a price doubles faster
than its average.
-/

namespace Membrane

open Outcome

namespace Cdp

/-! ## One move of a price -/

section

variable (env : Env) (stored : StoredPrice) (price : PriceResponse)
  (volatilityStore : CollateralVolatility)

def moveOf : Nat :=
  (price.price.absDiff stored.price.price).atomics * Decimal.fractional / stored.price.price.atomics

def speedOf : Nat := moveOf stored price / (env.blockTime - stored.lastTimeUpdated)

def keptSpeeds : List Decimal :=
  let pushed := volatilityStore.volatilityList ++ [⟨speedOf env stored price⟩]
  if volatilityListLimit < pushed.length then pushed.drop 1 else pushed

def averageSpeed : Nat :=
  ((keptSpeeds env stored price volatilityStore).map (·.atomics)).sum /
    (keptSpeeds env stored price volatilityStore).length

def shrinkOf : Nat :=
  if moveOf stored price ≤ Decimal.fractional then Decimal.fractional - moveOf stored price
  else (Decimal.percent 1).atomics

def indexFactor : Nat :=
  if averageSpeed env stored price volatilityStore < speedOf env stored price then
    shrinkOf stored price
  else averageSpeed env stored price volatilityStore * Decimal.fractional / speedOf env stored price

/-- The move has a speed, and the numbers of its tracking fit 128 bits. -/
structure TrackableMove : Prop where
  priced : stored.price.price.atomics ≠ 0
  later : stored.lastTimeUpdated ≤ env.blockTime
  moveFits : moveOf stored price < Uint128.limit
  fast : 0 < speedOf env stored price
  sumFits : ((keptSpeeds env stored price volatilityStore).map (·.atomics)).sum < Uint128.limit
  changeFits : averageSpeed env stored price volatilityStore * Decimal.fractional /
    speedOf env stored price < Uint128.limit

/-- A trackable move that leaves an atomic of the index when it is faster than the average. -/
structure UsableMove : Prop extends TrackableMove env stored price volatilityStore where
  shrinks : averageSpeed env stored price volatilityStore < speedOf env stored price →
    Decimal.fractional ≤ volatilityStore.index.atomics * shrinkOf stored price

end

section

variable {env : Env} {stored : StoredPrice} {price : PriceResponse}
  {volatilityStore : CollateralVolatility}

theorem keptSpeeds_length : 0 < (keptSpeeds env stored price volatilityStore).length := by
  unfold keptSpeeds volatilityListLimit
  dsimp only
  split
  case isTrue h =>
    rw [List.length_drop]
    omega
  case isFalse =>
    rw [List.length_append, List.length_singleton]
    omega

theorem decimalDivision_whole {a b : Decimal} {n : Nat} (divisor : 0 < n)
    (fits : a.atomics < Uint128.limit) :
    decimalDivision a (Decimal.ofNat n) = .ok b ↔ b = ⟨a.atomics / n⟩ := by
  have hfractional : 0 < Decimal.fractional := by decide
  have hquotient : a.atomics * Decimal.fractional / (Decimal.ofNat n).atomics = a.atomics / n :=
    Nat.mul_div_mul_right _ _ hfractional
  have hnonzero : (Decimal.ofNat n).atomics ≠ 0 :=
    Nat.pos_iff_ne_zero.mp (Nat.mul_pos divisor hfractional)
  rw [decimalDivision_eq_ok, hquotient]
  constructor
  · exact fun h => h.2.2
  · exact fun h => ⟨hnonzero, Nat.lt_of_le_of_lt (Nat.div_le_self _ _) fits, h⟩

theorem speed_recovered {a b : Decimal} {n : Nat} (fits : a.atomics < Uint128.limit) :
    (recover (decimalDivision a (Decimal.ofNat n)) Decimal.zero : Outcome StdError Decimal) =
      .ok b ↔ b = ⟨a.atomics / n⟩ := by
  by_cases hn : n = 0
  · subst hn
    have hfails : decimalDivision a (Decimal.ofNat 0) =
        .error (.err (.genericErr "Decimal division overflow")) := rfl
    rw [hfails, Nat.div_zero]
    constructor
    · intro h
      exact (Except.ok.inj h).symm
    · rintro rfl
      rfl
  · have hdivision := (decimalDivision_whole (Nat.pos_of_ne_zero hn) fits).mpr rfl
    rw [hdivision]
    constructor
    · intro h
      exact (Except.ok.inj h).symm
    · rintro rfl
      rfl

theorem shrink_recovered {move b : Decimal} (hmove : move.atomics = moveOf stored price) :
    (recover (Decimal.checkedSub Decimal.one move) (Decimal.percent 1) :
      Outcome StdError Decimal) = .ok b ↔ b = ⟨shrinkOf stored price⟩ := by
  unfold shrinkOf
  rw [← hmove]
  by_cases hle : move.atomics ≤ Decimal.fractional
  · have hdone : Decimal.checkedSub Decimal.one move =
        .ok ⟨Decimal.fractional - move.atomics⟩ := if_pos hle
    rw [hdone, if_pos hle]
    constructor
    · intro h
      exact (Except.ok.inj h).symm
    · rintro rfl
      rfl
  · have hfails : Decimal.checkedSub Decimal.one move =
        .error (.err (.overflow "Sub" Decimal.one.toText move.toText)) := if_neg hle
    rw [hfails, if_neg hle]
    constructor
    · intro h
      exact (Except.ok.inj h).symm
    · rintro rfl
      rfl

theorem updateVolatility_eq_ok {moved : CollateralVolatility} :
    updateVolatility env stored price volatilityStore = .ok moved ↔
      (TrackableMove env stored price volatilityStore ∧ volatilityStore.index.atomics *
        indexFactor env stored price volatilityStore / Decimal.fractional < Uint128.limit) ∧
        moved = ⟨Decimal.min Decimal.one ⟨volatilityStore.index.atomics *
          indexFactor env stored price volatilityStore / Decimal.fractional⟩,
            keptSpeeds env stored price volatilityStore⟩ := by
  have hchange : ∀ {move change factor : Decimal}, move.atomics = moveOf stored price →
      0 < speedOf env stored price →
      change = ⟨averageSpeed env stored price volatilityStore * Decimal.fractional /
        speedOf env stored price⟩ →
      ((if change < Decimal.one then
        recover (Decimal.checkedSub Decimal.one move) (Decimal.percent 1)
      else pure change : Outcome StdError Decimal) = .ok factor ↔
        factor = ⟨indexFactor env stored price volatilityStore⟩) := by
    rintro move _ factor hmove hfast rfl
    have hslower : (⟨averageSpeed env stored price volatilityStore * Decimal.fractional /
          speedOf env stored price⟩ : Decimal) < Decimal.one ↔
        averageSpeed env stored price volatilityStore < speedOf env stored price := by
      rw [Decimal.lt_def]
      show _ / _ < Decimal.fractional ↔ _
      rw [Nat.div_lt_iff_lt_mul hfast, Nat.mul_comm Decimal.fractional]
      exact Nat.mul_lt_mul_right (by decide)
    unfold indexFactor
    by_cases h : averageSpeed env stored price volatilityStore < speedOf env stored price
    · rw [if_pos (hslower.mpr h), if_pos h]
      exact shrink_recovered hmove
    · rw [if_neg fun h' => h (hslower.mp h'), if_neg h, pure_eq_ok]
      exact eq_comm
  unfold updateVolatility
  constructor
  · intro done
    obtain ⟨move, hmove, done⟩ := bind_eq_ok.mp done
    obtain ⟨hpriced, hmoveFits, hmoveOf⟩ := decimalDivision_eq_ok.mp hmove
    obtain ⟨elapsed, helapsed, done⟩ := bind_eq_ok.mp done
    obtain ⟨hlater, rfl⟩ := subUint_eq_ok.mp helapsed
    obtain ⟨speed, hspeed, done⟩ := bind_eq_ok.mp done
    have hmoveAtomics : move.atomics = moveOf stored price := by
      rw [hmoveOf]
      rfl
    have hspeedOf := (speed_recovered (hmoveAtomics ▸ hmoveFits)).mp hspeed
    rw [hmoveAtomics] at hspeedOf
    subst hspeedOf
    obtain ⟨sum, hsum, done⟩ := bind_eq_ok.mp done
    obtain ⟨hsumFits, rfl⟩ := Decimal.sum_eq_ok.mp hsum
    obtain ⟨average, haverage, done⟩ := bind_eq_ok.mp done
    have haverageOf := (decimalDivision_whole keptSpeeds_length hsumFits).mp haverage
    subst haverageOf
    obtain ⟨change, hratio, done⟩ := bind_eq_ok.mp done
    obtain ⟨hfast, hchangeFits, hchangeOf⟩ := decimalDivision_eq_ok.mp hratio
    have hspeedPos := Nat.pos_of_ne_zero hfast
    obtain ⟨factor, hfactor, done⟩ := bind_eq_ok.mp done
    have hfactorOf := (hchange hmoveAtomics hspeedPos hchangeOf).mp hfactor
    subst hfactorOf
    obtain ⟨index, hindex, done⟩ := bind_eq_ok.mp done
    obtain ⟨hindexFits, rfl⟩ := decimalMultiplication_eq_ok.mp hindex
    refine ⟨⟨⟨hpriced, hlater, hmoveFits, hspeedPos, hsumFits, hchangeFits⟩, hindexFits⟩, ?_⟩
    exact (pure_eq_ok.mp done).symm
  · rintro ⟨⟨fits, hindexFits⟩, rfl⟩
    have hmove : decimalDivision (price.price.absDiff stored.price.price) stored.price.price =
        .ok ⟨moveOf stored price⟩ := decimalDivision_eq_ok.mpr ⟨fits.priced, fits.moveFits, rfl⟩
    refine bind_eq_ok.mpr ⟨_, hmove, ?_⟩
    refine bind_eq_ok.mpr ⟨_, subUint_eq_ok.mpr ⟨fits.later, rfl⟩, ?_⟩
    refine bind_eq_ok.mpr ⟨_, (speed_recovered fits.moveFits).mpr rfl, ?_⟩
    refine bind_eq_ok.mpr ⟨_, Decimal.sum_eq_ok.mpr ⟨fits.sumFits, rfl⟩, ?_⟩
    refine bind_eq_ok.mpr ⟨_, (decimalDivision_whole keptSpeeds_length fits.sumFits).mpr rfl, ?_⟩
    refine bind_eq_ok.mpr ⟨_, decimalDivision_eq_ok.mpr
      ⟨Nat.pos_iff_ne_zero.mp fits.fast, fits.changeFits, rfl⟩, ?_⟩
    refine bind_eq_ok.mpr ⟨_, (hchange rfl fits.fast rfl).mpr rfl, ?_⟩
    exact bind_eq_ok.mpr ⟨_, decimalMultiplication_eq_ok.mpr ⟨hindexFits, rfl⟩, rfl⟩

theorem TrackableMove.index_fits (trackable : TrackableMove env stored price volatilityStore)
    (bounded : volatilityStore.index ≤ Decimal.one) :
    volatilityStore.index.atomics * indexFactor env stored price volatilityStore /
      Decimal.fractional < Uint128.limit := by
  have hshrink : shrinkOf stored price < Uint128.limit := by
    have hone : Decimal.fractional < Uint128.limit := by decide
    have hhundredth : (Decimal.percent 1).atomics < Uint128.limit := by decide
    unfold shrinkOf
    split
    · omega
    · exact hhundredth
  have hfactor : indexFactor env stored price volatilityStore < Uint128.limit := by
    unfold indexFactor
    split
    · exact hshrink
    · exact trackable.changeFits
  refine Nat.lt_of_le_of_lt ?_ hfactor
  apply Nat.div_le_of_le_mul
  exact Nat.mul_le_mul_right _ bounded

theorem TrackableMove.index_pos_iff (trackable : TrackableMove env stored price volatilityStore)
    (positive : 0 < volatilityStore.index.atomics) :
    0 < volatilityStore.index.atomics * indexFactor env stored price volatilityStore /
        Decimal.fractional ↔
      (averageSpeed env stored price volatilityStore < speedOf env stored price →
        Decimal.fractional ≤ volatilityStore.index.atomics * shrinkOf stored price) := by
  rw [Nat.div_pos_iff]
  unfold indexFactor
  by_cases h : averageSpeed env stored price volatilityStore < speedOf env stored price
  · rw [if_pos h]
    exact ⟨fun left _ => left.2, fun left => ⟨by decide, left h⟩⟩
  · rw [if_neg h]
    refine ⟨fun _ h' => absurd h' h, fun _ => ⟨by decide, ?_⟩⟩
    have hfactor : Decimal.fractional ≤ averageSpeed env stored price volatilityStore *
        Decimal.fractional / speedOf env stored price := by
      rw [Nat.le_div_iff_mul_le trackable.fast, Nat.mul_comm]
      exact Nat.mul_le_mul_right _ (Nat.not_lt.mp h)
    calc Decimal.fractional ≤ _ := hfactor
      _ ≤ _ := Nat.le_mul_of_pos_left _ positive

theorem min_one_pos {a : Decimal} : 0 < (Decimal.min Decimal.one a).atomics ↔ 0 < a.atomics := by
  unfold Decimal.min
  by_cases h : Decimal.one.atomics ≤ a.atomics
  · rw [if_pos h]
    exact ⟨fun hone => Nat.lt_of_lt_of_le hone h, fun _ => by decide⟩
  · rw [if_neg h]

theorem min_one_le (a : Decimal) : Decimal.min Decimal.one a ≤ Decimal.one := by
  unfold Decimal.min
  by_cases h : Decimal.one.atomics ≤ a.atomics
  · rw [if_pos h]
    exact Nat.le_refl _
  · rw [if_neg h]
    exact Nat.le_of_not_le h

theorem usableMove_iff (bounded : volatilityStore.index ≤ Decimal.one)
    (positive : 0 < volatilityStore.index.atomics) :
    UsableMove env stored price volatilityStore ↔
      ∃ moved, updateVolatility env stored price volatilityStore = .ok moved ∧
        0 < moved.index.atomics := by
  constructor
  · intro usable
    have htrackable := usable.toTrackableMove
    refine ⟨_, updateVolatility_eq_ok.mpr ⟨⟨htrackable, htrackable.index_fits bounded⟩, rfl⟩, ?_⟩
    exact min_one_pos.mpr ((htrackable.index_pos_iff positive).mpr usable.shrinks)
  · rintro ⟨moved, done, left⟩
    obtain ⟨⟨htrackable, -⟩, rfl⟩ := updateVolatility_eq_ok.mp done
    exact ⟨htrackable, (htrackable.index_pos_iff positive).mp (min_one_pos.mp left)⟩

theorem updateVolatility_stays {moved : CollateralVolatility}
    (done : updateVolatility env stored price volatilityStore = .ok moved)
    (left : 0 < moved.index.atomics) : 0 < volatilityStore.index.atomics := by
  obtain ⟨-, rfl⟩ := updateVolatility_eq_ok.mp done
  have hproduct := min_one_pos.mp left
  by_contra h
  have hzero : volatilityStore.index.atomics = 0 := Nat.eq_zero_of_not_pos h
  rw [hzero, Nat.zero_mul, Nat.zero_div] at hproduct
  exact Nat.lt_irrefl 0 hproduct

theorem updateVolatility_bounded {moved : CollateralVolatility}
    (done : updateVolatility env stored price volatilityStore = .ok moved) :
    moved.index ≤ Decimal.one := by
  obtain ⟨-, rfl⟩ := updateVolatility_eq_ok.mp done
  exact min_one_le _

end

/-! ## The price of one asset -/

def volatilityOf (prices : PriceStore) (key : String) : CollateralVolatility :=
  (prices.volatility.lookup key).getD ⟨Decimal.one, []⟩

def UsablePrice (env : Env) (cAssetPrices : List PriceResponse) (prices : PriceStore)
    (entry : CAsset × Nat) : Prop :=
  ∃ price, cAssetPrices[entry.2]? = some price ∧
    ∀ stored, prices.storedPrices.lookup entry.1.asset.info.toText = some stored →
      stored.price.price ≠ price.price →
        UsableMove env stored price (volatilityOf prices entry.1.asset.info.toText)

def IndexesBounded (prices : PriceStore) : Prop :=
  prices.volatility.All fun _ volatility => volatility.index ≤ Decimal.one

def IndexesPositive (prices : PriceStore) : Prop :=
  prices.volatility.All fun _ volatility => 0 < volatility.index.atomics

section

variable {env : Env} {cAssetPrices : List PriceResponse} {prices prices' : PriceStore}
  {entry : CAsset × Nat}

theorem IndexesBounded.volatilityOf (bounded : IndexesBounded prices) (key : String) :
    (volatilityOf prices key).index ≤ Decimal.one := by
  unfold Cdp.volatilityOf
  cases h : prices.volatility.lookup key with
  | none => exact Nat.le_refl _
  | some volatility => exact bounded key volatility h

theorem IndexesPositive.volatilityOf (positive : IndexesPositive prices) (key : String) :
    0 < (volatilityOf prices key).index.atomics := by
  unfold Cdp.volatilityOf
  cases h : prices.volatility.lookup key with
  | none => decide
  | some volatility => exact positive key volatility h

theorem trackPrice_spec (done : trackPrice env cAssetPrices prices entry = .ok prices') :
    ∃ price, cAssetPrices[entry.2]? = some price ∧
      ((prices'.volatility = prices.volatility ∧
          ∀ stored, prices.storedPrices.lookup entry.1.asset.info.toText = some stored →
            stored.price.price = price.price) ∨
        ∃ stored moved, prices.storedPrices.lookup entry.1.asset.info.toText = some stored ∧
          updateVolatility env stored price (volatilityOf prices entry.1.asset.info.toText) =
            .ok moved ∧
          prices'.volatility = prices.volatility.insert entry.1.asset.info.toText moved) := by
  unfold trackPrice at done
  obtain ⟨price, hprice, done⟩ := bind_eq_ok.mp done
  refine ⟨price, index_eq_ok.mp hprice, ?_⟩
  cases hstored : prices.storedPrices.lookup entry.1.asset.info.toText with
  | none =>
    simp only [hstored, pure_eq_ok] at done
    subst done
    refine .inl ⟨rfl, fun stored h => ?_⟩
    cases h
  | some stored =>
    simp only [hstored] at done
    by_cases hsame : stored.price.price = price.price
    · rw [if_pos hsame] at done
      obtain rfl := pure_eq_ok.mp done
      refine .inl ⟨rfl, fun stored' h => ?_⟩
      cases h
      exact hsame
    · rw [if_neg hsame] at done
      obtain ⟨moved, hmoved, done⟩ := bind_eq_ok.mp done
      obtain rfl := pure_eq_ok.mp done
      exact .inr ⟨stored, moved, rfl, hmoved, rfl⟩

theorem trackPrice_bounded (bounded : IndexesBounded prices)
    (done : trackPrice env cAssetPrices prices entry = .ok prices') : IndexesBounded prices' := by
  obtain ⟨price, -, hcases⟩ := trackPrice_spec done
  unfold IndexesBounded
  rcases hcases with ⟨hsame, -⟩ | ⟨stored, moved, -, hmoved, hwritten⟩
  · rw [hsame]
    exact bounded
  · rw [hwritten]
    exact KeyMap.all_insert bounded (updateVolatility_bounded hmoved)

theorem trackPrice_stays (done : trackPrice env cAssetPrices prices entry = .ok prices')
    (positive : IndexesPositive prices') : IndexesPositive prices := by
  obtain ⟨price, -, hcases⟩ := trackPrice_spec done
  rcases hcases with ⟨hsame, -⟩ | ⟨stored, moved, -, hmoved, hwritten⟩
  · unfold IndexesPositive at positive
    rw [hsame] at positive
    exact positive
  · intro key volatility found
    by_cases hkey : key = entry.1.asset.info.toText
    · subst hkey
      have hleft : 0 < moved.index.atomics := by
        apply positive entry.1.asset.info.toText
        rw [hwritten, AList.lookup_insert]
      have hbefore := updateVolatility_stays hmoved hleft
      unfold volatilityOf at hbefore
      rw [found] at hbefore
      exact hbefore
    · apply positive key
      rw [hwritten, AList.lookup_insert_ne hkey]
      exact found

theorem usablePrice_iff (bounded : IndexesBounded prices) (positive : IndexesPositive prices) :
    UsablePrice env cAssetPrices prices entry ↔
      ∃ prices', trackPrice env cAssetPrices prices entry = .ok prices' ∧
        IndexesPositive prices' := by
  have hmove : ∀ stored price, UsableMove env stored price
      (volatilityOf prices entry.1.asset.info.toText) ↔ ∃ moved,
        updateVolatility env stored price (volatilityOf prices entry.1.asset.info.toText) =
          .ok moved ∧ 0 < moved.index.atomics :=
    fun stored price => usableMove_iff (bounded.volatilityOf _) (positive.volatilityOf _)
  constructor
  · rintro ⟨price, hprice, husable⟩
    unfold trackPrice
    cases hstored : prices.storedPrices.lookup entry.1.asset.info.toText with
    | none =>
      refine ⟨⟨prices.storedPrices.insert entry.1.asset.info.toText ⟨price, env.blockTime⟩,
        prices.volatility⟩, bind_eq_ok.mpr ⟨price, index_eq_ok.mpr hprice, ?_⟩, positive⟩
      simp only [hstored]
      rfl
    | some stored =>
      by_cases hsame : stored.price.price = price.price
      · refine ⟨prices, bind_eq_ok.mpr ⟨price, index_eq_ok.mpr hprice, ?_⟩, positive⟩
        simp only [hstored]
        rw [if_pos hsame]
        rfl
      · obtain ⟨moved, hmoved, hleft⟩ := (hmove stored price).mp (husable stored hstored hsame)
        refine ⟨⟨prices.storedPrices.insert entry.1.asset.info.toText ⟨price, env.blockTime⟩,
          prices.volatility.insert entry.1.asset.info.toText moved⟩,
          bind_eq_ok.mpr ⟨price, index_eq_ok.mpr hprice, ?_⟩, KeyMap.all_insert positive hleft⟩
        simp only [hstored]
        rw [if_neg hsame]
        exact bind_eq_ok.mpr ⟨moved, hmoved, rfl⟩
  · rintro ⟨prices', done, positive'⟩
    obtain ⟨price, hprice, hcases⟩ := trackPrice_spec done
    refine ⟨price, hprice, fun stored hstored hmoves => ?_⟩
    rcases hcases with ⟨-, hsame⟩ | ⟨stored', moved, hstored', hmoved, hwritten⟩
    · exact absurd (hsame stored hstored) hmoves
    · obtain rfl : stored = stored' := Option.some.inj (hstored.symm.trans hstored')
      refine (hmove stored price).mpr ⟨moved, hmoved, ?_⟩
      apply positive' entry.1.asset.info.toText
      rw [hwritten, AList.lookup_insert]

end

/-! ## A read of collateral -/

/-- A call of `get_cAsset_ratios`. -/
structure PriceRead where
  deps : Deps
  env : Env
  config : Config
  collateral : List CAsset
  basket : Basket

/-- The price store after a read. -/
def PriceRead.exec (prices : PriceStore) (read : PriceRead) : Outcome StdError PriceStore := do
  let (prices', _, _) ← getCAssetRatios read.deps read.env read.config prices read.collateral
    read.basket
  pure prices'

/-- The collateral has values whose total fits 128 bits, and each price it is read at is usable
    where its turn comes. -/
def UsableRead (prices : PriceStore) (read : PriceRead) : Prop :=
  ∃ values cAssetPrices,
    getAssetValues read.deps read.env read.config prices read.collateral read.basket false =
      .ok (values, cAssetPrices) ∧
    (values.map (·.atomics)).sum < Uint128.limit ∧
    EachRound (trackPrice read.env cAssetPrices) (UsablePrice read.env cAssetPrices) prices
      read.collateral.zipIdx

theorem ratiosOf_ok {values : List Decimal} {total : Decimal}
    (summed : (Decimal.sum values : Outcome StdError Decimal) = .ok total) :
    ∃ ratios, ratiosOf values total = .ok ratios := by
  obtain ⟨hfits, rfl⟩ := Decimal.sum_eq_ok.mp summed
  refine ⟨_, (mapM_eq_ok_iff Decimal.zero).mpr ⟨fun value mem => ?_, rfl⟩⟩
  by_cases hzero : (values.map (·.atomics)).sum = 0
  · have hisZero : Decimal.isZero ⟨(values.map (·.atomics)).sum⟩ = true := beq_iff_eq.mpr hzero
    rw [if_pos hisZero]
    rfl
  · have hisZero : ¬ Decimal.isZero ⟨(values.map (·.atomics)).sum⟩ = true :=
      fun h => hzero (beq_iff_eq.mp h)
    have hle : value.atomics ≤ (values.map (·.atomics)).sum :=
      List.single_le_sum (fun _ _ => Nat.zero_le _) _ (List.mem_map_of_mem mem)
    have hshare : decimalDivision value ⟨(values.map (·.atomics)).sum⟩ =
        .ok ⟨value.atomics * Decimal.fractional / (values.map (·.atomics)).sum⟩ := by
      refine decimalDivision_eq_ok.mpr ⟨hzero, ?_, rfl⟩
      have hone : value.atomics * Decimal.fractional / (values.map (·.atomics)).sum ≤
          Decimal.fractional :=
        Nat.div_le_of_le_mul (Nat.mul_le_mul_right _ hle)
      exact Nat.lt_of_le_of_lt hone (by decide)
    rw [if_neg hisZero, hshare]
    rfl

theorem PriceRead.exec_eq_ok {prices prices' : PriceStore} {read : PriceRead} :
    read.exec prices = .ok prices' ↔ ∃ values cAssetPrices,
      getAssetValues read.deps read.env read.config prices read.collateral read.basket false =
        .ok (values, cAssetPrices) ∧
      (values.map (·.atomics)).sum < Uint128.limit ∧
      read.collateral.zipIdx.foldlM (trackPrice read.env cAssetPrices) prices = .ok prices' := by
  constructor
  · intro done
    obtain ⟨⟨tracked, ratios, cAssetPrices⟩, hread, hresult⟩ := bind_eq_ok.mp done
    obtain rfl := pure_eq_ok.mp hresult
    obtain ⟨⟨values, cAssetPrices'⟩, hvalues, hread⟩ := bind_eq_ok.mp hread
    obtain ⟨tracked', hloop, hread⟩ := bind_eq_ok.mp hread
    obtain ⟨total, htotal, hread⟩ := bind_eq_ok.mp hread
    obtain ⟨ratios', -, hread⟩ := bind_eq_ok.mp hread
    cases pure_eq_ok.mp hread
    exact ⟨values, cAssetPrices, hvalues, (Decimal.sum_eq_ok.mp htotal).1, hloop⟩
  · rintro ⟨values, cAssetPrices, hvalues, hfits, hloop⟩
    have htotal : (Decimal.sum values : Outcome StdError Decimal) = .ok _ :=
      Decimal.sum_eq_ok.mpr ⟨hfits, rfl⟩
    obtain ⟨ratios, hratios⟩ := ratiosOf_ok htotal
    have hread : getCAssetRatios read.deps read.env read.config prices read.collateral
        read.basket = .ok (prices', ratios, cAssetPrices) :=
      bind_eq_ok.mpr ⟨_, hvalues, bind_eq_ok.mpr ⟨_, hloop, bind_eq_ok.mpr ⟨_, htotal,
        bind_eq_ok.mpr ⟨_, hratios, rfl⟩⟩⟩⟩
    exact bind_eq_ok.mpr ⟨_, hread, rfl⟩

section

variable {prices prices' : PriceStore} {read : PriceRead}

theorem PriceRead.exec_bounded (bounded : IndexesBounded prices)
    (done : read.exec prices = .ok prices') : IndexesBounded prices' := by
  obtain ⟨_, _, -, -, hloop⟩ := PriceRead.exec_eq_ok.mp done
  exact foldlM_keeps IndexesBounded (fun _ _ _ bounded hstep => trackPrice_bounded bounded hstep)
    _ prices prices' bounded hloop

theorem PriceRead.exec_stays (done : read.exec prices = .ok prices')
    (positive : IndexesPositive prices') : IndexesPositive prices := by
  obtain ⟨_, _, -, -, hloop⟩ := PriceRead.exec_eq_ok.mp done
  by_contra bad
  exact foldlM_keeps (fun store => ¬ IndexesPositive store)
    (fun _ _ _ bad hstep positive => bad (trackPrice_stays hstep positive))
    _ prices prices' bad hloop positive

theorem usableRead_iff (bounded : IndexesBounded prices) (positive : IndexesPositive prices) :
    UsableRead prices read ↔
      ∃ prices', read.exec prices = .ok prices' ∧ IndexesPositive prices' := by
  have hloop : ∀ cAssetPrices, (∃ prices',
      read.collateral.zipIdx.foldlM (trackPrice read.env cAssetPrices) prices = .ok prices' ∧
        IndexesPositive prices') ↔
      EachRound (trackPrice read.env cAssetPrices) (UsablePrice read.env cAssetPrices) prices
        read.collateral.zipIdx := by
    intro cAssetPrices
    exact foldlM_safe_iff IndexesBounded IndexesPositive
      (fun _ _ _ bounded hstep => trackPrice_bounded bounded hstep)
      (fun _ _ _ hstep positive => trackPrice_stays hstep positive)
      (fun _ _ bounded positive => usablePrice_iff bounded positive) _ prices bounded positive
  constructor
  · rintro ⟨values, cAssetPrices, hvalues, hfits, heach⟩
    obtain ⟨prices', hdone, hpositive⟩ := (hloop cAssetPrices).mpr heach
    exact ⟨prices', PriceRead.exec_eq_ok.mpr ⟨values, cAssetPrices, hvalues, hfits, hdone⟩,
      hpositive⟩
  · rintro ⟨prices', done, hpositive⟩
    obtain ⟨values, cAssetPrices, hvalues, hfits, hdone⟩ := PriceRead.exec_eq_ok.mp done
    exact ⟨values, cAssetPrices, hvalues, hfits,
      (hloop cAssetPrices).mp ⟨prices', hdone, hpositive⟩⟩

end

/-! ## A run of reads -/

/-- Every stored index is above zero and at most one. -/
def UsableIndexes (prices : PriceStore) : Prop :=
  prices.volatility.All fun _ volatility =>
    0 < volatility.index.atomics ∧ volatility.index ≤ Decimal.one

theorem usableIndexes_iff {prices : PriceStore} :
    UsableIndexes prices ↔ IndexesBounded prices ∧ IndexesPositive prices := by
  constructor
  · intro usable
    exact ⟨fun key volatility found => (usable key volatility found).2,
      fun key volatility found => (usable key volatility found).1⟩
  · rintro ⟨bounded, positive⟩ key volatility found
    exact ⟨positive key volatility found, bounded key volatility found⟩

/-- Every read of the run succeeds, and the store it leaves has usable indexes. -/
def StaysUsable (prices : PriceStore) (reads : List PriceRead) : Prop :=
  ∀ n, ∃ prices', (reads.take n).foldlM (fun store read => read.exec store) prices = .ok prices' ∧
    UsableIndexes prices'

/-- From usable indexes, a run of reads goes on with usable indexes exactly where each read is
    usable in its turn. -/
theorem volatility_usable_iff {prices : PriceStore} {reads : List PriceRead}
    (start : UsableIndexes prices) :
    StaysUsable prices reads ↔
      EachRound (fun store (read : PriceRead) => read.exec store) UsableRead prices reads := by
  obtain ⟨bounded, positive⟩ := usableIndexes_iff.mp start
  have hkeeps : ∀ store (read : PriceRead) store', IndexesBounded store →
      read.exec store = .ok store' → IndexesBounded store' :=
    fun _ _ _ bounded hstep => PriceRead.exec_bounded bounded hstep
  have hrun : ∀ reads : List PriceRead, (∃ prices',
      reads.foldlM (fun store read => read.exec store) prices = .ok prices' ∧
        IndexesPositive prices') ↔
      EachRound (fun store (read : PriceRead) => read.exec store) UsableRead prices reads := by
    intro reads
    exact foldlM_safe_iff IndexesBounded IndexesPositive hkeeps
      (fun _ _ _ hstep positive => PriceRead.exec_stays hstep positive)
      (fun _ _ bounded positive => usableRead_iff bounded positive) reads prices bounded positive
  constructor
  · intro stays
    obtain ⟨prices', hdone, husable⟩ := stays reads.length
    rw [List.take_length] at hdone
    exact (hrun reads).mp ⟨prices', hdone, (usableIndexes_iff.mp husable).2⟩
  · intro each n
    obtain ⟨prices', hdone, hpositive⟩ := (hrun (reads.take n)).mpr (each.take n)
    have hbounded : IndexesBounded prices' :=
      foldlM_keeps IndexesBounded hkeeps _ prices prices' bounded hdone
    exact ⟨prices', hdone, usableIndexes_iff.mpr ⟨hbounded, hpositive⟩⟩

/-! ## Reads of one asset -/

/-- A read of `uatom` at a price. -/
private def readAt (time price : Nat) : PriceRead where
  deps := { atPar with
    oraclePrices := fun _ assets _ _ => .ok (assets.map fun _ => ⟨⟨price⟩, 6⟩) }
  env := atTime time
  config := sampleConfig
  collateral := [⟨⟨.nativeToken "uatom", 1000000⟩, Decimal.percent 50, Decimal.percent 60,
    Decimal.one, none, none⟩]
  basket := sampleBasket

/-- A price that rises by a tenth and falls back. -/
theorem volatility_usable_iff_tenth :
    StaysUsable ⟨∅, ∅⟩ [readAt 0 (10 ^ 18), readAt 1000 (11 * 10 ^ 17), readAt 2000 (10 ^ 18)] ↔
      EachRound (fun store (read : PriceRead) => read.exec store) UsableRead ⟨∅, ∅⟩
        [readAt 0 (10 ^ 18), readAt 1000 (11 * 10 ^ 17), readAt 2000 (10 ^ 18)] :=
  volatility_usable_iff KeyMap.all_empty

private def indexAfter (reads : List PriceRead) : Outcome StdError (Option Decimal) := do
  let prices ← reads.foldlM (fun store read => read.exec store) ⟨∅, ∅⟩
  pure ((prices.volatility.lookup "uatom").map (·.index))

/-- A price that rises by a tenth and then doubles brings the index to zero. A move of one
    atomic in a thousand seconds has no speed, and the read fails. -/
theorem volatility_not_usable :
    ¬ StaysUsable ⟨∅, ∅⟩
        [readAt 0 (10 ^ 18), readAt 1000 (11 * 10 ^ 17), readAt 2000 (22 * 10 ^ 17)] ∧
      ¬ StaysUsable ⟨∅, ∅⟩ [readAt 0 (10 ^ 18), readAt 1000 (10 ^ 18 + 1)] := by
  constructor
  · intro stays
    obtain ⟨prices', hdone, husable⟩ := stays 3
    have hindex : indexAfter
        [readAt 0 (10 ^ 18), readAt 1000 (11 * 10 ^ 17), readAt 2000 (22 * 10 ^ 17)] =
          .ok (some Decimal.zero) := by decide +kernel
    obtain ⟨prices, hprices, hresult⟩ := bind_eq_ok.mp hindex
    obtain rfl : prices' = prices := Except.ok.inj (hdone.symm.trans hprices)
    obtain ⟨volatility, hfound, hzero⟩ := Option.map_eq_some_iff.mp (pure_eq_ok.mp hresult)
    have hpositive := (husable "uatom" volatility hfound).1
    rw [hzero] at hpositive
    exact absurd hpositive (by decide)
  · intro stays
    obtain ⟨prices', hdone, -⟩ := stays 2
    have hfails : indexAfter [readAt 0 (10 ^ 18), readAt 1000 (10 ^ 18 + 1)] =
        .error (.err (.genericErr "Decimal division overflow")) := by decide +kernel
    have hsucceeds : indexAfter [readAt 0 (10 ^ 18), readAt 1000 (10 ^ 18 + 1)] =
        .ok ((prices'.volatility.lookup "uatom").map (·.index)) :=
      bind_eq_ok.mpr ⟨prices', hdone, rfl⟩
    rw [hfails] at hsucceeds
    cases hsucceeds

end Cdp

end Membrane
