import Membrane.Cdp.Proofs.Conservation

/-!
# Prices in the order of the assets

A list of prices is put together from storage and from one query to the oracle, as pairs of
an asset's text and a price, and then sorted by the assets. The sorting removes pairs by the
index they had before the round. Where the texts of the assets are distinct, each round finds
one pair and the list that comes out is each asset's own price, in the order of the assets.
-/

namespace Membrane

open Outcome

namespace Cdp

section

variable {deps : Deps} {env : Env} {config : Config} {prices : PriceStore} {basket : Basket}
  {isDeposit : Bool} {price : AssetInfo → PriceResponse}

/-! ## Stored prices -/

def freshPrice (env : Env) (config : Config) (prices : PriceStore) (info : AssetInfo) :
    Option PriceResponse :=
  (prices.storedPrices.lookup info.toText).bind fun stored =>
    if env.blockTime - stored.lastTimeUpdated ≤ config.oracleTimeLimit then some stored.price
    else none

def usablePrice (env : Env) (config : Config) (prices : PriceStore) (isDeposit : Bool)
    (info : AssetInfo) : Option PriceResponse :=
  if isDeposit then none else freshPrice env config prices info

/-- No stored price of the assets is from a later block. -/
def StoredInPast (env : Env) (prices : PriceStore) (assetInfos : List AssetInfo) : Prop :=
  ∀ info ∈ assetInfos, ∀ stored ∈ prices.storedPrices.lookup info.toText,
    stored.lastTimeUpdated ≤ env.blockTime

/-- The assets whose price is asked of the oracle. -/
def askedOf (env : Env) (config : Config) (prices : PriceStore) (isDeposit : Bool)
    (assetInfos : List AssetInfo) : List AssetInfo :=
  assetInfos.filter fun info => (usablePrice env config prices isDeposit info).isNone

/-- The timeframe of the query: that of the credit asset when it is the first. -/
def twapTimeframe (config : Config) (basket : Basket) (assetInfos : List AssetInfo) : Nat :=
  if assetInfos.head? = some basket.creditAsset.info then config.creditTwapTimeframe
  else config.collateralTwapTimeframe

theorem storedPriceIfRecent_eq {info : AssetInfo}
    (past : ∀ stored ∈ prices.storedPrices.lookup info.toText, stored.lastTimeUpdated ≤
      env.blockTime) :
    storedPriceIfRecent env config prices info = .ok (freshPrice env config prices info) := by
  rw [storedPriceIfRecent, freshPrice]
  cases hstored : prices.storedPrices.lookup info.toText with
  | none => rfl
  | some stored =>
    have hsub : (subUint env.blockTime stored.lastTimeUpdated : Outcome StdError Nat) =
        .ok (env.blockTime - stored.lastTimeUpdated) := subUint_eq_ok.mpr ⟨past stored hstored, rfl⟩
    simp only [hsub]
    rfl

theorem collectStoredPrice_none {acc : List (String × PriceResponse) × List AssetInfo}
    {info : AssetInfo}
    (past : ∀ stored ∈ prices.storedPrices.lookup info.toText, stored.lastTimeUpdated ≤
      env.blockTime)
    (unpriced : usablePrice env config prices isDeposit info = none) :
    collectStoredPrice env config prices isDeposit acc info = .ok acc := by
  rw [collectStoredPrice, storedPriceIfRecent_eq past]
  cases isDeposit with
  | true => rfl
  | false =>
    have hfresh : freshPrice env config prices info = none := unpriced
    rw [hfresh]
    rfl

theorem collectStoredPrice_some {acc : List (String × PriceResponse) × List AssetInfo}
    {info : AssetInfo} {stored : PriceResponse}
    (past : ∀ stored ∈ prices.storedPrices.lookup info.toText, stored.lastTimeUpdated ≤
      env.blockTime)
    (priced : usablePrice env config prices isDeposit info = some stored) :
    collectStoredPrice env config prices isDeposit acc info =
      .ok (acc.1 ++ [(info.toText, stored)], acc.2.filter fun asset => !asset.equal info) := by
  rw [collectStoredPrice, storedPriceIfRecent_eq past]
  cases isDeposit with
  | true => cases priced
  | false =>
    have hfresh : freshPrice env config prices info = some stored := priced
    rw [hfresh]
    rfl

/-- The price of an asset: the stored one that is usable, else the quote of the oracle. -/
def priceOf (env : Env) (config : Config) (prices : PriceStore) (isDeposit : Bool)
    (quote : AssetInfo → PriceResponse) (info : AssetInfo) : PriceResponse :=
  (usablePrice env config prices isDeposit info).getD (quote info)

def keyed (price : AssetInfo → PriceResponse) (info : AssetInfo) : String × PriceResponse :=
  (info.toText, price info)

def foundPrices (env : Env) (config : Config) (prices : PriceStore) (isDeposit : Bool)
    (quote : AssetInfo → PriceResponse) (assetInfos : List AssetInfo) :
    List (String × PriceResponse) :=
  (assetInfos.filter fun info => (usablePrice env config prices isDeposit info).isSome).map
    (keyed (priceOf env config prices isDeposit quote))

variable (env config prices isDeposit) in
theorem collectStoredPrices_eq (quote : AssetInfo → PriceResponse) :
    ∀ {assetInfos bulk : List AssetInfo} {found : List (String × PriceResponse)},
      StoredInPast env prices assetInfos →
      assetInfos.foldlM (collectStoredPrice env config prices isDeposit) (found, bulk) =
        .ok (found ++ foundPrices env config prices isDeposit quote assetInfos,
          bulk.filter fun asset => !(decide (asset ∈ assetInfos) &&
            (usablePrice env config prices isDeposit asset).isSome)) := by
  intro assetInfos
  induction assetInfos with
  | nil =>
    intro bulk found _
    simp only [foundPrices, List.foldlM_nil, List.filter_nil, List.map_nil, List.append_nil,
      List.not_mem_nil,
      decide_false, Bool.false_and, Bool.not_false, List.filter_true]
    rfl
  | cons info rest ih =>
    intro bulk found past
    have hpast := past info List.mem_cons_self
    have hrest : StoredInPast env prices rest := fun other mem =>
      past other (List.mem_cons_of_mem _ mem)
    rw [List.foldlM_cons]
    cases hprice : usablePrice env config prices isDeposit info with
    | none =>
      have hfound : foundPrices env config prices isDeposit quote (info :: rest) =
          foundPrices env config prices isDeposit quote rest := by
        rw [foundPrices, List.filter_cons_of_neg (by simp [hprice])]
        rfl
      rw [collectStoredPrice_none hpast hprice, hfound]
      refine (ih hrest).trans ?_
      have hsame : (bulk.filter fun asset => !(decide (asset ∈ rest) &&
          (usablePrice env config prices isDeposit asset).isSome)) =
          bulk.filter fun asset => !(decide (asset ∈ info :: rest) &&
            (usablePrice env config prices isDeposit asset).isSome) := by
        apply List.filter_congr
        intro asset _
        by_cases hself : asset = info
        · rw [hself, hprice]
          simp
        · simp [hself]
      rw [hsame]
    | some stored =>
      have hof : priceOf env config prices isDeposit quote info = stored := by
        rw [priceOf, hprice]
        rfl
      have hfound : foundPrices env config prices isDeposit quote (info :: rest) =
          (info.toText, stored) :: foundPrices env config prices isDeposit quote rest := by
        rw [foundPrices, List.filter_cons_of_pos (by simp [hprice]), List.map_cons, keyed, hof]
        rfl
      rw [collectStoredPrice_some hpast hprice, hfound]
      refine (ih hrest).trans ?_
      rw [List.append_assoc, List.filter_filter]
      have hsame : (bulk.filter fun asset => !(decide (asset ∈ rest) &&
          (usablePrice env config prices isDeposit asset).isSome) && !asset.equal info) =
          bulk.filter fun asset => !(decide (asset ∈ info :: rest) &&
            (usablePrice env config prices isDeposit asset).isSome) := by
        apply List.filter_congr
        intro asset _
        by_cases hself : asset = info
        · rw [hself, hprice, AssetInfo.equal_iff.mpr rfl]
          simp
        · have hne : asset.equal info = false :=
            Bool.eq_false_iff.mpr fun h => hself (AssetInfo.equal_iff.mp h)
          simp [hself, hne]
      rw [hsame]
      rfl

/-! ## Sorting -/

theorem takePrices_skip {info : AssetInfo} : ∀ {pairs : List (String × PriceResponse)} {start : Nat}
    {acc : List PriceResponse × List (String × PriceResponse)},
    (∀ pair ∈ pairs, pair.1 ≠ info.toText) →
    (pairs.zipIdx start).foldlM (fun acc entry =>
      if entry.1.1 = info.toText then do
        let rest ← Outcome.removeIndex acc.2 entry.2
        pure (acc.1 ++ [entry.1.2], rest)
      else pure acc) acc = (.ok acc : Outcome StdError _) := by
  intro pairs
  induction pairs with
  | nil => intro start acc _; rfl
  | cons pair rest ih =>
    intro start acc others
    rw [List.zipIdx_cons, List.foldlM_cons, if_neg (others pair List.mem_cons_self)]
    exact ih fun other mem => others other (List.mem_cons_of_mem _ mem)

theorem takePrices_one {info : AssetInfo} {before after : List (String × PriceResponse)}
    {sorted : List PriceResponse} {found : PriceResponse}
    (early : ∀ pair ∈ before, pair.1 ≠ info.toText) (late : ∀ pair ∈ after, pair.1 ≠ info.toText) :
    takePrices (sorted, before ++ (info.toText, found) :: after) info =
      .ok (sorted ++ [found], before ++ after) := by
  have hremove : (Outcome.removeIndex (before ++ (info.toText, found) :: after) before.length :
      Outcome StdError _) = .ok (before ++ after) := by
    refine removeIndex_eq_ok.mpr ⟨by simp, ?_⟩
    rw [List.eraseIdx_append_of_length_le (Nat.le_refl _), Nat.sub_self, List.eraseIdx_cons_zero]
  have hindexed : (before ++ (info.toText, found) :: after).zipIdx =
      before.zipIdx ++ ((info.toText, found), before.length) ::
        after.zipIdx (before.length + 1) := by
    rw [List.zipIdx_append, List.zipIdx_cons, Nat.zero_add]
  rw [takePrices, hindexed, foldlM_onward _ (takePrices_skip early), List.foldlM_cons, if_pos rfl]
  simp only [hremove]
  exact takePrices_skip late

theorem takePrices_sorted : ∀ {assetInfos : List AssetInfo} {pairs : List (String × PriceResponse)}
    {sorted : List PriceResponse}, (assetInfos.map AssetInfo.toText).Nodup →
    pairs.Perm (assetInfos.map (keyed price)) →
    assetInfos.foldlM takePrices (sorted, pairs) =
      (.ok (sorted ++ assetInfos.map price, []) : Outcome StdError _) := by
  intro assetInfos
  induction assetInfos with
  | nil =>
    intro pairs sorted _ perm
    rw [List.map_nil, List.perm_nil] at perm
    rw [perm, List.foldlM_nil, List.map_nil, List.append_nil]
    rfl
  | cons info rest ih =>
    intro pairs sorted distinct perm
    rw [List.map_cons, List.nodup_cons] at distinct
    have hmem : keyed price info ∈ pairs := perm.symm.subset List.mem_cons_self
    obtain ⟨before, after, rfl⟩ := List.append_of_mem hmem
    have hperm : (before ++ after).Perm (rest.map (keyed price)) := by
      have hfront := List.perm_middle.symm.trans perm
      exact hfront.cons_inv
    have hothers : ∀ pair ∈ before ++ after, pair.1 ≠ info.toText := by
      intro pair mem heq
      obtain ⟨other, hother, rfl⟩ := List.mem_map.mp (hperm.subset mem)
      apply distinct.1
      rw [← heq]
      exact List.mem_map_of_mem hother
    have hround : takePrices (sorted, before ++ keyed price info :: after) info =
        .ok (sorted ++ [price info], before ++ after) :=
      takePrices_one (fun pair mem => hothers pair (List.mem_append_left _ mem))
        fun pair mem => hothers pair (List.mem_append_right _ mem)
    rw [List.foldlM_cons, hround]
    refine (ih distinct.2 hperm).trans ?_
    rw [List.append_assoc]
    rfl

/-! ## The list of prices -/

theorem quotes_eq (bulk : List AssetInfo) (quote : AssetInfo → PriceResponse) :
    ((bulk.map quote).zipIdx.mapM fun entry => do
      let asset ← Outcome.index bulk entry.2
      pure (asset.toText, entry.1)) =
        (.ok (bulk.map (keyed quote)) : Outcome StdError (List (String × PriceResponse))) := by
  have hreads : (bulk.zipIdx.mapM fun entry => do
      let asset ← Outcome.index (bulk.map id) entry.2
      pure (asset.toText, quote entry.1)) =
        (bulk.mapM fun info => pure (keyed quote info) : Outcome StdError _) :=
    mapM_zipIdx_map id (fun info asset => pure (asset.toText, quote info)) bulk
  rw [List.map_id] at hreads
  rw [List.zipIdx_map, List.mapM_map]
  refine hreads.trans ?_
  rw [List.mapM_pure]
  rfl

variable (env config prices isDeposit) in
theorem pricesGathered_perm (quote : AssetInfo → PriceResponse) (assetInfos : List AssetInfo) :
    (foundPrices env config prices isDeposit quote assetInfos ++
      (askedOf env config prices isDeposit assetInfos).map (keyed quote)).Perm
      (assetInfos.map (keyed (priceOf env config prices isDeposit quote))) := by
  have hasked : (askedOf env config prices isDeposit assetInfos).map (keyed quote) =
      (assetInfos.filter fun info =>
        !(usablePrice env config prices isDeposit info).isSome).map
          (keyed (priceOf env config prices isDeposit quote)) := by
    simp only [askedOf, Option.not_isSome]
    apply List.map_congr_left
    intro info mem
    have hnone := (List.mem_filter.mp mem).2
    rw [Option.isNone_iff_eq_none] at hnone
    rw [keyed, keyed, priceOf, hnone]
    rfl
  rw [hasked, foundPrices, ← List.map_append]
  exact (List.filter_append_perm _ assetInfos).map _

/-- The prices of a nonempty list of assets with distinct texts come in the order of the
    assets, each the asset's own: the stored one where it is fresh and the call does not
    deposit, and the oracle's otherwise. -/
theorem query_prices_aligned {assetInfos : List AssetInfo} {quote : AssetInfo → PriceResponse}
    (nonempty : assetInfos ≠ []) (distinct : (assetInfos.map AssetInfo.toText).Nodup)
    (past : StoredInPast env prices assetInfos)
    (answers : askedOf env config prices isDeposit assetInfos ≠ [] →
      deps.oraclePrices (addrOr config.oracleContract)
        (askedOf env config prices isDeposit assetInfos) (twapTimeframe config basket assetInfos)
        config.oracleTimeLimit = .ok ((askedOf env config prices isDeposit assetInfos).map quote)) :
    ∃ result : List PriceResponse,
      queryPrices deps env config prices assetInfos basket isDeposit = .ok result ∧
      result.length = assetInfos.length ∧ ∀ (i : Nat) info, assetInfos[i]? = some info →
        result[i]? = some (priceOf env config prices isDeposit quote info) := by
  have hlist : queryPrices deps env config prices assetInfos basket isDeposit =
      .ok (assetInfos.map (priceOf env config prices isDeposit quote)) := by
    obtain ⟨first, rest, rfl⟩ := List.exists_cons_of_ne_nil nonempty
    have htwap : (if first.equal basket.creditAsset.info then config.creditTwapTimeframe
        else config.collateralTwapTimeframe) = twapTimeframe config basket (first :: rest) := by
      rw [twapTimeframe, List.head?_cons]
      simp only [AssetInfo.equal_iff, Option.some.injEq]
    have hbulk : ((first :: rest).filter fun asset => !(decide (asset ∈ first :: rest) &&
        (usablePrice env config prices isDeposit asset).isSome)) =
        askedOf env config prices isDeposit (first :: rest) := by
      apply List.filter_congr
      intro asset mem
      rw [decide_eq_true mem, Bool.true_and, Option.not_isSome]
    have hloop : (first :: rest).foldlM (collectStoredPrice env config prices isDeposit)
        ([], first :: rest) =
          .ok (foundPrices env config prices isDeposit quote (first :: rest),
            askedOf env config prices isDeposit (first :: rest)) := by
      rw [collectStoredPrices_eq env config prices isDeposit quote past, hbulk, List.nil_append]
    have hqueried : (if (askedOf env config prices isDeposit (first :: rest)).length ≠ 0 then do
        let res ← Outcome.ofExcept (deps.oraclePrices (addrOr config.oracleContract)
          (askedOf env config prices isDeposit (first :: rest))
          (if first.equal basket.creditAsset.info then config.creditTwapTimeframe
          else config.collateralTwapTimeframe) config.oracleTimeLimit)
        res.zipIdx.mapM fun entry => do
          let asset ← Outcome.index (askedOf env config prices isDeposit (first :: rest)) entry.2
          pure (asset.toText, entry.1)
        else pure []) =
          (.ok ((askedOf env config prices isDeposit (first :: rest)).map (keyed quote)) :
            Outcome StdError _) := by
      rw [htwap]
      by_cases hnone : askedOf env config prices isDeposit (first :: rest) = []
      · rw [hnone]
        rfl
      · rw [if_pos (fun h => hnone (List.length_eq_zero_iff.mp h)), answers hnone]
        exact quotes_eq _ quote
    have hsorted : (first :: rest).foldlM takePrices ([], _) = (.ok (_, []) : Outcome StdError _) :=
      takePrices_sorted distinct (pricesGathered_perm env config prices isDeposit quote _)
    simp only [queryPrices, bind_eq_ok, pure_eq_ok]
    exact ⟨first, rfl, _, hloop, _, hqueried, _, hsorted, rfl⟩
  refine ⟨_, hlist, List.length_map _, fun i info found => ?_⟩
  rw [List.getElem?_map, found]
  rfl

end

/-! ## Some lists -/

private def dollar (_ : AssetInfo) : PriceResponse := ⟨Decimal.one, 6⟩

private def mixedPrices : PriceStore where
  storedPrices :=
    ((∅ : KeyMap String StoredPrice).insert "uatom" ⟨⟨Decimal.percent 500, 6⟩, 600⟩).insert
    "uosmo" ⟨⟨Decimal.percent 40, 6⟩, 0⟩
  volatility := ∅

private def mixedAssets : List AssetInfo :=
  [.nativeToken "uosmo", .nativeToken "uatom", .nativeToken "uluna"]

/-- The second of three assets keeps its stored price. -/
theorem query_prices_aligned_mixed :
    (∃ result : List PriceResponse,
      queryPrices atPar (atTime 700) sampleConfig mixedPrices mixedAssets sampleBasket false =
        .ok result ∧
      result.length = mixedAssets.length ∧ ∀ (i : Nat) info, mixedAssets[i]? = some info →
        result[i]? = some (priceOf (atTime 700) sampleConfig mixedPrices false dollar info)) ∧
    priceOf (atTime 700) sampleConfig mixedPrices false dollar (.nativeToken "uatom") =
      ⟨Decimal.percent 500, 6⟩ := by
  have hpast : StoredInPast (atTime 700) mixedPrices mixedAssets := by
    intro info mem stored found
    simp only [mixedAssets, List.mem_cons, List.not_mem_nil, or_false] at mem
    rcases mem with rfl | rfl | rfl
    all_goals cases found
    all_goals decide
  exact ⟨query_prices_aligned (by decide) (by decide) hpast (fun _ => rfl), by decide +kernel⟩

/-- Two distinct assets of one text: their pairs are both taken in the first round. -/
private def namesakes : List AssetInfo := [.token "uatom", .nativeToken "uatom"]

private theorem queryPrices_aborts {assetInfos : List AssetInfo}
    (mem : assetInfos ∈ [[], namesakes]) :
    assetInfos.Nodup ∧ StoredInPast (atTime 0) ⟨∅, ∅⟩ assetInfos ∧
      ∀ result, queryPrices atPar (atTime 0) sampleConfig ⟨∅, ∅⟩ assetInfos sampleBasket false ≠
        .ok result := by
  have haborts : ∀ assetInfos ∈ [[], namesakes],
      queryPrices atPar (atTime 0) sampleConfig ⟨∅, ∅⟩ assetInfos sampleBasket false =
        .error .panic := by
    decide +kernel
  refine ⟨?_, ?_, fun result => ?_⟩
  · simp only [List.mem_cons, List.not_mem_nil, or_false] at mem
    rcases mem with rfl | rfl
    · decide
    · decide
  · intro info _ stored found
    cases found
  · rw [haborts assetInfos mem]
    intro h
    cases h

/-- An empty list and a list of two assets of one text make the call abort, though the assets
    are distinct, nothing is stored and the oracle answers each. -/
theorem query_prices_not_aligned :
    (∀ asked : List AssetInfo, atPar.oraclePrices "oracle" asked 60 600 = .ok (asked.map dollar)) ∧
      (([] : List AssetInfo).Nodup ∧ StoredInPast (atTime 0) ⟨∅, ∅⟩ [] ∧
        ∀ result, queryPrices atPar (atTime 0) sampleConfig ⟨∅, ∅⟩ [] sampleBasket false ≠
          .ok result) ∧
      (namesakes.Nodup ∧ StoredInPast (atTime 0) ⟨∅, ∅⟩ namesakes ∧
        ∀ result, queryPrices atPar (atTime 0) sampleConfig ⟨∅, ∅⟩ namesakes sampleBasket false ≠
          .ok result) := by
  refine ⟨fun _ => rfl, ?_, ?_⟩
  · exact queryPrices_aborts (List.mem_cons_self)
  · exact queryPrices_aborts (List.mem_cons_of_mem _ List.mem_cons_self)

end Cdp

end Membrane
