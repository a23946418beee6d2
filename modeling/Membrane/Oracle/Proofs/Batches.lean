import Membrane.Oracle.Proofs.Termination

/-!
# Batches and single prices

A batch hands on what it finds: the price of OSMO, and the prices of the assets before. An
entry of a batch has the price that a query for its asset alone finds, in whatever order the
assets are asked for: what is handed on is what would be found anew. The list of sources is
not the same, since an entry that was handed the price of OSMO does not name its source.
The prices of vault tokens are handed on too; where a TWAP route ends in a vault token, a
batch takes that price and a single query the TWAP price of the vault token, so such routes
are left out.
-/

namespace Membrane.Oracle

open Outcome Fueled

def IsVaultToken (assets : Assets) (asset : String) : Prop :=
  ∃ first, (assets.lookup asset).bind List.head? = some first ∧ first.lpPoolInfo = none ∧
    first.vaultInfo.isSome

/-- No TWAP route of the assets that `asset` asks for, directly or through others, ends in a
    vault token. -/
def QuotesNoVaultToken (assets : Assets) (basketId : Nat) (asset : String) : Prop :=
  ∀ other, Relation.ReflTransGen (Asks assets basketId) asset other →
    ∀ denom, quoteOf assets basketId other = some denom → ¬ IsVaultToken assets denom

theorem QuotesNoVaultToken.asks {assets : Assets} {basketId : Nat} {asset other : String}
    (quotes : QuotesNoVaultToken assets basketId asset) (asks : Asks assets basketId asset other) :
    QuotesNoVaultToken assets basketId other :=
  fun reached reach => quotes reached (.head asks reach)

section

variable {deps : Deps} {s : State} {query : Query}

/-! ## One price -/

def QuotePriced (deps : Deps) (s : State) (query : Query) (fuel : Nat) (queried : Queried)
    (osmoQuotePrice : Option Decimal) (denom : String)
    (quote : PriceResponse × Option Decimal) : Prop :=
  (queried.price denom = some quote.1 ∧ osmoQuotePrice = quote.2) ∨
    queried.price denom = none ∧
      (getAssetPrice deps s query fuel (.nativeToken denom) (some queried) osmoQuotePrice).Returns
        quote

def RoutePriced (deps : Deps) (s : State) (query : Query) (fuel : Nat) (asset : AssetInfo)
    (oracleInfo : AssetOracleInfo) (start : Nat) (sources : List PriceInfo) (queried : Queried)
    (osmoQuotePrice : Option Decimal) (result : PriceResponse × Option Decimal) : Prop :=
  ∃ priceInOsmo,
    assetPriceInOsmo deps s.assets query oracleInfo asset.toText start = .ok priceInOsmo ∧
    match oracleInfo.quotedIn with
    | some denom => ∃ quote, QuotePriced deps s query fuel queried osmoQuotePrice denom quote ∧
        priceByQuote oracleInfo (sources ++ [⟨"osmosis", priceInOsmo⟩]) priceInOsmo quote.1 =
          .ok result.1 ∧ quote.2 = result.2
    | none => priceByOsmo deps s.config query oracleInfo (sources ++ [⟨"osmosis", priceInOsmo⟩])
        priceInOsmo start osmoQuotePrice = .ok result

theorem getAssetPrice_returns {fuel : Nat} {asset : AssetInfo} {queried : Queried}
    {osmoQuotePrice : Option Decimal} {result : PriceResponse × Option Decimal} :
    (getAssetPrice deps s query (fuel + 1) asset (some queried) osmoQuotePrice).Returns result ↔
      ∃ oracleInfo start sources pyth,
        oracleInfoFor s.assets query.basket asset.toText = .ok oracleInfo ∧
        startTime query = .ok start ∧
        pythPrice deps s.config query oracleInfo = .ok (sources, pyth) ∧
        match pyth with
        | some price => (⟨⟨price, oracleInfo.decimals⟩, sources⟩, none) = result
        | none => RoutePriced deps s query fuel asset oracleInfo start sources queried
            osmoQuotePrice result := by
  rw [getAssetPrice]
  constructor
  · intro done
    obtain ⟨oracleInfo, hinfo, done⟩ := returns_bind.mp done
    obtain ⟨start, hstart, done⟩ := returns_bind.mp done
    obtain ⟨⟨sources, pyth⟩, hpyth, done⟩ := returns_bind.mp done
    refine ⟨oracleInfo, start, sources, pyth, returns_lift.mp hinfo, returns_lift.mp hstart,
      returns_lift.mp hpyth, ?_⟩
    cases pyth with
    | some price => exact returns_pure.mp done
    | none =>
      obtain ⟨priceInOsmo, hroute, done⟩ := returns_bind.mp done
      refine ⟨priceInOsmo, returns_lift.mp hroute, ?_⟩
      cases hquoted : oracleInfo.quotedIn with
      | none =>
        rw [hquoted] at done
        exact returns_lift.mp done
      | some denom =>
        rw [hquoted] at done
        dsimp only at done ⊢
        cases hfound : queried.price denom with
        | some quote =>
          rw [hfound] at done
          obtain ⟨price, hprice, done⟩ := returns_bind.mp done
          obtain rfl := returns_pure.mp done
          exact ⟨(quote, osmoQuotePrice), .inl ⟨hfound, rfl⟩, returns_lift.mp hprice, rfl⟩
        | none =>
          rw [hfound] at done
          obtain ⟨quote, hquote, done⟩ := returns_bind.mp done
          obtain ⟨price, hprice, done⟩ := returns_bind.mp done
          obtain rfl := returns_pure.mp done
          exact ⟨quote, .inr ⟨hfound, returns_mapErr.mp hquote⟩, returns_lift.mp hprice, rfl⟩
  · rintro ⟨oracleInfo, start, sources, pyth, hinfo, hstart, hpyth, hrest⟩
    rw [hinfo, lift_ok_bind, hstart, lift_ok_bind, hpyth, lift_ok_bind]
    cases pyth with
    | some price => exact returns_pure.mpr hrest
    | none =>
      obtain ⟨priceInOsmo, hroute, hrest⟩ := hrest
      dsimp only
      rw [hroute, lift_ok_bind]
      cases hquoted : oracleInfo.quotedIn with
      | none =>
        rw [hquoted] at hrest
        exact returns_lift.mpr hrest
      | some denom =>
        rw [hquoted] at hrest
        obtain ⟨quote, hquote, hprice, hosmo⟩ := hrest
        rcases hquote with ⟨hfound, hsame⟩ | ⟨hfound, hquote⟩
        · dsimp only
          rw [hfound]
          refine returns_bind.mpr ⟨result.1, returns_lift.mpr hprice, ?_⟩
          exact returns_pure.mpr (Prod.ext rfl (hsame.trans hosmo))
        · dsimp only
          rw [hfound]
          refine returns_bind.mpr ⟨quote, returns_mapErr.mpr hquote, ?_⟩
          refine returns_bind.mpr ⟨result.1, returns_lift.mpr hprice, ?_⟩
          exact returns_pure.mpr (Prod.ext rfl hosmo)

theorem getAssetPrice_stable (asset : AssetInfo) (queried : Option Queried)
    (osmoQuotePrice : Option Decimal) :
    Stable fun fuel => getAssetPrice deps s query fuel asset queried osmoQuotePrice := by
  intro n
  induction n generalizing asset with
  | zero => exact fun _ _ => .outOfFuel _
  | succ n ih =>
    intro m le
    obtain ⟨m, rfl⟩ : ∃ m', m = m' + 1 := ⟨m - 1, by omega⟩
    dsimp only
    rw [getAssetPrice, getAssetPrice]
    refine .bind (.refl _) fun oracleInfo => .bind (.refl _) fun start => ?_
    refine .bind (.refl _) fun pyth => ?_
    obtain ⟨sources, pyth⟩ := pyth
    cases pyth with
    | some price => exact .refl _
    | none =>
      refine .bind (.refl _) fun priceInOsmo => ?_
      dsimp only
      split
      · split
        · exact .refl _
        · refine .bind (.mapErr (ih _ m (by omega))) fun quote => .refl _
      · exact .refl _

def PricedAlone (deps : Deps) (s : State) (query : Query) (asset : String)
    (price : Membrane.PriceResponse) : Prop :=
  ∃ response osmoQuotePrice,
    Converges (fun fuel => getAssetPrice deps s query fuel (.nativeToken asset) (some []) none)
      (response, osmoQuotePrice) ∧ response.toPriceResponse = price

theorem PricedAlone.unique {asset : String} {price price' : Membrane.PriceResponse}
    (priced : PricedAlone deps s query asset price)
    (priced' : PricedAlone deps s query asset price') : price = price' := by
  obtain ⟨response, osmo, hconverges, rfl⟩ := priced
  obtain ⟨response', osmo', hconverges', rfl⟩ := priced'
  have hsame := (getAssetPrice_stable _ _ _).unique hconverges hconverges'
  rw [(Prod.mk.inj hsame).1]

theorem getAssetPrice_native {fuel : Nat} {asset : AssetInfo} {queried : Option Queried}
    {osmoQuotePrice : Option Decimal} :
    getAssetPrice deps s query fuel (.nativeToken asset.toText) queried osmoQuotePrice =
      getAssetPrice deps s query fuel asset queried osmoQuotePrice := by
  cases fuel with
  | zero => rfl
  | succ fuel => rfl

def OsmoFound (deps : Deps) (s : State) (query : Query) (osmoQuotePrice : Option Decimal) : Prop :=
  ∀ price, osmoQuotePrice = some price → ∃ start info, startTime query = .ok start ∧
    osmoUsdPrice deps s.config query start = .ok info ∧ info.price = price

/-- What a batch hands on is what would be found anew: the price of OSMO, and the prices of
    assets that are no vault tokens. -/
structure HandedOn (deps : Deps) (s : State) (query : Query) (queried : Queried)
    (osmoQuotePrice : Option Decimal) : Prop where
  osmo : OsmoFound deps s query osmoQuotePrice
  prices : ∀ asset response, queried.price asset = some response →
    ¬ IsVaultToken s.assets asset → PricedAlone deps s query asset response.toPriceResponse

theorem HandedOn.nothing : HandedOn deps s query [] none := by
  constructor
  · intro price h
    cases h
  · intro asset response h
    cases h

theorem priceByQuote_congr {oracleInfo : AssetOracleInfo} {sources sources' : List PriceInfo}
    {priceInQuote : Decimal} {quote quote' price : PriceResponse}
    (same : quote.toPriceResponse = quote'.toPriceResponse)
    (done : priceByQuote oracleInfo sources priceInQuote quote = .ok price) :
    ∃ price', priceByQuote oracleInfo sources' priceInQuote quote' = .ok price' ∧
      price'.toPriceResponse = price.toPriceResponse := by
  simp only [priceByQuote, bind_eq_ok, pure_eq_ok, same] at done ⊢
  obtain ⟨value, hvalue, rfl⟩ := done
  exact ⟨_, ⟨value, hvalue, rfl⟩, rfl⟩

theorem osmoQuote_found {start : Nat} {queried : Queried} {osmoQuotePrice : Option Decimal}
    (starts : startTime query = .ok start)
    (handed : HandedOn deps s query queried osmoQuotePrice) {quote : List PriceInfo × Decimal}
    (done : osmoQuote deps s.config query start osmoQuotePrice = .ok quote) :
    ∃ info, osmoUsdPrice deps s.config query start = .ok info ∧ info.price = quote.2 := by
  cases osmoQuotePrice with
  | none =>
    obtain ⟨info, hinfo, hquote⟩ := bind_eq_ok.mp done
    obtain rfl := pure_eq_ok.mp hquote
    exact ⟨info, hinfo, rfl⟩
  | some price =>
    obtain rfl := pure_eq_ok.mp done
    obtain ⟨start', info, hstart, hinfo, hprice⟩ := handed.osmo price rfl
    obtain rfl := Except.ok.inj (starts.symm.trans hstart)
    exact ⟨info, hinfo, hprice⟩

theorem osmoQuote_of_found {start : Nat} {queried : Queried} {osmoQuotePrice : Option Decimal}
    {info : PriceInfo} (starts : startTime query = .ok start)
    (handed : HandedOn deps s query queried osmoQuotePrice)
    (found : osmoUsdPrice deps s.config query start = .ok info) :
    ∃ sources, osmoQuote deps s.config query start osmoQuotePrice = .ok (sources, info.price) := by
  cases osmoQuotePrice with
  | none => exact ⟨[info], bind_eq_ok.mpr ⟨info, found, rfl⟩⟩
  | some price =>
    obtain ⟨start', info', hstart, hinfo, rfl⟩ := handed.osmo price rfl
    obtain rfl := Except.ok.inj (starts.symm.trans hstart)
    obtain rfl := Except.ok.inj (found.symm.trans hinfo)
    exact ⟨[], rfl⟩

theorem priceByOsmo_congr {oracleInfo : AssetOracleInfo} {sources sources' : List PriceInfo}
    {priceInOsmo : Decimal} {start : Nat} {queried queried' : Queried}
    {osmoQuotePrice osmoQuotePrice' : Option Decimal} {result : PriceResponse × Option Decimal}
    (starts : startTime query = .ok start)
    (handed : HandedOn deps s query queried osmoQuotePrice)
    (handed' : HandedOn deps s query queried' osmoQuotePrice')
    (done : priceByOsmo deps s.config query oracleInfo sources priceInOsmo start osmoQuotePrice =
      .ok result) :
    ∃ result', priceByOsmo deps s.config query oracleInfo sources' priceInOsmo start
        osmoQuotePrice' = .ok result' ∧
      result'.1.toPriceResponse = result.1.toPriceResponse ∧
      ∃ info, osmoUsdPrice deps s.config query start = .ok info ∧ some info.price = result.2 := by
  obtain ⟨quote, hquote, done⟩ := bind_eq_ok.mp done
  obtain ⟨value, hvalue, hresult⟩ := bind_eq_ok.mp done
  obtain rfl := pure_eq_ok.mp hresult
  obtain ⟨info, hinfo, hprice⟩ := osmoQuote_found starts handed hquote
  obtain ⟨sources', hquote'⟩ := osmoQuote_of_found starts handed' hinfo
  rw [hprice] at hquote'
  refine ⟨_, bind_eq_ok.mpr ⟨_, hquote', bind_eq_ok.mpr ⟨value, hvalue, rfl⟩⟩, rfl, info, hinfo, ?_⟩
  exact congrArg some hprice

/-! ## A price and what was handed on -/

theorem getAssetPrice_alone :
    ∀ (fuel : Nat) (asset : AssetInfo) (queried : Queried) (osmoQuotePrice : Option Decimal)
      (result : PriceResponse × Option Decimal),
      HandedOn deps s query queried osmoQuotePrice →
      QuotesNoVaultToken s.assets query.basket asset.toText →
      (getAssetPrice deps s query fuel asset (some queried) osmoQuotePrice).Returns result →
      PricedAlone deps s query asset.toText result.1.toPriceResponse ∧
        OsmoFound deps s query result.2 := by
  intro fuel
  induction fuel with
  | zero =>
    intro asset queried osmoQuotePrice result _ _ done
    cases done
  | succ fuel ih =>
    intro asset queried osmoQuotePrice result handed quotes done
    obtain ⟨oracleInfo, start, sources, pyth, hinfo, hstart, hpyth, hrest⟩ :=
      getAssetPrice_returns.mp done
    cases pyth with
    | some price =>
      subst hrest
      refine ⟨⟨_, none, ⟨1, ?_⟩, rfl⟩, fun _ h => absurd h (by simp)⟩
      exact getAssetPrice_returns.mpr ⟨oracleInfo, start, sources, _, hinfo, hstart, hpyth, rfl⟩
    | none =>
      obtain ⟨priceInOsmo, hroute, hrest⟩ := hrest
      cases hquoted : oracleInfo.quotedIn with
      | none =>
        rw [hquoted] at hrest
        obtain ⟨result', hresult', hsame, info, hfound, hprice⟩ :=
          priceByOsmo_congr hstart handed .nothing hrest
        refine ⟨⟨result'.1, result'.2, ⟨1, ?_⟩, hsame⟩, ?_⟩
        · refine getAssetPrice_returns.mpr ⟨oracleInfo, start, sources, none, hinfo, hstart,
            hpyth, priceInOsmo, hroute, ?_⟩
          rw [hquoted]
          exact hresult'
        · intro price h
          exact ⟨start, info, hstart, hfound, Option.some.inj (hprice.trans h)⟩
      | some denom =>
        rw [hquoted] at hrest
        obtain ⟨quote, hquote, hprice, hosmo⟩ := hrest
        have hasked : quoteOf s.assets query.basket asset.toText = some denom :=
          (quoteOf_eq hinfo).trans hquoted
        have halone : PricedAlone deps s query denom quote.1.toPriceResponse ∧
            OsmoFound deps s query quote.2 := by
          rcases hquote with ⟨hfound, rfl⟩ | ⟨-, hquote⟩
          · exact ⟨handed.prices denom _ hfound (quotes _ .refl denom hasked), handed.osmo⟩
          · exact ih (.nativeToken denom) queried osmoQuotePrice quote handed
              (quotes.asks (.inl hasked)) hquote
        obtain ⟨⟨quote', osmo', ⟨n, hconverges⟩, hsame⟩, hosmoFound⟩ := halone
        obtain ⟨price', hprice', hsame'⟩ := priceByQuote_congr hsame.symm hprice
        refine ⟨⟨price', osmo', ⟨n + 1, ?_⟩, hsame'⟩, hosmo ▸ hosmoFound⟩
        refine getAssetPrice_returns.mpr ⟨oracleInfo, start, sources, none, hinfo, hstart,
          hpyth, priceInOsmo, hroute, ?_⟩
        rw [hquoted]
        exact ⟨(quote', osmo'), .inr ⟨rfl, hconverges⟩, hprice', rfl⟩

theorem getAssetPrice_handed :
    ∀ (fuel : Nat) (asset : AssetInfo) (queried : Queried) (osmoQuotePrice : Option Decimal)
      (result : PriceResponse × Option Decimal),
      HandedOn deps s query queried osmoQuotePrice →
      QuotesNoVaultToken s.assets query.basket asset.toText →
      (getAssetPrice deps s query fuel asset (some []) none).Returns result →
      ∃ result', Converges (fun fuel => getAssetPrice deps s query fuel asset (some queried)
          osmoQuotePrice) result' ∧ result'.1.toPriceResponse = result.1.toPriceResponse := by
  intro fuel
  induction fuel with
  | zero =>
    intro asset queried osmoQuotePrice result _ _ done
    cases done
  | succ fuel ih =>
    intro asset queried osmoQuotePrice result handed quotes done
    obtain ⟨oracleInfo, start, sources, pyth, hinfo, hstart, hpyth, hrest⟩ :=
      getAssetPrice_returns.mp done
    cases pyth with
    | some price =>
      subst hrest
      refine ⟨_, ⟨1, ?_⟩, rfl⟩
      exact getAssetPrice_returns.mpr ⟨oracleInfo, start, sources, _, hinfo, hstart, hpyth, rfl⟩
    | none =>
      obtain ⟨priceInOsmo, hroute, hrest⟩ := hrest
      cases hquoted : oracleInfo.quotedIn with
      | none =>
        rw [hquoted] at hrest
        obtain ⟨result', hresult', hsame, -⟩ :=
          priceByOsmo_congr hstart .nothing handed hrest
        refine ⟨result', ⟨1, ?_⟩, hsame⟩
        refine getAssetPrice_returns.mpr ⟨oracleInfo, start, sources, none, hinfo, hstart,
          hpyth, priceInOsmo, hroute, ?_⟩
        rw [hquoted]
        exact hresult'
      | some denom =>
        rw [hquoted] at hrest
        obtain ⟨quote, hquote, hprice, -⟩ := hrest
        have hasked : quoteOf s.assets query.basket asset.toText = some denom :=
          (quoteOf_eq hinfo).trans hquoted
        have hpriced : ∃ n quote', QuotePriced deps s query n queried osmoQuotePrice denom
            quote' ∧ quote'.1.toPriceResponse = quote.1.toPriceResponse := by
          rcases hquote with ⟨hfound, -⟩ | ⟨-, hquote⟩
          · cases hfound
          · cases hfound : queried.price denom with
            | some response =>
              have halone := handed.prices denom response hfound
                (quotes _ .refl denom hasked)
              have hsame : PricedAlone deps s query denom quote.1.toPriceResponse :=
                ⟨quote.1, quote.2, ⟨fuel, hquote⟩, rfl⟩
              exact ⟨0, (response, osmoQuotePrice), .inl ⟨hfound, rfl⟩, halone.unique hsame⟩
            | none =>
              obtain ⟨quote', ⟨n, hquote'⟩, hsame⟩ := ih (.nativeToken denom) queried
                osmoQuotePrice quote handed (quotes.asks (.inl hasked)) hquote
              exact ⟨n, quote', .inr ⟨hfound, hquote'⟩, hsame⟩
        obtain ⟨n, quote', hquote', hsame⟩ := hpriced
        obtain ⟨price', hprice', hsame'⟩ := priceByQuote_congr hsame.symm hprice
        refine ⟨(price', quote'.2), ⟨n + 1, ?_⟩, hsame'⟩
        refine getAssetPrice_returns.mpr ⟨oracleInfo, start, sources, none, hinfo, hstart,
          hpyth, priceInOsmo, hroute, ?_⟩
        rw [hquoted]
        exact ⟨quote', hquote', hprice', rfl⟩

/-! ## An entry of a batch -/

/-- What a batch hands on is what would be found anew. -/
def Batch.Sound (deps : Deps) (s : State) (query : Query) (batch : Batch) : Prop :=
  HandedOn deps s query batch.pricePropagations batch.osmoQuotePrice

def Batch.Answered (deps : Deps) (s : State) (query : Query) (batch batch' : Batch)
    (price : Membrane.PriceResponse) : Prop :=
  batch'.Sound deps s query ∧ ∃ response,
    batch'.priceResponses = batch.priceResponses ++ [response] ∧ response.toPriceResponse = price

def EntryPriced (deps : Deps) (s : State) (query : Query) (asset : AssetInfo)
    (price : Membrane.PriceResponse) : Prop :=
  ∀ batch : Batch, batch.Sound deps s query →
    ∃ batch', Converges (fun fuel =>
        priceEntry deps s query fuel (getAssetPrices deps s query fuel) batch asset) batch' ∧
      batch.Answered deps s query batch' price

theorem Queried.price_append {queried : Queried} {asset asset' : String}
    {response : PriceResponse} :
    Queried.price (queried ++ [(asset, response)]) asset' =
      (queried.price asset').or (if asset = asset' then some response else none) := by
  rw [Queried.price, Queried.price, List.find?_append, List.find?_singleton]
  cases queried.find? fun entry => entry.1 == asset' with
  | some entry => rfl
  | none =>
    by_cases h : asset = asset'
    · simp [h]
    · simp [h]

theorem Batch.propagate_answered {batch : Batch} {asset : AssetInfo} {response : PriceResponse}
    {osmoQuotePrice : Option Decimal} (sound : batch.Sound deps s query)
    (osmo : OsmoFound deps s query osmoQuotePrice)
    (alone : ¬ IsVaultToken s.assets asset.toText →
      PricedAlone deps s query asset.toText response.toPriceResponse) :
    batch.Answered deps s query (batch.propagate asset response osmoQuotePrice)
      response.toPriceResponse := by
  refine ⟨⟨osmo, fun asset' response' hfound hplain => ?_⟩, response, rfl, rfl⟩
  rw [Batch.propagate, Queried.price_append, Option.or_eq_some_iff] at hfound
  rcases hfound with hfound | ⟨-, hfound⟩
  · exact sound.prices asset' response' hfound hplain
  · split at hfound
    case isTrue h =>
      obtain rfl := Option.some.inj hfound
      subst h
      exact alone hplain
    case isFalse => cases hfound

theorem Batch.respond_answered {batch : Batch} {response : PriceResponse}
    (sound : batch.Sound deps s query) :
    batch.Answered deps s query
      { batch with priceResponses := batch.priceResponses ++ [response] }
      response.toPriceResponse := ⟨sound, response, rfl, rfl⟩

section

variable {fuel : Nat} {asset : AssetInfo} {batch : Batch} {oracles : List AssetOracleInfo}
  {first : AssetOracleInfo} {getPrices : List AssetInfo → Option Queried → Option Decimal →
    Fueled StdError (List PriceResponse)}

theorem priceEntry_pool {poolInfo : PoolInfo}
    (loaded : loadAsset s.assets asset.toText = .ok oracles)
    (head : (Outcome.index oracles 0 : Outcome StdError AssetOracleInfo) = .ok first)
    (pool : first.lpPoolInfo = some poolInfo) :
    priceEntry deps s query fuel getPrices batch asset = (do
      let price ← getLpPrice deps s.config poolInfo fun assetInfos =>
        getPrices assetInfos (some batch.pricePropagations) batch.osmoQuotePrice
      pure { batch with priceResponses := batch.priceResponses ++ [price] }) := by
  rw [priceEntry, loaded, lift_ok_bind, head, lift_ok_bind, pool]

theorem priceEntry_vault {vaultInfo : VaultTokenInfo}
    (loaded : loadAsset s.assets asset.toText = .ok oracles)
    (head : (Outcome.index oracles 0 : Outcome StdError AssetOracleInfo) = .ok first)
    (pool : first.lpPoolInfo = none) (vault : first.vaultInfo = some vaultInfo) :
    priceEntry deps s query fuel getPrices batch asset = (do
      let (price, quotePrice) ← getVaultTokenPrice deps s query fuel vaultInfo first.decimals
        (some batch.pricePropagations) batch.osmoQuotePrice
      pure (batch.propagate asset price quotePrice)) := by
  rw [priceEntry, loaded, lift_ok_bind, head, lift_ok_bind, pool, vault]

theorem priceEntry_found {response : PriceResponse}
    (loaded : loadAsset s.assets asset.toText = .ok oracles)
    (head : (Outcome.index oracles 0 : Outcome StdError AssetOracleInfo) = .ok first)
    (pool : first.lpPoolInfo = none) (vault : first.vaultInfo = none)
    (found : batch.pricePropagations.price asset.toText = some response) :
    priceEntry deps s query fuel getPrices batch asset =
      pure { batch with priceResponses := batch.priceResponses ++ [response] } := by
  rw [priceEntry, loaded, lift_ok_bind, head, lift_ok_bind, pool, vault]
  dsimp only
  rw [found]

theorem priceEntry_anew (loaded : loadAsset s.assets asset.toText = .ok oracles)
    (head : (Outcome.index oracles 0 : Outcome StdError AssetOracleInfo) = .ok first)
    (pool : first.lpPoolInfo = none) (vault : first.vaultInfo = none)
    (absent : batch.pricePropagations.price asset.toText = none) :
    priceEntry deps s query fuel getPrices batch asset = (do
      let (price, quotePrice) ← getAssetPrice deps s query fuel asset
        (some batch.pricePropagations) batch.osmoQuotePrice
      pure (batch.propagate asset price quotePrice)) := by
  rw [priceEntry, loaded, lift_ok_bind, head, lift_ok_bind, pool, vault]
  dsimp only
  rw [absent]

end

theorem priceEntry_extends {n m : Nat} (le : n ≤ m) {getPrices getPrices' : List AssetInfo →
      Option Queried → Option Decimal → Fueled StdError (List PriceResponse)}
    (pools : ∀ assetInfos queried osmoQuotePrice, Extends
      (getPrices assetInfos queried osmoQuotePrice) (getPrices' assetInfos queried osmoQuotePrice))
    (batch : Batch) (asset : AssetInfo) :
    Extends (priceEntry deps s query n getPrices batch asset)
      (priceEntry deps s query m getPrices' batch asset) := by
  rw [priceEntry, priceEntry]
  refine .bind (.refl _) fun oracles => .bind (.refl _) fun first => ?_
  split
  · exact .bind (.bind (pools _ _ _) fun _ => .refl _) fun _ => .refl _
  · split
    · exact .bind (.bind (getAssetPrice_stable _ _ _ n m le) fun _ => .refl _) fun _ => .refl _
    · split
      · exact .refl _
      · exact .bind (getAssetPrice_stable _ _ _ n m le) fun _ => .refl _

theorem getAssetPrices_stable (assetInfos : List AssetInfo) (queried : Option Queried)
    (osmoQuotePrice : Option Decimal) :
    Stable fun fuel => getAssetPrices deps s query fuel assetInfos queried osmoQuotePrice := by
  intro n
  induction n generalizing assetInfos queried osmoQuotePrice with
  | zero => exact fun _ _ => .outOfFuel _
  | succ n ih =>
    intro m le
    obtain ⟨m, rfl⟩ : ∃ m', m = m' + 1 := ⟨m - 1, by omega⟩
    have hle : n ≤ m := Nat.le_of_succ_le_succ le
    dsimp only
    rw [getAssetPrices, getAssetPrices]
    refine .bind (.refl _) fun _ => .bind (.foldlM ?_ _ _) fun _ => .refl _
    exact priceEntry_extends hle fun assetInfos queried osmo => ih assetInfos queried osmo m hle

theorem priceEntry_stable (batch : Batch) (asset : AssetInfo) : Stable fun fuel =>
    priceEntry deps s query fuel (getAssetPrices deps s query fuel) batch asset :=
  fun n m le => priceEntry_extends le
    (fun assetInfos queried osmo =>
      getAssetPrices_stable assetInfos queried osmo n m le) batch asset

/-! ## Lists of assets -/

theorem foldlM_priceEntry_of_priced {assetInfos : List AssetInfo}
    {prices : List Membrane.PriceResponse}
    (priced : List.Forall₂ (EntryPriced deps s query) assetInfos prices) :
    ∀ batch : Batch, batch.Sound deps s query →
      ∃ batch' responses, Converges (fun fuel => assetInfos.foldlM
          (priceEntry deps s query fuel (getAssetPrices deps s query fuel)) batch) batch' ∧
        batch'.priceResponses = batch.priceResponses ++ responses ∧
        responses.map (·.toPriceResponse) = prices := by
  induction priced with
  | nil =>
    intro batch _
    exact ⟨batch, [], ⟨0, returns_pure.mpr rfl⟩, (List.append_nil _).symm, rfl⟩
  | @cons asset price rest prices hfirst _ ih =>
    intro batch sound
    obtain ⟨mid, hmid, hsound, response, hresponse, rfl⟩ := hfirst batch sound
    obtain ⟨batch', responses, hrest, hresponses, rfl⟩ := ih mid hsound
    refine ⟨batch', response :: responses, ?_, ?_, rfl⟩
    · simp only [List.foldlM_cons]
      refine .bind (priceEntry_stable batch asset) (Stable.foldlM ?_ rest mid) hmid hrest
      exact priceEntry_stable
    · rw [hresponses, hresponse, List.append_assoc, List.singleton_append]

theorem getAssetPrices_of_priced {assetInfos : List AssetInfo}
    {prices : List Membrane.PriceResponse} (queried : Option Queried)
    (osmoQuotePrice : Option Decimal) (length : assetInfos.length ≤ 50)
    (handed : HandedOn deps s query (queried.getD []) osmoQuotePrice)
    (priced : List.Forall₂ (EntryPriced deps s query) assetInfos prices) :
    ∃ responses, Converges (fun fuel =>
        getAssetPrices deps s query fuel assetInfos queried osmoQuotePrice) responses ∧
      responses.map (·.toPriceResponse) = prices := by
  obtain ⟨batch', responses, ⟨n, hrun⟩, hresponses, hprices⟩ := foldlM_priceEntry_of_priced priced
    ⟨[], queried.getD [], osmoQuotePrice⟩ handed
  refine ⟨responses, ⟨n + 1, ?_⟩, hprices⟩
  refine returns_bind.mpr ⟨⟨⟩, returns_lift.mpr (guardErr_eq_ok.mpr (by omega)), ?_⟩
  exact returns_bind.mpr ⟨batch', hrun, returns_pure.mpr hresponses⟩

theorem foldlM_priceEntry_priced {fuel : Nat} {getPrices : List AssetInfo → Option Queried →
      Option Decimal → Fueled StdError (List PriceResponse)}
    (entry : ∀ asset (batch batch' : Batch), QuotesNoVaultToken s.assets query.basket asset.toText →
      batch.Sound deps s query →
      (priceEntry deps s query fuel getPrices batch asset).Returns batch' →
      ∃ price, batch.Answered deps s query batch' price ∧ EntryPriced deps s query asset price) :
    ∀ (assetInfos : List AssetInfo) (batch batch' : Batch),
      (∀ asset ∈ assetInfos, QuotesNoVaultToken s.assets query.basket asset.toText) →
      batch.Sound deps s query →
      (assetInfos.foldlM (priceEntry deps s query fuel getPrices) batch).Returns batch' →
      ∃ responses, batch'.priceResponses = batch.priceResponses ++ responses ∧
        List.Forall₂ (EntryPriced deps s query) assetInfos
          (responses.map (·.toPriceResponse)) := by
  intro assetInfos
  induction assetInfos with
  | nil =>
    intro batch batch' _ _ done
    rw [List.foldlM_nil, returns_pure] at done
    subst done
    exact ⟨[], (List.append_nil _).symm, .nil⟩
  | cons asset rest ih =>
    intro batch batch' quotes sound done
    rw [List.foldlM_cons, returns_bind] at done
    obtain ⟨mid, hfirst, hrest⟩ := done
    obtain ⟨price, ⟨hsound, response, hresponse, rfl⟩, hpriced⟩ :=
      entry asset batch mid (quotes asset List.mem_cons_self) sound hfirst
    obtain ⟨responses, hresponses, hall⟩ := ih mid batch'
      (fun other mem => quotes other (List.mem_cons_of_mem asset mem)) hsound hrest
    refine ⟨response :: responses, ?_, .cons hpriced hall⟩
    rw [hresponses, hresponse, List.append_assoc, List.singleton_append]

/-! ## Entries -/

theorem shareValue_congr {amounts : List Coin} {response response' : PriceResponse}
    (same : response.toPriceResponse = response'.toPriceResponse) (info : AssetInfo) :
    shareValue amounts response info = shareValue amounts response' info := by
  rw [shareValue, shareValue, same]

theorem shareValues_congr {amounts : List Coin} :
    ∀ {responses responses' : List PriceResponse} (infos : List LPAssetInfo),
      responses.map (·.toPriceResponse) = responses'.map (·.toPriceResponse) →
      ((responses.zip infos).mapM fun entry => shareValue amounts entry.1 entry.2.info) =
        (responses'.zip infos).mapM fun entry => shareValue amounts entry.1 entry.2.info := by
  intro responses
  induction responses with
  | nil =>
    intro responses' infos same
    rw [List.map_nil, eq_comm, List.map_eq_nil_iff] at same
    rw [same]
  | cons response rest ih =>
    intro responses' infos same
    cases responses' with
    | nil => cases same
    | cons response' rest' =>
      rw [List.map_cons, List.map_cons, List.cons.injEq] at same
      cases infos with
      | nil => rfl
      | cons info infos =>
        rw [List.zip_cons_cons, List.zip_cons_cons, List.mapM_cons, List.mapM_cons,
          shareValue_congr same.1, ih infos same.2]

theorem lpSharePrice_congr {poolInfo : PoolInfo} {responses responses' : List PriceResponse}
    {price : PriceResponse}
    (same : responses.map (·.toPriceResponse) = responses'.map (·.toPriceResponse))
    (done : lpSharePrice deps s.config poolInfo responses = .ok price) :
    ∃ price', lpSharePrice deps s.config poolInfo responses' = .ok price' ∧
      price'.toPriceResponse = price.toPriceResponse := by
  simp only [lpSharePrice, bind_eq_ok, pure_eq_ok] at done ⊢
  obtain ⟨proxy, hproxy, pool, hpool, amounts, hamounts, values, hvalues, total, htotal, rfl⟩ :=
    done
  rw [shareValues_congr _ same] at hvalues
  exact ⟨_, ⟨proxy, hproxy, pool, hpool, amounts, hamounts, values, hvalues, total, htotal,
    rfl⟩, rfl⟩

theorem vaultTokenPrice_congr {vaultInfo : VaultTokenInfo} {decimals : Nat}
    {underlying underlying' price : PriceResponse}
    (same : underlying.toPriceResponse = underlying'.toPriceResponse)
    (done : vaultTokenPrice deps vaultInfo decimals underlying = .ok price) :
    ∃ price', vaultTokenPrice deps vaultInfo decimals underlying' = .ok price' ∧
      price'.toPriceResponse = price.toPriceResponse := by
  simp only [vaultTokenPrice, bind_eq_ok, pure_eq_ok, same] at done ⊢
  obtain ⟨_, hfits, amount, hamount, value, hvalue, rfl⟩ := done
  exact ⟨_, ⟨_, hfits, amount, hamount, value, hvalue, rfl⟩, rfl⟩

theorem PricedAlone.handed (asset : AssetInfo) {price : Membrane.PriceResponse} {queried : Queried}
    {osmoQuotePrice : Option Decimal} (alone : PricedAlone deps s query asset.toText price)
    (handed : HandedOn deps s query queried osmoQuotePrice)
    (quotes : QuotesNoVaultToken s.assets query.basket asset.toText) :
    ∃ fuel response quotePrice, (getAssetPrice deps s query fuel asset (some queried)
        osmoQuotePrice).Returns (response, quotePrice) ∧ response.toPriceResponse = price ∧
      OsmoFound deps s query quotePrice := by
  obtain ⟨response, osmo, ⟨n, hrun⟩, rfl⟩ := alone
  dsimp only at hrun
  rw [getAssetPrice_native] at hrun
  obtain ⟨⟨response', quotePrice⟩, ⟨m, hrun'⟩, hsame⟩ :=
    getAssetPrice_handed n asset queried osmoQuotePrice _ handed quotes hrun
  have hosmo := (getAssetPrice_alone m asset queried osmoQuotePrice _ handed quotes hrun').2
  exact ⟨m, response', quotePrice, hrun', hsame, hosmo⟩

section

variable {fuel : Nat} {asset : AssetInfo} {batch batch' : Batch} {oracles : List AssetOracleInfo}
  {first : AssetOracleInfo} {getPrices : List AssetInfo → Option Queried → Option Decimal →
    Fueled StdError (List PriceResponse)}

theorem poolEntry_priced {poolInfo : PoolInfo}
    (loaded : loadAsset s.assets asset.toText = .ok oracles)
    (head : (Outcome.index oracles 0 : Outcome StdError AssetOracleInfo) = .ok first)
    (pool : first.lpPoolInfo = some poolInfo) (sound : batch.Sound deps s query)
    (priced : ∀ responses,
      (getPrices (poolInfo.assetInfos.map (·.info)) (some batch.pricePropagations)
        batch.osmoQuotePrice).Returns responses →
      poolInfo.assetInfos.length ≤ 50 ∧ List.Forall₂ (EntryPriced deps s query)
        (poolInfo.assetInfos.map (·.info)) (responses.map (·.toPriceResponse)))
    (done : (priceEntry deps s query fuel getPrices batch asset).Returns batch') :
    ∃ price, batch.Answered deps s query batch' price ∧ EntryPriced deps s query asset price := by
  rw [priceEntry_pool loaded head pool] at done
  obtain ⟨price, hprice, hbatch⟩ := returns_bind.mp done
  obtain rfl := returns_pure.mp hbatch
  obtain ⟨responses, hresponses, hshare⟩ := returns_bind.mp hprice
  refine ⟨_, batch.respond_answered sound, fun other hother => ?_⟩
  obtain ⟨hlength, hall⟩ := priced responses hresponses
  obtain ⟨responses', ⟨n, hrun⟩, hsame⟩ := getAssetPrices_of_priced
    (some other.pricePropagations) other.osmoQuotePrice (by rwa [List.length_map]) hother hall
  obtain ⟨price', hshare', hprice'⟩ := lpSharePrice_congr hsame.symm (returns_lift.mp hshare)
  refine ⟨_, ⟨n, ?_⟩, hprice' ▸ other.respond_answered hother⟩
  dsimp only
  rw [priceEntry_pool loaded head pool]
  refine returns_bind.mpr ⟨price', returns_bind.mpr ⟨responses', hrun, ?_⟩, returns_pure.mpr rfl⟩
  exact returns_lift.mpr hshare'

theorem vaultEntry_priced {vaultInfo : VaultTokenInfo}
    (loaded : loadAsset s.assets asset.toText = .ok oracles)
    (head : (Outcome.index oracles 0 : Outcome StdError AssetOracleInfo) = .ok first)
    (pool : first.lpPoolInfo = none) (vault : first.vaultInfo = some vaultInfo)
    (quotes : QuotesNoVaultToken s.assets query.basket vaultInfo.underlyingToken)
    (isVault : IsVaultToken s.assets asset.toText) (sound : batch.Sound deps s query)
    (done : (priceEntry deps s query fuel getPrices batch asset).Returns batch') :
    ∃ price, batch.Answered deps s query batch' price ∧ EntryPriced deps s query asset price := by
  rw [priceEntry_vault loaded head pool vault] at done
  obtain ⟨⟨price, quotePrice⟩, hprice, hbatch⟩ := returns_bind.mp done
  obtain rfl := returns_pure.mp hbatch
  obtain ⟨⟨underlying, osmo⟩, hunderlying, hrest⟩ := returns_bind.mp hprice
  obtain ⟨value, hvalue, hpair⟩ := returns_bind.mp hrest
  obtain ⟨rfl, rfl⟩ := Prod.mk.inj (returns_pure.mp hpair)
  obtain ⟨halone, hosmo⟩ := getAssetPrice_alone fuel (.nativeToken vaultInfo.underlyingToken) _ _ _
    sound quotes hunderlying
  refine ⟨_, Batch.propagate_answered sound hosmo fun hplain => absurd isVault hplain,
    fun other hother => ?_⟩
  obtain ⟨n, underlying', osmo', hrun, hsame, hosmo'⟩ :=
    PricedAlone.handed (.nativeToken vaultInfo.underlyingToken) halone hother quotes
  obtain ⟨value', hvalue', hprice'⟩ := vaultTokenPrice_congr hsame.symm (returns_lift.mp hvalue)
  refine ⟨_, ⟨n, ?_⟩, hprice' ▸ Batch.propagate_answered hother hosmo'
    fun hplain => absurd isVault hplain⟩
  dsimp only
  rw [priceEntry_vault loaded head pool vault]
  refine returns_bind.mpr ⟨(value', osmo'), returns_bind.mpr ⟨_, hrun, ?_⟩, returns_pure.mpr rfl⟩
  exact returns_bind.mpr ⟨value', returns_lift.mpr hvalue', returns_pure.mpr rfl⟩

theorem entryPriced_of_alone {price : Membrane.PriceResponse}
    (loaded : loadAsset s.assets asset.toText = .ok oracles)
    (head : (Outcome.index oracles 0 : Outcome StdError AssetOracleInfo) = .ok first)
    (pool : first.lpPoolInfo = none) (vault : first.vaultInfo = none)
    (quotes : QuotesNoVaultToken s.assets query.basket asset.toText)
    (plain : ¬ IsVaultToken s.assets asset.toText)
    (alone : PricedAlone deps s query asset.toText price) :
    EntryPriced deps s query asset price := by
  intro other hother
  cases hfound : other.pricePropagations.price asset.toText with
  | some response =>
    have hsame := (hother.prices _ response hfound plain).unique alone
    refine ⟨_, ⟨0, ?_⟩, hsame ▸ other.respond_answered hother⟩
    dsimp only
    rw [priceEntry_found loaded head pool vault hfound]
    exact returns_pure.mpr rfl
  | none =>
    obtain ⟨n, response, quotePrice, hrun, rfl, hosmo⟩ :=
      PricedAlone.handed asset alone hother quotes
    refine ⟨_, ⟨n, ?_⟩, Batch.propagate_answered hother hosmo fun _ => alone⟩
    dsimp only
    rw [priceEntry_anew loaded head pool vault hfound]
    exact returns_bind.mpr ⟨_, hrun, returns_pure.mpr rfl⟩

theorem plainEntry_priced (loaded : loadAsset s.assets asset.toText = .ok oracles)
    (head : (Outcome.index oracles 0 : Outcome StdError AssetOracleInfo) = .ok first)
    (pool : first.lpPoolInfo = none) (vault : first.vaultInfo = none)
    (quotes : QuotesNoVaultToken s.assets query.basket asset.toText)
    (plain : ¬ IsVaultToken s.assets asset.toText) (sound : batch.Sound deps s query)
    (done : (priceEntry deps s query fuel getPrices batch asset).Returns batch') :
    ∃ price, batch.Answered deps s query batch' price ∧ EntryPriced deps s query asset price := by
  cases hfound : batch.pricePropagations.price asset.toText with
  | some response =>
    rw [priceEntry_found loaded head pool vault hfound] at done
    obtain rfl := returns_pure.mp done
    refine ⟨_, batch.respond_answered sound, ?_⟩
    exact entryPriced_of_alone loaded head pool vault quotes plain
      (sound.prices _ response hfound plain)
  | none =>
    rw [priceEntry_anew loaded head pool vault hfound] at done
    obtain ⟨⟨response, quotePrice⟩, hrun, hbatch⟩ := returns_bind.mp done
    obtain rfl := returns_pure.mp hbatch
    obtain ⟨halone, hosmo⟩ := getAssetPrice_alone fuel asset _ _ _ sound quotes hrun
    refine ⟨_, Batch.propagate_answered sound hosmo fun _ => halone, ?_⟩
    exact entryPriced_of_alone loaded head pool vault quotes plain halone

theorem priceEntry_priced (quotes : QuotesNoVaultToken s.assets query.basket asset.toText)
    (sound : batch.Sound deps s query)
    (pools : ∀ assetInfos queried osmoQuotePrice responses,
      (∀ info ∈ assetInfos, QuotesNoVaultToken s.assets query.basket info.toText) →
      HandedOn deps s query queried osmoQuotePrice →
      (getPrices assetInfos (some queried) osmoQuotePrice).Returns responses →
      assetInfos.length ≤ 50 ∧ List.Forall₂ (EntryPriced deps s query) assetInfos
        (responses.map (·.toPriceResponse)))
    (done : (priceEntry deps s query fuel getPrices batch asset).Returns batch') :
    ∃ price, batch.Answered deps s query batch' price ∧ EntryPriced deps s query asset price := by
  obtain ⟨oracles, hloaded, hrest⟩ := returns_bind.mp done
  obtain ⟨first, hfirst, -⟩ := returns_bind.mp hrest
  rw [returns_lift] at hloaded hfirst
  have hparts := partsOf_eq hloaded hfirst
  have hhead : (s.assets.lookup asset.toText).bind List.head? = some first := by
    rw [loadAsset, ofOption_eq_ok] at hloaded
    rw [hloaded, Option.bind_some, List.head?_eq_getElem?]
    exact index_eq_ok.mp hfirst
  cases hpool : first.lpPoolInfo with
  | some poolInfo =>
    refine poolEntry_priced hloaded hfirst hpool sound (fun responses hresponses => ?_) done
    have hlist := pools _ _ _ responses (fun info mem => ?_) sound hresponses
    · rwa [List.length_map] at hlist
    · refine quotes.asks (.inr ?_)
      rw [hparts, AssetOracleInfo.parts, hpool]
      obtain ⟨lp, hlp, rfl⟩ := List.mem_map.mp mem
      exact List.mem_map_of_mem hlp
  | none =>
    cases hvault : first.vaultInfo with
    | some vaultInfo =>
      refine vaultEntry_priced hloaded hfirst hpool hvault (quotes.asks (.inr ?_))
        ⟨first, hhead, hpool, by rw [hvault]; rfl⟩ sound done
      simp only [hparts, AssetOracleInfo.parts, hpool, hvault, Option.toList_some,
        List.map_cons, List.map_nil, List.mem_singleton]
    | none =>
      refine plainEntry_priced hloaded hfirst hpool hvault quotes ?_ sound done
      rintro ⟨first', hfirst', -, hsome⟩
      obtain rfl := Option.some.inj (hhead.symm.trans hfirst')
      rw [hvault] at hsome
      cases hsome

end

theorem getAssetPrices_priced :
    ∀ (fuel : Nat) (assetInfos : List AssetInfo) (queried : Option Queried)
      (osmoQuotePrice : Option Decimal) (responses : List PriceResponse),
      (∀ asset ∈ assetInfos, QuotesNoVaultToken s.assets query.basket asset.toText) →
      HandedOn deps s query (queried.getD []) osmoQuotePrice →
      (getAssetPrices deps s query fuel assetInfos queried osmoQuotePrice).Returns responses →
      assetInfos.length ≤ 50 ∧ List.Forall₂ (EntryPriced deps s query) assetInfos
        (responses.map (·.toPriceResponse)) := by
  intro fuel
  induction fuel with
  | zero =>
    intro assetInfos queried osmoQuotePrice responses _ _ done
    cases done
  | succ fuel ih =>
    intro assetInfos queried osmoQuotePrice responses quotes handed done
    obtain ⟨_, hlength, done⟩ := returns_bind.mp done
    obtain ⟨batch', hrun, hresponses⟩ := returns_bind.mp done
    obtain rfl := returns_pure.mp hresponses
    have hlength := guardErr_eq_ok.mp (returns_lift.mp hlength)
    obtain ⟨responses, hresponses, hall⟩ := foldlM_priceEntry_priced
      (fun asset batch batch' hquotes hsound hentry => priceEntry_priced hquotes hsound
        (fun infos queried osmo responses => ih infos (some queried) osmo responses) hentry)
      assetInfos ⟨[], queried.getD [], osmoQuotePrice⟩ batch' quotes handed hrun
    rw [List.nil_append] at hresponses
    rw [hresponses]
    exact ⟨by omega, hall⟩

variable (query) in
theorem queryPrice_iff {asset : AssetInfo} {price : Membrane.PriceResponse}
    (quotes : QuotesNoVaultToken s.assets query.basket asset.toText) :
    (∃ response, Converges (queryPrice deps s query asset) [response] ∧
      response.toPriceResponse = price) ↔ EntryPriced deps s query asset price := by
  constructor
  · rintro ⟨response, ⟨n, hrun⟩, rfl⟩
    have hall := (getAssetPrices_priced n [asset] none none _
      (List.forall_mem_singleton.mpr quotes) .nothing hrun).2
    cases hall with
    | cons hfirst _ => exact hfirst
  · intro priced
    have hlength : [asset].length ≤ 50 := by simp
    obtain ⟨responses, hrun, hsame⟩ :=
      getAssetPrices_of_priced none none hlength .nothing (.cons priced .nil)
    obtain ⟨response, rfl, rfl⟩ := List.map_eq_singleton_iff.mp hsame
    exact ⟨response, hrun, rfl⟩

end

/-- A batch is answered exactly when each of its assets is alone and there are at most 50, and
    then each entry has the price and the decimals that the query for its asset alone finds. -/
theorem batch_prices {deps : Deps} {s : State} (query : Query) {assetInfos : List AssetInfo}
    (quotes : ∀ asset ∈ assetInfos, QuotesNoVaultToken s.assets 1 asset.toText)
    (prices : List Membrane.PriceResponse) :
    (∃ responses, Converges (queryPrices deps s query assetInfos) responses ∧
        responses.map (·.toPriceResponse) = prices) ↔
      assetInfos.length ≤ 50 ∧ List.Forall₂ (fun asset price => ∃ response,
        Converges (queryPrice deps s { query with basketId := none } asset) [response] ∧
          response.toPriceResponse = price) assetInfos prices := by
  let alone : Query := { query with basketId := none }
  have hentries : List.Forall₂ (fun asset price => ∃ response,
      Converges (queryPrice deps s alone asset) [response] ∧
        response.toPriceResponse = price) assetInfos prices ↔
      List.Forall₂ (EntryPriced deps s alone) assetInfos prices := by
    constructor
    · intro hall
      refine ((List.forall₂_and_left _ _).mpr ⟨quotes, hall⟩).imp fun asset price h => ?_
      exact (queryPrice_iff alone h.1).mp h.2
    · intro hall
      refine ((List.forall₂_and_left _ _).mpr ⟨quotes, hall⟩).imp fun asset price h => ?_
      exact (queryPrice_iff alone h.1).mpr h.2
  rw [hentries]
  constructor
  · rintro ⟨responses, ⟨n, hrun⟩, rfl⟩
    exact getAssetPrices_priced n assetInfos none none responses quotes .nothing hrun
  · rintro ⟨hlength, hall⟩
    exact getAssetPrices_of_priced none none hlength .nothing hall

/-! ## Examples -/

instance isVaultTokenDecidable (assets : Assets) (asset : String) :
    Decidable (IsVaultToken assets asset) :=
  decidable_of_iff (∃ first ∈ ((assets.lookup asset).bind List.head?).toList,
      first.lpPoolInfo = none ∧ first.vaultInfo.isSome)
    (by simp only [IsVaultToken, Option.mem_toList])

theorem quotesNoVaultToken_of_stored {assets : Assets}
    (stored : ∀ entry ∈ assets.entries, ∀ oracleInfo ∈ entry.2,
      ∀ denom ∈ oracleInfo.quotedIn.toList, ¬ IsVaultToken assets denom)
    (basketId : Nat) (asset : String) : QuotesNoVaultToken assets basketId asset := by
  intro other _ denom hquote
  obtain ⟨oracles, hstored⟩ := Option.isSome_iff_exists.mp
    (AList.lookup_isSome.mpr (asks_stored (.inl hquote)))
  rw [quoteOf, hstored, Option.bind_some] at hquote
  obtain ⟨oracleInfo, hfound, hquoted⟩ := Option.bind_eq_some_iff.mp hquote
  exact stored ⟨other, oracles⟩ (AList.mem_lookup_iff.mp hstored) oracleInfo
    (List.mem_of_find?_eq_some hfound) denom (Option.mem_toList.mpr hquoted)

/-- OSMO is at half a dollar, and every TWAP is two. -/
def pricedDeps : Deps :=
  { sampleDeps with
    priceFeed := fun _ _ => .ok fun _ _ => some ⟨5, -1⟩
    geometricTwapToNow := fun _ _ => .ok (.percent 200) }

/-- OSMO, a vault token for it that is also traded, and an asset that is quoted in the vault
    token. -/
def vaultCalls : List Call :=
  [sampleAdd "uosmo" (sampleOracle "uosmo" []),
    sampleAdd "vault" { sampleOracle "vault" ["uosmo"] with vaultInfo := some ⟨"vault", "uosmo"⟩ },
    sampleAdd "uatom" (sampleOracle "uatom" ["vault"])]

def sampleQuery : Query := ⟨0, 0, 0, none⟩

theorem batch_prices_chain :
    ∃ s₀ s, configured (fun _ _ => True) sampleCalls = some (s₀, s) ∧
      List.Forall₂ (fun asset price => ∃ response,
        Converges (queryPrice pricedDeps s sampleQuery asset) [response] ∧
          response.toPriceResponse = price)
        [.nativeToken "stuatom", .nativeToken "uatom", .nativeToken "uosmo"]
        [⟨.percent 200, 6⟩, ⟨.percent 100, 6⟩, ⟨.percent 50, 6⟩] := by
  have hreads : (configured (fun _ _ => True) sampleCalls).any (fun run => decide (
      (∀ entry ∈ run.2.assets.entries, ∀ oracleInfo ∈ entry.2,
        ∀ denom ∈ oracleInfo.quotedIn.toList, ¬ IsVaultToken run.2.assets denom) ∧
      (queryPrices pricedDeps run.2 sampleQuery
        [.nativeToken "stuatom", .nativeToken "uatom", .nativeToken "uosmo"] 5).value.map
          (fun responses => responses.map (·.toPriceResponse)) =
        some [⟨.percent 200, 6⟩, ⟨.percent 100, 6⟩, ⟨.percent 50, 6⟩])) = true := by
    decide +kernel
  obtain ⟨⟨s₀, s⟩, hrun, hreads⟩ := (Option.any_eq_true _ _).mp hreads
  obtain ⟨hvaults, hprices⟩ := of_decide_eq_true hreads
  obtain ⟨responses, hresponses, hprices⟩ := Option.map_eq_some_iff.mp hprices
  refine ⟨s₀, s, hrun, ((batch_prices sampleQuery (fun asset _ => ?_) _).mp
    ⟨responses, ⟨5, value_eq_some.mp hresponses⟩, hprices⟩).2⟩
  exact quotesNoVaultToken_of_stored hvaults 1 asset.toText

def vaultResponse : PriceResponse :=
  ⟨⟨.percent 50, 6⟩, [⟨"osmosis", .one⟩, ⟨"pyth", .percent 50⟩, ⟨"vault_contract", .percent 50⟩]⟩

/-- An entry of a batch that was handed the price of OSMO does not name its source; and an
    asset that is quoted in a vault token has another price in a batch that has priced the
    vault token before. -/
theorem batch_not_single :
    (¬ ∀ s₀ s : State, configured (fun _ _ => True) vaultCalls = some (s₀, s) →
      ∀ assetInfos responses,
        Converges (queryPrices pricedDeps s sampleQuery assetInfos) responses →
        List.Forall₂ (fun asset response =>
          Converges (queryPrice pricedDeps s sampleQuery asset) [response]) assetInfos responses) ∧
    ¬ ∀ s₀ s : State, configured (fun _ _ => True) vaultCalls = some (s₀, s) →
      ∀ assetInfos responses,
        Converges (queryPrices pricedDeps s sampleQuery assetInfos) responses →
        List.Forall₂ (fun asset response => ∃ alone,
          Converges (queryPrice pricedDeps s sampleQuery asset) [alone] ∧
            alone.toPriceResponse = response.toPriceResponse) assetInfos responses := by
  have hreads : (configured (fun _ _ => True) vaultCalls).any (fun run => decide (
      ((queryPrices pricedDeps run.2 sampleQuery [.nativeToken "vault", .nativeToken "uosmo"]
          5).value = some [vaultResponse, ⟨⟨.percent 50, 6⟩, [⟨"osmosis", .one⟩]⟩] ∧
        (queryPrice pricedDeps run.2 sampleQuery (.nativeToken "uosmo") 5).value =
          some [⟨⟨.percent 50, 6⟩, [⟨"osmosis", .one⟩, ⟨"pyth", .percent 50⟩]⟩]) ∧
      (queryPrices pricedDeps run.2 sampleQuery [.nativeToken "vault", .nativeToken "uatom"]
          5).value = some [vaultResponse, ⟨⟨.percent 100, 6⟩, [⟨"osmosis", .percent 200⟩,
            ⟨"osmosis, pyth, vault_contract, ", .percent 50⟩]⟩] ∧
        (queryPrice pricedDeps run.2 sampleQuery (.nativeToken "uatom") 5).value =
          some [⟨⟨.percent 200, 6⟩, [⟨"osmosis", .percent 200⟩,
            ⟨"osmosis, pyth, ", .percent 100⟩]⟩])) = true := by
    decide +kernel
  obtain ⟨⟨s₀, s⟩, hrun, hreads⟩ := (Option.any_eq_true _ _).mp hreads
  obtain ⟨⟨hbatch, halone⟩, hbatch', halone'⟩ := of_decide_eq_true hreads
  rw [value_eq_some] at hbatch halone hbatch' halone'
  constructor
  · intro claim
    cases claim s₀ s hrun _ _ ⟨5, hbatch⟩ with
    | cons _ hrest =>
      cases hrest with
      | cons hsecond _ =>
        have hsame := (getAssetPrices_stable _ _ _).unique hsecond ⟨5, halone⟩
        exact absurd hsame (by decide)
  · intro claim
    cases claim s₀ s hrun _ _ ⟨5, hbatch'⟩ with
    | cons _ hrest =>
      cases hrest with
      | cons hsecond _ =>
        obtain ⟨alone, hconverges, hprice⟩ := hsecond
        have hsame := (getAssetPrices_stable _ _ _).unique hconverges ⟨5, halone'⟩
        obtain rfl := List.singleton_inj.mp hsame
        exact absurd hprice (by decide)

end Membrane.Oracle
