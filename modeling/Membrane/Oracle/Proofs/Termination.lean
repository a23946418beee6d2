import Membrane.Lib.Acyclic
import Membrane.Oracle.Contract

/-!
# The price queries end

Pricing an asset may ask for the prices of others: of the quote its TWAP route ends in, of
the assets of its pool, of the underlying token of its vault. As long as no asset asks for
itself, directly or through others, every query ends. The handlers do not look at this: an
asset that is quoted in itself can be added, and then no query for it ends. It is kept by
calls that do not make the asset they add or edit ask for itself.
-/

namespace Membrane.Oracle

open Outcome Fueled

/-! ## What an asset asks for -/

def quoteOf (assets : Assets) (basketId : Nat) (asset : String) : Option String :=
  ((assets.lookup asset).bind fun oracles =>
    oracles.find? fun oracle => oracle.basketId == basketId).bind (·.quotedIn)

/-- What an oracle says an asset is made of: the assets of its pool, or the underlying token
    of its vault. -/
def AssetOracleInfo.parts (oracleInfo : AssetOracleInfo) : List String :=
  match oracleInfo.lpPoolInfo with
  | some poolInfo => poolInfo.assetInfos.map (·.info.toText)
  | none => oracleInfo.vaultInfo.toList.map (·.underlyingToken)

def partsOf (assets : Assets) (asset : String) : List String :=
  match (assets.lookup asset).bind List.head? with
  | some first => first.parts
  | none => []

def Asks (assets : Assets) (basketId : Nat) (asset other : String) : Prop :=
  quoteOf assets basketId asset = some other ∨ other ∈ partsOf assets asset

theorem asks_congr {assets assets' : Assets} {basketId : Nat} {asset other : String}
    (same : assets'.lookup asset = assets.lookup asset) :
    Asks assets' basketId asset other ↔ Asks assets basketId asset other := by
  unfold Asks quoteOf partsOf
  rw [same]

theorem asks_stored {assets : Assets} {basketId : Nat} {asset other : String}
    (asks : Asks assets basketId asset other) : asset ∈ assets.entries.map Sigma.fst := by
  have hsome : (assets.lookup asset).isSome := by
    cases hlookup : assets.lookup asset with
    | some oracles => rfl
    | none =>
      rw [Asks, quoteOf, partsOf, hlookup] at asks
      rcases asks with asks | asks
      · cases asks
      · cases asks
  exact AList.lookup_isSome.mp hsome

theorem quoteOf_eq {assets : Assets} {basketId : Nat} {asset : String}
    {oracleInfo : AssetOracleInfo} (loaded : oracleInfoFor assets basketId asset = .ok oracleInfo) :
    quoteOf assets basketId asset = oracleInfo.quotedIn := by
  simp only [oracleInfoFor, loadAsset, bind_eq_ok, ofOption_eq_ok] at loaded
  obtain ⟨oracles, hstored, hfound⟩ := loaded
  rw [quoteOf, hstored, Option.bind_some, hfound, Option.bind_some]

theorem partsOf_eq {assets : Assets} {asset : String} {oracles : List AssetOracleInfo}
    {first : AssetOracleInfo} (loaded : loadAsset assets asset = .ok oracles)
    (head : (Outcome.index oracles 0 : Outcome StdError AssetOracleInfo) = .ok first) :
    partsOf assets asset = first.parts := by
  rw [loadAsset, ofOption_eq_ok] at loaded
  rw [index_eq_ok, ← List.head?_eq_getElem?] at head
  rw [partsOf, loaded, Option.bind_some, head]

/-! ## Queries that end -/

section

variable {deps : Deps} {s : State} {query : Query}

theorem getAssetPrice_finished {fuel : Nat} {asset : AssetInfo} {queried : Option Queried}
    {osmoQuotePrice : Option Decimal}
    (quote : ∀ denom, quoteOf s.assets query.basket asset.toText = some denom →
      Finished (getAssetPrice deps s query fuel (.nativeToken denom) queried osmoQuotePrice)) :
    Finished (getAssetPrice deps s query (fuel + 1) asset queried osmoQuotePrice) := by
  rw [getAssetPrice]
  refine finished_bind (finished_lift _) fun oracleInfo hinfo => ?_
  rw [quoteOf_eq (returns_lift.mp hinfo)] at quote
  refine finished_bind (finished_lift _) fun start _ => ?_
  refine finished_bind (finished_lift _) fun pyth _ => ?_
  dsimp only
  split
  · exact finished_pure _
  · refine finished_bind (finished_lift _) fun priceInOsmo _ => ?_
    split
    · split
      · exact finished_bind (finished_lift _) fun _ _ => finished_pure _
      · refine finished_bind (finished_mapErr (quote _ ‹_›)) fun _ _ => ?_
        exact finished_bind (finished_lift _) fun _ _ => finished_pure _
    · exact finished_lift _

variable (deps) in
theorem getAssetPrice_terminates (acyclic : Acyclic (Asks s.assets query.basket)) (asset : String) :
    ∃ n, ∀ m, n ≤ m → ∀ info : AssetInfo, info.toText = asset → ∀ queried osmoQuotePrice,
      Finished (getAssetPrice deps s query m info queried osmoQuotePrice) := by
  induction asset using (acyclic.wellFounded fun _ _ => asks_stored).induction with
  | _ asset ih =>
    have hquote : ∃ n, ∀ denom ∈ (quoteOf s.assets query.basket asset).toList, ∀ m, n ≤ m →
        ∀ info : AssetInfo, info.toText = denom → ∀ queried osmoQuotePrice,
          Finished (getAssetPrice deps s query m info queried osmoQuotePrice) :=
      enough_for_all _ fun denom mem => ih denom (.inl (Option.mem_toList.mp mem))
    obtain ⟨n, hquote⟩ := hquote
    refine ⟨n + 1, fun m le info htext queried osmoQuotePrice => ?_⟩
    obtain ⟨fuel, rfl⟩ : ∃ fuel, m = fuel + 1 := ⟨m - 1, by omega⟩
    subst htext
    apply getAssetPrice_finished
    intro denom hdenom
    exact hquote denom (Option.mem_toList.mpr hdenom) fuel (by omega) _ rfl _ _

theorem getAssetPrices_finished {fuel : Nat} {assetInfos : List AssetInfo}
    {queried : Option Queried} {osmoQuotePrice : Option Decimal}
    (each : ∀ info ∈ assetInfos, ∀ batch,
      Finished (priceEntry deps s query fuel (getAssetPrices deps s query fuel) batch info)) :
    Finished (getAssetPrices deps s query (fuel + 1) assetInfos queried osmoQuotePrice) := by
  rw [getAssetPrices]
  refine finished_bind (finished_lift _) fun _ _ => ?_
  exact finished_bind (finished_foldlM assetInfos _ each) fun _ _ => finished_pure _

theorem priceEntry_finished {fuel : Nat} {asset : AssetInfo} {batch : Batch}
    {getPrices : List AssetInfo → Option Queried → Option Decimal →
      Fueled StdError (List PriceResponse)}
    (alone : ∀ queried osmoQuotePrice,
      Finished (getAssetPrice deps s query fuel asset queried osmoQuotePrice))
    (underlying : ∀ denom ∈ partsOf s.assets asset.toText, ∀ queried osmoQuotePrice,
      Finished (getAssetPrice deps s query fuel (.nativeToken denom) queried osmoQuotePrice))
    (pool : ∀ assetInfos : List AssetInfo,
      (∀ info ∈ assetInfos, info.toText ∈ partsOf s.assets asset.toText) →
        ∀ queried osmoQuotePrice, Finished (getPrices assetInfos queried osmoQuotePrice)) :
    Finished (priceEntry deps s query fuel getPrices batch asset) := by
  rw [priceEntry]
  refine finished_bind (finished_lift _) fun oracles hloaded => ?_
  refine finished_bind (finished_lift _) fun first hfirst => ?_
  rw [partsOf_eq (returns_lift.mp hloaded) (returns_lift.mp hfirst)] at underlying pool
  split
  case h_1 poolInfo hpool =>
    have hparts : ∀ info ∈ poolInfo.assetInfos.map (·.info), info.toText ∈ first.parts := by
      intro info mem
      obtain ⟨asset', hasset, rfl⟩ := List.mem_map.mp mem
      rw [AssetOracleInfo.parts, hpool]
      exact List.mem_map_of_mem hasset
    refine finished_bind (finished_bind (pool _ hparts _ _) fun _ _ => finished_lift _) ?_
    intro _ _
    exact finished_pure _
  case h_2 hpool =>
    split
    case h_1 vaultInfo hvault =>
      have hpart : vaultInfo.underlyingToken ∈ first.parts := by
        simp only [AssetOracleInfo.parts, hpool, hvault, Option.toList_some, List.map_cons,
          List.map_nil, List.mem_singleton]
      refine finished_bind (finished_bind (underlying _ hpart _ _) fun _ _ => ?_) ?_
      · exact finished_bind (finished_lift _) fun _ _ => finished_pure _
      · intro _ _
        exact finished_pure _
    case h_2 =>
      split
      · exact finished_pure _
      · exact finished_bind (alone _ _) fun _ _ => finished_pure _

variable (deps) in
theorem priceEntry_terminates (acyclic : Acyclic (Asks s.assets query.basket)) (asset : String) :
    ∃ n, ∀ m, n ≤ m → ∀ info : AssetInfo, info.toText = asset → ∀ batch,
      Finished (priceEntry deps s query m (getAssetPrices deps s query m) batch info) := by
  induction asset using (acyclic.wellFounded fun _ _ => asks_stored).induction with
  | _ asset ih =>
    obtain ⟨alone, halone⟩ := getAssetPrice_terminates deps acyclic asset
    obtain ⟨parts, hparts⟩ := enough_for_all (partsOf s.assets asset)
      fun denom _ => getAssetPrice_terminates deps acyclic denom
    obtain ⟨entries, hentries⟩ := enough_for_all (partsOf s.assets asset)
      fun denom mem => ih denom (.inr mem)
    refine ⟨max alone (max parts (entries + 1)), fun m le info htext batch => ?_⟩
    obtain ⟨fuel, rfl⟩ : ∃ fuel, m = fuel + 1 := ⟨m - 1, by omega⟩
    subst htext
    apply priceEntry_finished
    · exact halone _ (by omega) info rfl
    · intro denom mem
      exact hparts denom mem _ (by omega) _ rfl
    · intro assetInfos hinfos queried osmoQuotePrice
      apply getAssetPrices_finished
      intro info' mem batch'
      exact hentries _ (hinfos info' mem) fuel (by omega) info' rfl batch'

theorem getAssetPrices_terminates (acyclic : Acyclic (Asks s.assets query.basket))
    (assetInfos : List AssetInfo) (queried : Option Queried) (osmoQuotePrice : Option Decimal) :
    Terminates fun fuel => getAssetPrices deps s query fuel assetInfos queried osmoQuotePrice := by
  obtain ⟨n, hentries⟩ := enough_for_all assetInfos fun info _ =>
    priceEntry_terminates deps acyclic info.toText
  refine ⟨n + 1, fun m le => ?_⟩
  obtain ⟨fuel, rfl⟩ : ∃ fuel, m = fuel + 1 := ⟨m - 1, by omega⟩
  apply getAssetPrices_finished
  intro info mem batch
  exact hentries info mem fuel (by omega) info rfl batch

end

/-! ## Calls -/

def Call.editsAsset (call : Call) : Option String :=
  match call.msg with
  | .updateConfig .. => none
  | .addAsset assetInfo _ => some assetInfo.toText
  | .editAsset assetInfo _ _ => some assetInfo.toText

/-- Where the call succeeds, the asset it adds or edits does not ask for itself afterwards,
    directly or through others. -/
def Call.Grounded (s : State) (call : Call) : Prop :=
  ∀ s', Step s call s' → ∀ asset, call.editsAsset = some asset →
    ∀ basketId, ¬ Relation.TransGen (Asks s'.assets basketId) asset asset

section

variable {deps : Deps} {env : Env} {info : MessageInfo} {s s' : State}

theorem addAsset_others {assetInfo : AssetInfo} {oracleInfo : AssetOracleInfo}
    (done : addAsset deps info assetInfo oracleInfo s = .ok s') :
    ∀ asset, asset ≠ assetInfo.toText → s'.assets.lookup asset = s.assets.lookup asset := by
  intro asset other
  have hset : ∃ oracles, s' = { s with assets := s.assets.insert assetInfo.toText oracles } := by
    simp only [addAsset, bind_eq_ok] at done
    obtain ⟨_, -, _, -, hrest⟩ := done
    split at hrest
    · exact ⟨_, (pure_eq_ok.mp hrest).symm⟩
    · obtain ⟨_, -, hrest⟩ := bind_eq_ok.mp hrest
      exact ⟨_, (pure_eq_ok.mp hrest).symm⟩
  obtain ⟨oracles, rfl⟩ := hset
  exact AList.lookup_insert_ne other

theorem editAsset_others {assetInfo : AssetInfo} {oracleInfo : Option AssetOracleInfo}
    {remove : Bool} (done : editAsset deps env info assetInfo oracleInfo remove s = .ok s') :
    ∀ asset, asset ≠ assetInfo.toText → s'.assets.lookup asset = s.assets.lookup asset := by
  intro asset other
  unfold editAsset at done
  obtain ⟨_, -, hrest⟩ := bind_eq_ok.mp done
  split at hrest
  · obtain ⟨_, -, hrest⟩ := bind_eq_ok.mp hrest
    obtain rfl := pure_eq_ok.mp hrest
    exact AList.lookup_erase_ne other
  · split at hrest
    · obtain rfl := pure_eq_ok.mp hrest
      rfl
    · dsimp only at hrest
      split at hrest
      · cases hrest
      · obtain rfl := pure_eq_ok.mp hrest
        exact AList.lookup_insert_ne other

theorem updateConfig_assets {owner positionsContract osmosisProxyContract pythOsmosisAddress
      osmoUsdPythFeedId : Option String} {poolsForUsdParTwap : Option (List TWAPPoolInfo)}
    (done : updateConfig deps info owner positionsContract osmosisProxyContract pythOsmosisAddress
      osmoUsdPythFeedId poolsForUsdParTwap s = .ok s') : s'.assets = s.assets := by
  simp only [updateConfig, bind_eq_ok] at done
  obtain ⟨_, -, _, -, _, -, _, -, _, -, hrest⟩ := done
  obtain rfl := pure_eq_ok.mp hrest
  rfl

theorem step_others {call : Call} (step : Step s call s') (asset : String)
    (other : call.editsAsset ≠ some asset) : s'.assets.lookup asset = s.assets.lookup asset := by
  cases call with
  | mk deps env info msg =>
    cases msg with
    | updateConfig => rw [updateConfig_assets step]
    | addAsset => exact addAsset_others step asset fun h => other (congrArg some h.symm)
    | editAsset => exact editAsset_others step asset fun h => other (congrArg some h.symm)

/-- No asset asks for itself, for any basket. -/
def NoCycle (assets : Assets) : Prop := ∀ basketId, Acyclic (Asks assets basketId)

theorem step_noCycle {call : Call} (start : NoCycle s.assets) (grounded : call.Grounded s)
    (step : Step s call s') : NoCycle s'.assets := by
  intro basketId
  cases hedits : call.editsAsset with
  | none =>
    refine (start basketId).mono fun x y hasks => ?_
    exact (asks_congr (step_others step x (by simp [hedits]))).mp hasks
  | some edited =>
    refine (start basketId).edit (fun x y hne hasks => ?_)
      (grounded s' step edited hedits basketId)
    refine (asks_congr (step_others step x fun h => hne ?_)).mp hasks
    exact Option.some.inj (h.symm.trans hedits)

end

theorem instantiate_assets {deps : Deps} {info : MessageInfo} {msg : InstantiateMsg} {s : State}
    (created : instantiate deps info msg = .ok s) (alone : msg.oracleContract = none) :
    s.assets = ∅ := by
  simp only [instantiate, bind_eq_ok, alone] at created
  obtain ⟨_, -, _, -, _, -, _, -, hrest⟩ := created
  obtain rfl := pure_eq_ok.mp hrest
  rfl

theorem noCycle_empty : NoCycle ∅ := by
  intro basketId asset cycle
  obtain ⟨other, hasks, -⟩ := Relation.TransGen.head'_iff.mp cycle
  rcases hasks with hasks | hasks
  · cases hasks
  · cases hasks

/-- In a configuration reached by calls that do not make the asset they add or edit ask for
    itself, no asset asks for itself and every price query ends, whatever it is answered. -/
theorem queries_terminate {deps : Deps} {info : MessageInfo} {msg : InstantiateMsg} {s₀ s : State}
    (created : instantiate deps info msg = .ok s₀)
    (copied : msg.oracleContract ≠ none → NoCycle s₀.assets)
    (run : RunWhere Step (fun s call => call.Grounded s) s₀ s) :
    NoCycle s.assets ∧ ∀ deps query,
      (∀ asset, Terminates (queryPrice deps s query asset)) ∧
        ∀ assets, Terminates (queryPrices deps s query assets) := by
  have hstart : NoCycle s₀.assets := by
    by_cases halone : msg.oracleContract = none
    · rw [instantiate_assets created halone]
      exact noCycle_empty
    · exact copied halone
  have hnone : NoCycle s.assets := by
    have hkeep : ∀ s call s', NoCycle s.assets → call.Grounded s → Step s call s' →
        NoCycle s'.assets := fun _ _ _ start grounded step => step_noCycle start grounded step
    exact RunWhere.keeps hkeep run hstart
  refine ⟨hnone, fun deps query => ⟨fun asset => ?_, fun assets => ?_⟩⟩
  · exact getAssetPrices_terminates (hnone _) [asset] none none
  · exact getAssetPrices_terminates (hnone _) assets none none

/-! ## Ranked configurations -/

def Ranked (rank : String → Nat) (assets : Assets) : Prop :=
  ∀ entry ∈ assets.entries, ∀ oracleInfo ∈ entry.2,
    ∀ other ∈ oracleInfo.quotedIn.toList ++ oracleInfo.parts, rank other < rank entry.1

instance rankedDecidable (rank : String → Nat) (assets : Assets) :
    Decidable (Ranked rank assets) :=
  inferInstanceAs (Decidable (∀ entry ∈ assets.entries, ∀ oracleInfo ∈ entry.2,
    ∀ other ∈ oracleInfo.quotedIn.toList ++ oracleInfo.parts, rank other < rank entry.1))

theorem Ranked.noCycle {rank : String → Nat} {assets : Assets} (ranked : Ranked rank assets) :
    NoCycle assets := by
  intro basketId
  apply Acyclic.of_rank rank
  intro asset other hasks
  obtain ⟨oracles, hstored⟩ := Option.isSome_iff_exists.mp
    (AList.lookup_isSome.mpr (asks_stored hasks))
  have hlower := ranked ⟨asset, oracles⟩ (AList.mem_lookup_iff.mp hstored)
  rcases hasks with hquote | hpart
  · rw [quoteOf, hstored, Option.bind_some] at hquote
    obtain ⟨oracleInfo, hfound, hquoted⟩ := Option.bind_eq_some_iff.mp hquote
    refine hlower oracleInfo (List.mem_of_find?_eq_some hfound) other ?_
    exact List.mem_append_left _ (Option.mem_toList.mpr hquoted)
  · rw [partsOf, hstored, Option.bind_some] at hpart
    cases oracles with
    | nil => cases hpart
    | cons first rest =>
      exact hlower first List.mem_cons_self other (List.mem_append_right _ hpart)

/-- Make a call, if it succeeds. -/
def Call.exec (s : State) (call : Call) : Option State :=
  (execute call.deps call.env call.info call.msg s).toOption

theorem Call.exec_step {s s' : State} {call : Call} (done : call.exec s = some s') :
    Step s call s' := by
  unfold Call.exec at done
  cases hexecute : execute call.deps call.env call.info call.msg s with
  | error fault =>
    rw [hexecute] at done
    cases done
  | ok result =>
    rw [hexecute] at done
    obtain rfl := Option.some.inj done
    exact hexecute

/-- Where the call succeeds, it leaves a ranked configuration. -/
def Call.StaysRanked (rank : String → Nat) (s : State) (call : Call) : Prop :=
  ∀ s' ∈ (call.exec s).toList, Ranked rank s'.assets

instance staysRankedDecidable (rank : String → Nat) (s : State) (call : Call) :
    Decidable (call.StaysRanked rank s) :=
  inferInstanceAs (Decidable (∀ s' ∈ (call.exec s).toList, Ranked rank s'.assets))

theorem Call.StaysRanked.grounded {rank : String → Nat} {s : State} {call : Call}
    (ranked : call.StaysRanked rank s) : call.Grounded s := by
  intro s' step asset _ basketId
  have hexec : call.exec s = some s' := by
    rw [Call.exec, show execute _ _ _ _ s = _ from step]
    rfl
  exact (ranked s' (Option.mem_toList.mpr hexec)).noCycle basketId asset

/-! ## Examples -/

def sampleDeps : Deps where
  addrValid := fun _ => true
  fromHex := .ok
  priceFeed := fun _ _ => .error (.genericErr "no feed")
  defaultFeed := fun _ _ => none
  geometricTwapToNow := fun _ _ => .ok Decimal.one
  vaultTokenUnderlying := fun _ amount => .ok amount
  poolState := fun _ _ => .error (.genericErr "no pool")
  proxyOwners := fun _ => .ok []
  basket := fun _ => .error (.genericErr "no basket")
  oracleConfig := fun _ => .error (.genericErr "no oracle")
  oracleAssets := fun _ => .error (.genericErr "no oracle")

def sampleOracle (asset : String) (quotes : List String) : AssetOracleInfo :=
  ⟨1, none, quotes.map fun quote => ⟨1, asset, quote⟩, false, none, none, 6⟩

def sampleAdd (asset : String) (oracleInfo : AssetOracleInfo) : Call :=
  ⟨sampleDeps, ⟨0, "oracle"⟩, .noFunds "owner", .addAsset (.nativeToken asset) oracleInfo⟩

/-- The configuration after calls on a new oracle, each of which meets a condition. -/
def configured (allowed : State → Call → Prop) [∀ s call, Decidable (allowed s call)]
    (calls : List Call) : Option (State × State) :=
  match instantiate sampleDeps (.noFunds "owner") ⟨none, none, none, none⟩ with
  | .ok s₀ => (execAll (execWhere (fun s call => Call.exec s call) allowed) calls s₀).map (s₀, ·)
  | .error _ => none

theorem configured_spec {allowed : State → Call → Prop} [∀ s call, Decidable (allowed s call)]
    {calls : List Call} {s₀ s : State} (done : configured allowed calls = some (s₀, s)) :
    instantiate sampleDeps (.noFunds "owner") ⟨none, none, none, none⟩ = .ok s₀ ∧
      RunWhere Step allowed s₀ s := by
  unfold configured at done
  split at done
  case h_1 s₁ hcreated =>
    obtain ⟨s', hrun, heq⟩ := Option.map_eq_some_iff.mp done
    obtain ⟨rfl, rfl⟩ := Prod.mk.injEq .. ▸ heq
    exact ⟨hcreated, execWhere_run (fun _ _ _ => Call.exec_step) hrun⟩
  case h_2 => cases done

def sampleRank (asset : String) : Nat :=
  if asset = "uosmo" then 0
  else if asset = "uatom" then 1
  else if asset = "stuatom" then 2
  else 3

/-- OSMO, an asset quoted in it, one quoted in that, an LP share and a vault token. -/
def sampleCalls : List Call :=
  [sampleAdd "uosmo" (sampleOracle "uosmo" []),
    sampleAdd "uatom" (sampleOracle "uatom" ["uosmo"]),
    sampleAdd "stuatom" (sampleOracle "stuatom" ["uatom"]),
    sampleAdd "gamm/pool/1" { sampleOracle "gamm/pool/1" [] with
      lpPoolInfo := some ⟨1, [⟨.nativeToken "uatom", 6, .percent 50⟩,
        ⟨.nativeToken "uosmo", 6, .percent 50⟩]⟩ },
    sampleAdd "vault" { sampleOracle "vault" [] with vaultInfo := some ⟨"vault", "stuatom"⟩ }]

theorem queries_terminate_layered :
    ∃ s₀ s, configured (fun s call => call.StaysRanked sampleRank s) sampleCalls = some (s₀, s) ∧
      s.assets.keys.length = 5 ∧ NoCycle s.assets ∧ ∀ deps query,
        (∀ asset, Terminates (queryPrice deps s query asset)) ∧
          ∀ assets, Terminates (queryPrices deps s query assets) := by
  have hkeys : (configured (fun s call => call.StaysRanked sampleRank s) sampleCalls).map
      (fun run => run.2.assets.keys.length) = some 5 := by decide +kernel
  obtain ⟨⟨s₀, s⟩, hrun, hkeys⟩ := Option.map_eq_some_iff.mp hkeys
  obtain ⟨hcreated, hsteps⟩ := configured_spec hrun
  refine ⟨s₀, s, hrun, hkeys, ?_⟩
  apply queries_terminate hcreated
  · intro hcopied
    exact absurd rfl hcopied
  · exact hsteps.mono fun _ _ _ ranked _ => ranked.grounded

theorem getAssetPrice_unfinished {deps : Deps} {s : State} {query : Query} {fuel start : Nat}
    {asset : AssetInfo} {oracleInfo : AssetOracleInfo} {sources : List PriceInfo}
    {price : Decimal} {denom : String} {osmoQuotePrice : Option Decimal}
    (loaded : oracleInfoFor s.assets query.basket asset.toText = .ok oracleInfo)
    (starts : startTime query = .ok start)
    (noPyth : pythPrice deps s.config query oracleInfo = .ok (sources, none))
    (route : assetPriceInOsmo deps s.assets query oracleInfo asset.toText start = .ok price)
    (quoted : oracleInfo.quotedIn = some denom)
    (unfinished : ¬ Finished
      (getAssetPrice deps s query fuel (.nativeToken denom) (some []) osmoQuotePrice)) :
    ¬ Finished (getAssetPrice deps s query (fuel + 1) asset (some []) osmoQuotePrice) := by
  intro finished
  rw [getAssetPrice, loaded, lift_ok_bind, starts, lift_ok_bind, noPyth, lift_ok_bind] at finished
  dsimp only at finished
  rw [route, lift_ok_bind, quoted] at finished
  exact unfinished (finished_of_mapErr (finished_of_bind finished))

/-- An asset can be added whose TWAP route ends in itself, and then no query for it ends. -/
theorem not_queries_terminate :
    ¬ ∀ s₀ s : State,
      instantiate sampleDeps (.noFunds "owner") ⟨none, none, none, none⟩ = .ok s₀ →
      RunWhere Step (fun _ _ => True) s₀ s →
      ∀ deps query asset, Terminates (queryPrice deps s query asset) := by
  intro claim
  have hloop : (configured (fun _ _ => True)
      [sampleAdd "loop" (sampleOracle "loop" ["loop"])]).any (fun run => decide (
        loadAsset run.2.assets "loop" = .ok [sampleOracle "loop" ["loop"]] ∧
        pythPrice sampleDeps run.2.config ⟨0, 0, 0, none⟩ (sampleOracle "loop" ["loop"]) =
          .ok ([], none) ∧
        assetPriceInOsmo sampleDeps run.2.assets ⟨0, 0, 0, none⟩ (sampleOracle "loop" ["loop"])
          "loop" 0 = .ok .one)) = true := by decide +kernel
  obtain ⟨⟨s₀, s⟩, hrun, hreads⟩ := (Option.any_eq_true _ _).mp hloop
  obtain ⟨hloaded, hpyth, hroute⟩ := of_decide_eq_true hreads
  obtain ⟨hcreated, hsteps⟩ := configured_spec hrun
  have hinfo : oracleInfoFor s.assets 1 "loop" = .ok (sampleOracle "loop" ["loop"]) := by
    rw [oracleInfoFor, hloaded]
    rfl
  have hunfinished : ∀ fuel, ¬ Finished (getAssetPrice sampleDeps s ⟨0, 0, 0, none⟩ fuel
      (.nativeToken "loop") (some []) none) := by
    intro fuel
    induction fuel with
    | zero => exact fun finished => finished rfl
    | succ fuel ih => exact getAssetPrice_unfinished hinfo rfl hpyth hroute rfl ih
  obtain ⟨n, hends⟩ := claim s₀ s hcreated hsteps sampleDeps ⟨0, 0, 0, none⟩ (.nativeToken "loop")
  have hfinished := hends (n + 1) (Nat.le_succ n)
  have hlength : (guardErr (50 < [AssetInfo.nativeToken "loop"].length)
      (.genericErr "Max asset_infos length is 50") : Outcome StdError PUnit) = .ok ⟨⟩ := rfl
  rw [queryPrice, getAssetPrices, hlength, lift_ok_bind, List.foldlM_cons, priceEntry,
    AssetInfo.toText, hloaded] at hfinished
  exact hunfinished n (finished_of_bind (finished_of_bind (finished_of_bind hfinished)))

end Membrane.Oracle
