import Membrane.Cdp.Proofs.Collateral

/-!
# What a withdrawal writes

The loop of a withdrawal takes one asset after the other out of the position and
writes the position each time at the index found before the loop. When nothing is
left the position is removed, and its index then belongs to the next one. As long
as no later asset of the message is still held at that point, the whole loop is
one write of the position it was asked for, or none.
-/

namespace Membrane.Cdp

open Outcome

/-! ## Assets held -/

def holds (held : List Asset) (info : AssetInfo) : Bool :=
  held.any fun asset => asset.info.equal info

/-- What is held after a withdrawal: the first asset of its kind loses the amount,
    and leaves the list when nothing of it is left. -/
def takeFrom (held : List Asset) (withdrawn : Asset) : List Asset :=
  match held.findIdx? fun asset => asset.info.equal withdrawn.info with
  | none => held
  | some i =>
    match held[i]? with
    | none => held
    | some asset =>
      if asset.amount - withdrawn.amount ≠ 0 then
        held.set i { asset with amount := asset.amount - withdrawn.amount }
      else held.eraseIdx i

def nothingLeft (held : List Asset) : Bool := held.all fun asset => asset.amount == 0

/-- Whether a withdrawal that leaves nothing goes on to an asset still in the list,
    of which the position holds zero. -/
def revisitsEmptied : List Asset → List Asset → Bool
  | _, [] => false
  | held, withdrawn :: rest =>
    (holds held withdrawn.info && nothingLeft (takeFrom held withdrawn) &&
      rest.any fun later => holds (takeFrom held withdrawn) later.info) ||
      revisitsEmptied (takeFrom held withdrawn) rest

def takenAssets : List Asset → List Asset → List Asset
  | _, [] => []
  | held, withdrawn :: rest =>
    (if holds held withdrawn.info then [withdrawn] else []) ++
      takenAssets (takeFrom held withdrawn) rest

def touches (held withdrawals : List Asset) : Bool :=
  withdrawals.any fun withdrawn => holds held withdrawn.info

theorem findIdx?_eq_none_iff_holds {held : List Asset} {info : AssetInfo} :
    (held.findIdx? fun asset => asset.info.equal info) = none ↔ holds held info = false := by
  rw [List.findIdx?_eq_none_iff, holds, List.any_eq_false]
  simp only [Bool.not_eq_true]

theorem takeFrom_of_not_holds {held : List Asset} {withdrawn : Asset}
    (absent : holds held withdrawn.info = false) : takeFrom held withdrawn = held := by
  rw [takeFrom, findIdx?_eq_none_iff_holds.mpr absent]

theorem takeFrom_of_findIdx? {held : List Asset} {withdrawn asset : Asset} {i : Nat}
    (hidx : (held.findIdx? fun a => a.info.equal withdrawn.info) = some i)
    (hget : held[i]? = some asset) :
    takeFrom held withdrawn =
      if asset.amount - withdrawn.amount ≠ 0 then
        held.set i { asset with amount := asset.amount - withdrawn.amount }
      else held.eraseIdx i := by
  rw [takeFrom, hidx]
  simp only [hget]

theorem takeFrom_each {P : Asset → Prop}
    (shrinks : ∀ asset amount, P asset → 0 < amount → amount ≤ asset.amount →
      P { asset with amount := amount })
    {held : List Asset} {withdrawn : Asset} (each : ∀ asset ∈ held, P asset) :
    ∀ asset ∈ takeFrom held withdrawn, P asset := by
  intro asset hmem
  unfold takeFrom at hmem
  split at hmem
  case h_1 => exact each asset hmem
  case h_2 =>
    split at hmem
    case h_1 => exact each asset hmem
    case h_2 found hget =>
      split at hmem
      case isTrue hleft =>
        rcases List.mem_or_eq_of_mem_set hmem with hold | rfl
        · exact each asset hold
        · exact shrinks found _ (each found (List.mem_of_getElem? hget)) (Nat.pos_of_ne_zero hleft)
            (Nat.sub_le _ _)
      case isFalse => exact each asset (List.mem_of_mem_eraseIdx hmem)

theorem nothingLeft_takeFrom {held : List Asset} {withdrawn : Asset}
    (empty : nothingLeft held = true) : nothingLeft (takeFrom held withdrawn) = true := by
  rw [nothingLeft, List.all_eq_true] at empty ⊢
  simp only [beq_iff_eq] at empty ⊢
  exact takeFrom_each (fun asset amount h positive hle => by omega) empty

theorem takeFrom_amounts {held : List Asset} {withdrawn asset : Asset} {i : Nat}
    (found : (held.findIdx? fun a => a.info.equal withdrawn.info) = some i)
    (get : held[i]? = some asset) (covered : withdrawn.amount ≤ asset.amount) (info : AssetInfo) :
    amountOf info (takeFrom held withdrawn) + amountOf info [withdrawn] = amountOf info held := by
  obtain ⟨asset', get', hinfo⟩ := ListEdit.findIdx?_getElem? found
  obtain rfl : asset = asset' := Option.some.inj (get.symm.trans get')
  rw [takeFrom_of_findIdx? found get, amountOf_singleton, ← AssetInfo.equal_iff.mp hinfo]
  split
  case isTrue => exact amountOf_set get covered info
  case isFalse hnone =>
    have hall : asset.amount = withdrawn.amount := by omega
    rw [← hall]
    exact amountOf_eraseIdx get info

theorem revisitsEmptied_of_positive : ∀ {withdrawals held : List Asset},
    (∀ asset ∈ held, 0 < asset.amount) → revisitsEmptied held withdrawals = false := by
  intro withdrawals
  induction withdrawals with
  | nil => intro held _; rfl
  | cons withdrawn rest ih =>
    intro held positive
    have hleft : ∀ asset ∈ takeFrom held withdrawn, 0 < asset.amount :=
      takeFrom_each (fun _ _ _ h _ => h) positive
    have hempty : nothingLeft (takeFrom held withdrawn) = true →
        takeFrom held withdrawn = [] := by
      intro hnothing
      refine List.eq_nil_iff_forall_not_mem.mpr fun asset hmem => ?_
      have hzero : asset.amount = 0 := by
        simpa using List.all_eq_true.mp hnothing asset hmem
      exact absurd (hleft asset hmem) (by omega)
    rw [revisitsEmptied, ih hleft, Bool.or_false]
    by_cases hnothing : nothingLeft (takeFrom held withdrawn) = true
    · have hany : (rest.any fun later => holds (takeFrom held withdrawn) later.info) = false := by
        rw [hempty hnothing]
        simp [holds]
      rw [hany, Bool.and_false]
    · simp [hnothing]

/-! ## One asset of the loop -/

def assetCoins (asset : Asset) : List Coin :=
  match asset.info with
  | .nativeToken denom => [⟨denom, asset.amount⟩]
  | .token _ => []

structure WithdrawStep (deps : Deps) (env : Env) (config : Config) (prices : PriceStore)
    (basket : Basket) (owner : Addr) (index : Nat) (loop loop' : WithdrawLoop) (withdrawn : Asset) :
    Prop where
  holds : holds loop.target.held withdrawn.info = true
  left : loop'.target.held = takeFrom loop.target.held withdrawn
  covered : ∃ i asset, (loop.target.held.findIdx? fun a => a.info.equal withdrawn.info) = some i ∧
    loop.target.held[i]? = some asset ∧ withdrawn.amount ≤ asset.amount
  positionId : loop'.target.positionId = loop.target.positionId
  credit : loop'.target.creditAmount = loop.target.creditAmount
  solvent : ∃ res avg, insolvencyCheck deps env config prices basket loop'.target.collateralAssets
    loop'.target.creditAmount basket.creditPrice true = .ok (res, avg) ∧ res.1 = false
  stored : storeWithdrawn owner index loop'.target loop.positions = .ok loop'.positions
  coins : loop'.withdrawCoins = loop.withdrawCoins ++ assetCoins withdrawn

theorem takeCollateral_spec {target target' : Position} {i : Nat} {cAsset : CAsset} {amount : Nat}
    (done : takeCollateral target i cAsset amount = .ok target') :
    target'.held = (if cAsset.asset.amount - amount ≠ 0 then
        target.held.set i { cAsset.asset with amount := cAsset.asset.amount - amount }
      else target.held.eraseIdx i) ∧
      target'.positionId = target.positionId ∧ target'.creditAmount = target.creditAmount := by
  simp only [takeCollateral, bind_eq_ok, subUint_eq_ok, pure_eq_ok] at done
  obtain ⟨left, ⟨-, rfl⟩, assets, hassets, rfl⟩ := done
  refine ⟨?_, rfl, rfl⟩
  split at hassets
  case isTrue hleft =>
    obtain ⟨-, rfl⟩ := setIndex_eq_ok.mp hassets
    simp [Position.held, hleft, List.map_set]
  case isFalse hleft =>
    obtain ⟨-, rfl⟩ := removeIndex_eq_ok.mp hassets
    simp [Position.held, hleft, List.eraseIdx_map]

theorem withdrawAsset_spec {deps : Deps} {env : Env} {config : Config} {prices : PriceStore}
    {basket : Basket} {owner : Addr} {index : Nat} {loop loop' : WithdrawLoop} {cAsset : CAsset}
    (done : withdrawAsset deps env config prices basket owner index loop cAsset = .ok loop') :
    (holds loop.target.held cAsset.asset.info = false ∧ loop' = loop) ∨
      WithdrawStep deps env config prices basket owner index loop loop' cAsset.asset := by
  have hmap : (loop.target.held.findIdx? fun a => a.info.equal cAsset.asset.info) =
      loop.target.collateralAssets.findIdx? fun held =>
        held.asset.info.equal cAsset.asset.info := by
    rw [Position.held, List.findIdx?_map]
    rfl
  unfold withdrawAsset at done
  dsimp only at done
  split at done
  case h_1 hnone =>
    refine .inl ⟨findIdx?_eq_none_iff_holds.mp (hmap.trans hnone), ?_⟩
    exact (pure_eq_ok.mp done).symm
  case h_2 i hsome =>
    simp only [bind_eq_ok, pure_eq_ok, index_eq_ok, guardErr_eq_ok, liftStd_eq_ok] at done
    obtain ⟨held, hget, _, hcovered, target, htake, ⟨res, avg⟩, hcheck, _, hsolvent, positions,
      hstore, coins, hcoins, rfl⟩ := done
    have hasset : loop.target.held[i]? = some held.asset := by
      rw [Position.held, List.getElem?_map, hget]
      rfl
    obtain ⟨hleft, hid, hcredit⟩ := takeCollateral_spec htake
    refine .inr {
      holds := ?_
      left := hleft.trans (takeFrom_of_findIdx? (hmap.trans hsome) hasset).symm
      covered := ⟨i, held.asset, hmap.trans hsome, hasset, Nat.not_lt.mp hcovered⟩
      positionId := hid
      credit := hcredit
      solvent := ⟨res, avg, hcheck, by simpa using hsolvent⟩
      stored := hstore
      coins := ?_ }
    · by_contra habsent
      have hnone := findIdx?_eq_none_iff_holds.mpr (Bool.not_eq_true _ ▸ habsent)
      rw [hmap, hsome] at hnone
      cases hnone
    · split at hcoins
      case h_1 denom hinfo =>
        simp only [bind_eq_ok, pure_eq_ok, liftStd_eq_ok, assetToCoin, hinfo] at hcoins
        obtain ⟨coin, hcoin, rfl⟩ := hcoins
        obtain rfl := Except.ok.inj hcoin
        rw [assetCoins, hinfo]
      case h_2 hinfo =>
        obtain rfl := pure_eq_ok.mp hcoins
        rw [assetCoins, hinfo]

/-! ## The loop -/

def takeAll (held withdrawals : List Asset) : List Asset := withdrawals.foldl takeFrom held

theorem takeAll_each {P : Asset → Prop}
    (shrinks : ∀ asset amount, P asset → 0 < amount → amount ≤ asset.amount →
      P { asset with amount := amount }) :
    ∀ {withdrawals held : List Asset}, (∀ asset ∈ held, P asset) →
      ∀ asset ∈ takeAll held withdrawals, P asset := by
  intro withdrawals
  induction withdrawals with
  | nil => intro held each; exact each
  | cons withdrawn rest ih => intro held each; exact ih (takeFrom_each shrinks each)

theorem untouched_spec : ∀ {withdrawals held : List Asset}, touches held withdrawals = false →
    takeAll held withdrawals = held ∧ takenAssets held withdrawals = [] := by
  intro withdrawals
  induction withdrawals with
  | nil => intro held _; exact ⟨rfl, rfl⟩
  | cons withdrawn rest ih =>
    intro held untouched
    simp only [touches, List.any_cons, Bool.or_eq_false_iff] at untouched
    obtain ⟨hhead, hrest⟩ := untouched
    obtain ⟨hall, htaken⟩ := @ih held hrest
    refine ⟨?_, ?_⟩
    · rw [takeAll, List.foldl_cons, takeFrom_of_not_holds hhead]
      exact hall
    · rw [takenAssets, takeFrom_of_not_holds hhead, hhead, htaken]
      rfl

theorem revisitsEmptied_of_untouched : ∀ {withdrawals held : List Asset},
    touches held withdrawals = false → revisitsEmptied held withdrawals = false := by
  intro withdrawals
  induction withdrawals with
  | nil => intro held _; rfl
  | cons withdrawn rest ih =>
    intro held untouched
    simp only [touches, List.any_cons, Bool.or_eq_false_iff] at untouched
    obtain ⟨hhead, hrest⟩ := untouched
    rw [revisitsEmptied, hhead, Bool.false_and, Bool.false_and, Bool.false_or,
      takeFrom_of_not_holds hhead]
    exact ih hrest

/-- Where the position stands in the store while the loop runs: not written yet, or
    written with something left in it. -/
inductive LoopLive (store : Store) (owner : Addr) (list : List Position) (index : Nat)
    (loop : WithdrawLoop) : Prop
  | start (same : loop.positions = store)
  | written (left : nothingLeft loop.target.held = false)
      (write : loop.positions = store.insert owner (list.set index loop.target))

/-- Where it stands after a write: written again, or removed with no debt. -/
inductive LoopWritten (store : Store) (owner : Addr) (list : List Position) (index : Nat)
    (loop : WithdrawLoop) : Prop
  | replaced (left : nothingLeft loop.target.held = false)
      (write : loop.positions = store.insert owner (list.set index loop.target))
  | removed (empty : nothingLeft loop.target.held = true) (free : loop.target.creditAmount = 0)
      (write : loop.positions = store.insert owner (list.eraseIdx index) ∨
        list.eraseIdx index = [] ∧ loop.positions = store.erase owner)

theorem checkForEmptyPosition_eq (position : Position) :
    checkForEmptyPosition position.collateralAssets = nothingLeft position.held := by
  rw [nothingLeft, Position.held, List.all_map]
  rfl

theorem storeWithdrawn_live {store store' : Store} {owner : Addr} {list : List Position}
    {index : Nat} {loop : WithdrawLoop} {target : Position}
    (stored : store.lookup owner = some list) (inside : index < list.length)
    (live : LoopLive store owner list index loop)
    (done : storeWithdrawn owner index target loop.positions = .ok store') :
    (nothingLeft target.held = false ∧ store' = store.insert owner (list.set index target)) ∨
      (nothingLeft target.held = true ∧ (store' = store.insert owner (list.eraseIdx index) ∨
        list.eraseIdx index = [] ∧ store' = store.erase owner)) := by
  -- whether or not it was written before, the write acts on the list with `target` at `index`
  have hcurrent : ∃ current, loop.positions.lookup owner = some (list.set index current) ∧
      (∀ list', loop.positions.insert owner list' = store.insert owner list') ∧
      loop.positions.erase owner = store.erase owner := by
    cases live with
    | start same =>
      refine ⟨list[index], ?_, ?_⟩
      · rw [same, stored, List.set_getElem_self]
      · rw [same]
        exact ⟨fun _ => rfl, rfl⟩
    | written _ write =>
      refine ⟨loop.target, ?_, ?_⟩
      · rw [write, AList.lookup_insert]
      · rw [write]
        exact ⟨fun _ => AList.insert_insert _, KeyMap.erase_insert _ _ _⟩
  obtain ⟨current, hlookup, hinsert, herase⟩ := hcurrent
  simp only [storeWithdrawn, hlookup, Option.getD_some, bind_eq_ok, pure_eq_ok,
    checkForEmptyPosition_eq, hinsert, herase] at done
  obtain ⟨updated, hupdated, rfl⟩ := done
  split at hupdated
  case isTrue hempty =>
    obtain ⟨-, rfl⟩ := removeIndex_eq_ok.mp hupdated
    refine .inr ⟨hempty, ?_⟩
    rw [List.eraseIdx_set_eq]
    cases h : (list.eraseIdx index).isEmpty with
    | true => exact .inr ⟨List.isEmpty_iff.mp h, by simp⟩
    | false => exact .inl (by simp)
  case isFalse hleft =>
    obtain ⟨-, rfl⟩ := setIndex_eq_ok.mp hupdated
    refine .inl ⟨by simpa using hleft, ?_⟩
    rw [List.set_set]
    have hne : ((list.set index target).isEmpty) = false := by
      rw [List.isEmpty_eq_false_iff]
      intro hnil
      have hlen : (list.set index target).length = 0 := by rw [hnil]; rfl
      rw [List.length_set] at hlen
      omega
    simp [hne]

theorem insolvencyCheck_empty {deps : Deps} {env : Env} {config : Config} {prices : PriceStore}
    {basket : Basket} {position : Position} {creditPrice : PriceResponse} {maxBorrow : Bool}
    {res : Bool × Decimal × Nat} {avg : AvgLTV} (empty : nothingLeft position.held = true)
    (done : insolvencyCheck deps env config prices basket position.collateralAssets
      position.creditAmount creditPrice maxBorrow = .ok (res, avg))
    (solvent : res.1 = false) : position.creditAmount = 0 := by
  simp only [insolvencyCheck, bind_eq_ok, pure_eq_ok, insolvencyCheckCalc, Prod.mk.injEq] at done
  obtain ⟨_, _, res', ⟨total, htotal, hcalc⟩, rfl, rfl⟩ := done
  have hzero : total = 0 := by
    rw [Uint128.sum_eq htotal]
    refine List.sum_eq_zero fun amount hmem => ?_
    obtain ⟨cAsset, hc, rfl⟩ := List.mem_map.mp hmem
    simpa using List.all_eq_true.mp empty cAsset.asset (List.mem_map_of_mem hc)
  by_contra hdebt
  rw [if_pos ⟨hzero, hdebt⟩] at hcalc
  obtain rfl := pure_eq_ok.mp hcalc
  cases solvent

/-- What the loop did, as long as it does not come back to a removed position. -/
structure WithdrawLoopRun (deps : Deps) (env : Env) (config : Config) (prices : PriceStore)
    (basket : Basket) (store : Store) (owner : Addr) (list : List Position) (index : Nat)
    (loop loop' : WithdrawLoop) (withdrawals : List Asset) : Prop where
  held : loop'.target.held = takeAll loop.target.held withdrawals
  amounts : ∀ info, amountOf info loop'.target.held +
    amountOf info (takenAssets loop.target.held withdrawals) = amountOf info loop.target.held
  positionId : loop'.target.positionId = loop.target.positionId
  credit : loop'.target.creditAmount = loop.target.creditAmount
  coins : loop'.withdrawCoins =
    loop.withdrawCoins ++ (takenAssets loop.target.held withdrawals).flatMap assetCoins
  untouched : touches loop.target.held withdrawals = false → loop' = loop
  written : touches loop.target.held withdrawals = true →
    LoopWritten store owner list index loop'
  solvent : touches loop.target.held withdrawals = true →
    ∃ res avg, insolvencyCheck deps env config prices basket loop'.target.collateralAssets
      loop'.target.creditAmount basket.creditPrice true = .ok (res, avg) ∧ res.1 = false

section Loop

variable {deps : Deps} {env : Env} {config : Config} {prices : PriceStore} {basket : Basket}
  {store : Store} {owner : Addr} {list : List Position} {index : Nat}

theorem withdrawLoop_untouched : ∀ {cAssets : List CAsset} {loop loop' : WithdrawLoop},
    touches loop.target.held (cAssets.map (·.asset)) = false →
      cAssets.foldlM (withdrawAsset deps env config prices basket owner index) loop = .ok loop' →
      loop' = loop := by
  intro cAssets
  induction cAssets with
  | nil =>
    intro loop loop' _ done
    simp only [List.foldlM_nil, pure_eq_ok] at done
    exact done.symm
  | cons cAsset rest ih =>
    intro loop loop' untouched done
    simp only [touches, List.map_cons, List.any_cons, Bool.or_eq_false_iff] at untouched
    obtain ⟨hhead, hrest⟩ := untouched
    simp only [List.foldlM_cons, bind_eq_ok] at done
    obtain ⟨mid, hstep, hdone⟩ := done
    rcases withdrawAsset_spec hstep with ⟨-, rfl⟩ | step
    · exact ih hrest hdone
    · rw [step.holds] at hhead
      cases hhead

theorem withdrawLoop_spec (stored : store.lookup owner = some list) (inside : index < list.length) :
    ∀ {cAssets : List CAsset} {loop loop' : WithdrawLoop},
      LoopLive store owner list index loop →
      revisitsEmptied loop.target.held (cAssets.map (·.asset)) = false →
      cAssets.foldlM (withdrawAsset deps env config prices basket owner index) loop = .ok loop' →
      WithdrawLoopRun deps env config prices basket store owner list index loop loop'
        (cAssets.map (·.asset)) := by
  intro cAssets
  induction cAssets with
  | nil =>
    intro loop loop' _ _ done
    simp only [List.foldlM_nil, pure_eq_ok] at done
    obtain rfl := done
    refine ⟨rfl, ?_, rfl, rfl, ?_, fun _ => rfl, ?_, ?_⟩
    · simp [takenAssets]
    · simp [takenAssets]
    · intro h; cases h
    · intro h; cases h
  | cons cAsset rest ih =>
    intro loop loop' live once done
    have hrun := done
    simp only [List.foldlM_cons, bind_eq_ok] at done
    obtain ⟨mid, hstep, hdone⟩ := done
    simp only [List.map_cons, revisitsEmptied, Bool.or_eq_false_iff] at once
    obtain ⟨hnow, hlater⟩ := once
    rcases withdrawAsset_spec hstep with ⟨habsent, rfl⟩ | step
    · -- not held: the round does nothing
      have htake := takeFrom_of_not_holds habsent
      rw [htake] at hlater
      have run := ih live hlater hdone
      have htouch : touches mid.target.held ((cAsset :: rest).map (·.asset)) =
          touches mid.target.held (rest.map (·.asset)) := by
        simp [touches, habsent]
      refine ⟨?_, ?_, run.positionId, run.credit, ?_, ?_, ?_, ?_⟩
      · rw [run.held, List.map_cons, takeAll, takeAll, List.foldl_cons, htake]
      · rw [List.map_cons, takenAssets, habsent, htake]
        exact run.amounts
      · rw [run.coins, List.map_cons, takenAssets, habsent, htake]
        rfl
      · rw [htouch]; exact run.untouched
      · rw [htouch]; exact run.written
      · rw [htouch]; exact run.solvent
    · have htouch : touches loop.target.held ((cAsset :: rest).map (·.asset)) = true := by
        simp [touches, step.holds]
      rw [← step.left] at hlater hnow
      rw [step.holds, Bool.true_and] at hnow
      obtain ⟨res, avg, hcheck, hsolvent⟩ := step.solvent
      have htaken : takenAssets loop.target.held ((cAsset :: rest).map (·.asset)) =
          cAsset.asset :: takenAssets mid.target.held (rest.map (·.asset)) := by
        rw [List.map_cons, takenAssets, step.holds, step.left]
        rfl
      obtain ⟨i, asset, hfound, hget, hcovered⟩ := step.covered
      have hamounts : ∀ {last : WithdrawLoop},
          (∀ info, amountOf info last.target.held + amountOf info
            (takenAssets mid.target.held (rest.map (·.asset))) = amountOf info mid.target.held) →
          ∀ info, amountOf info last.target.held + amountOf info
            (takenAssets loop.target.held ((cAsset :: rest).map (·.asset))) =
              amountOf info loop.target.held := by
        intro last hlast info
        have hrest := hlast info
        have hhead := takeFrom_amounts hfound hget hcovered info
        rw [← step.left] at hhead
        rw [htaken, ← List.singleton_append, amountOf_append]
        omega
      have hall : takeAll loop.target.held ((cAsset :: rest).map (·.asset)) =
          takeAll mid.target.held (rest.map (·.asset)) := by
        rw [List.map_cons, takeAll, takeAll, List.foldl_cons, step.left]
      have hcoins : ∀ {last : WithdrawLoop},
          last.withdrawCoins = mid.withdrawCoins ++
            (takenAssets mid.target.held (rest.map (·.asset))).flatMap assetCoins →
          last.withdrawCoins = loop.withdrawCoins ++
            (takenAssets loop.target.held ((cAsset :: rest).map (·.asset))).flatMap assetCoins := by
        intro last hlast
        rw [hlast, step.coins, htaken, List.flatMap_cons, List.append_assoc]
      rcases storeWithdrawn_live stored inside live step.stored with
        ⟨hleft, hwrite⟩ | ⟨hempty, hwrite⟩
      · -- something is left: the position is stored again and the loop goes on
        have run := ih (.written hleft hwrite) hlater hdone
        refine ⟨run.held.trans hall.symm, hamounts run.amounts,
          run.positionId.trans step.positionId,
          run.credit.trans step.credit, hcoins run.coins, ?_, ?_, ?_⟩
        · intro h
          rw [htouch] at h
          cases h
        · intro _
          cases hmore : touches mid.target.held (rest.map (·.asset)) with
          | true => exact run.written hmore
          | false =>
            rw [run.untouched hmore]
            exact .replaced hleft hwrite
        · intro _
          cases hmore : touches mid.target.held (rest.map (·.asset)) with
          | true => exact run.solvent hmore
          | false =>
            rw [run.untouched hmore]
            exact ⟨res, avg, hcheck, hsolvent⟩
      · -- nothing is left: no later asset is held, so the rest of the loop does nothing
        have hrest : touches mid.target.held (rest.map (·.asset)) = false := by
          rw [hempty, Bool.true_and] at hnow
          exact hnow
        obtain rfl := withdrawLoop_untouched hrest hdone
        obtain ⟨hsame, hnone⟩ := untouched_spec hrest
        refine ⟨(hall.trans hsame).symm, hamounts ?_, step.positionId, step.credit,
          hcoins ?_, ?_, ?_,
          ?_⟩
        · rw [hnone]
          simp
        · rw [hnone]
          simp
        · intro h
          rw [htouch] at h
          cases h
        · intro _
          exact .removed hempty (insolvencyCheck_empty hempty hcheck hsolvent) hwrite
        · intro _
          exact ⟨res, avg, hcheck, hsolvent⟩

theorem withdrawLoop_drops : ∀ {cAssets : List CAsset} {loop loop' : WithdrawLoop}
    {current : List Position}, nothingLeft loop.target.held = true →
      (loop.positions = store.insert owner current ∨
        current = [] ∧ loop.positions = store.erase owner) →
      cAssets.foldlM (withdrawAsset deps env config prices basket owner index) loop = .ok loop' →
      ∃ kept, kept.Sublist current ∧
        (loop'.positions = store.insert owner kept ∨
          kept = [] ∧ loop'.positions = store.erase owner) ∧
        (touches loop.target.held (cAssets.map (·.asset)) = true →
          index < current.length ∧ kept.Sublist (current.eraseIdx index)) := by
  intro cAssets
  induction cAssets with
  | nil =>
    intro loop loop' current _ write done
    simp only [List.foldlM_nil, pure_eq_ok] at done
    obtain rfl := done
    exact ⟨current, .refl _, write, fun h => by cases h⟩
  | cons cAsset rest ih =>
    intro loop loop' current empty write done
    simp only [List.foldlM_cons, bind_eq_ok] at done
    obtain ⟨mid, hstep, hdone⟩ := done
    rcases withdrawAsset_spec hstep with ⟨habsent, rfl⟩ | step
    · obtain ⟨kept, hsublist, hwrite, hmore⟩ := ih empty write hdone
      refine ⟨kept, hsublist, hwrite, fun htouch => hmore ?_⟩
      simpa [touches, habsent] using htouch
    · have hempty : nothingLeft mid.target.held = true := by
        rw [step.left]
        exact nothingLeft_takeFrom empty
      -- the write finds the current list, and drops the position at the index
      have hlookup : (loop.positions.lookup owner).getD [] = current := by
        rcases write with h | ⟨rfl, h⟩
        · rw [h, AList.lookup_insert, Option.getD_some]
        · rw [h, AList.lookup_erase, Option.getD_none]
      have hstored := step.stored
      simp only [storeWithdrawn, hlookup, checkForEmptyPosition_eq, hempty, if_true, bind_eq_ok,
        pure_eq_ok, removeIndex_eq_ok] at hstored
      obtain ⟨_, ⟨hlt, rfl⟩, hnext⟩ := hstored
      rcases write with hpositions | ⟨rfl, -⟩
      · rw [hpositions, AList.insert_insert, KeyMap.erase_insert] at hnext
        have hwrite : mid.positions = store.insert owner (current.eraseIdx index) ∨
            current.eraseIdx index = [] ∧ mid.positions = store.erase owner := by
          cases h : (current.eraseIdx index).isEmpty with
          | true => exact .inr ⟨List.isEmpty_iff.mp h, by simp [← hnext, h]⟩
          | false => exact .inl (by simp [← hnext, h])
        obtain ⟨kept, hsublist, hkept, -⟩ := ih hempty hwrite hdone
        exact ⟨kept, hsublist.trans (List.eraseIdx_sublist _ _), hkept,
          fun _ => ⟨hlt, hsublist⟩⟩
      · simp at hlt

theorem withdrawLoop_overrun (stored : store.lookup owner = some list)
    (inside : index < list.length) : ∀ {cAssets : List CAsset} {loop loop' : WithdrawLoop},
      LoopLive store owner list index loop →
      revisitsEmptied loop.target.held (cAssets.map (·.asset)) = true →
      cAssets.foldlM (withdrawAsset deps env config prices basket owner index) loop = .ok loop' →
      loop.target.creditAmount = 0 ∧ index < (list.eraseIdx index).length ∧
        ∃ kept, kept.Sublist ((list.eraseIdx index).eraseIdx index) ∧
          (loop'.positions = store.insert owner kept ∨
            kept = [] ∧ loop'.positions = store.erase owner) := by
  intro cAssets
  induction cAssets with
  | nil => intro loop loop' _ again; cases again
  | cons cAsset rest ih =>
    intro loop loop' live again done
    simp only [List.foldlM_cons, bind_eq_ok] at done
    obtain ⟨mid, hstep, hdone⟩ := done
    rcases withdrawAsset_spec hstep with ⟨habsent, rfl⟩ | step
    · rw [List.map_cons, revisitsEmptied, habsent, Bool.false_and, Bool.false_and, Bool.false_or,
        takeFrom_of_not_holds habsent] at again
      exact ih live again hdone
    · rw [List.map_cons, revisitsEmptied, step.holds, Bool.true_and, ← step.left,
        Bool.or_eq_true] at again
      obtain ⟨res, avg, hcheck, hsolvent⟩ := step.solvent
      rcases storeWithdrawn_live stored inside live step.stored with
        ⟨hleft, hwrite⟩ | ⟨hempty, hwrite⟩
      · rw [hleft] at again
        have hlater := again.resolve_left (by simp)
        obtain ⟨hfree, hdropped⟩ := ih (.written hleft hwrite) hlater hdone
        exact ⟨step.credit ▸ hfree, hdropped⟩
      · -- emptied here: a later asset is still held
        have htouch : touches mid.target.held (rest.map (·.asset)) = true := by
          rcases again with hnow | hlater
          · rw [hempty, Bool.true_and] at hnow
            exact hnow
          · by_contra huntouched
            rw [revisitsEmptied_of_untouched (Bool.not_eq_true _ ▸ huntouched)] at hlater
            cases hlater
        obtain ⟨kept, -, hkept, hmore⟩ := withdrawLoop_drops hempty hwrite hdone
        obtain ⟨hlt, hsublist⟩ := hmore htouch
        refine ⟨?_, hlt, kept, hsublist, hkept⟩
        rw [← step.credit]
        exact insolvencyCheck_empty hempty hcheck hsolvent

end Loop

/-! ## Withdrawal -/

/-- What a withdrawal did to the stored `position`, of which the loop left
    `target`. -/
inductive WithdrawWrite (store store' : Store) (owner : Addr) (position target : Position) : Prop
  | replaced (left : nothingLeft target.held = false)
      (write : Replaced store store' owner position target)
  | removed (empty : nothingLeft target.held = true) (free : target.creditAmount = 0)
      (write : Removed store store' owner position)

/-- A withdrawal that does not come back to a removed position. A position it takes
    nothing from is not written, although interest was booked for it. -/
structure Withdrawn (deps : Deps) (env : Env) (s s' : State) (owner : Addr) (position : Position)
    (out : Accrued) (target : Position) (withdrawals : List Asset) : Prop where
  accrued : accrue deps env s.config s.prices position s.basket owner false = .ok out
  held : target.held = takeAll position.held withdrawals
  amounts : ∀ info, amountOf info target.held +
    amountOf info (takenAssets position.held withdrawals) = amountOf info position.held
  positionId : target.positionId = position.positionId
  credit : target.creditAmount = out.position.creditAmount
  untouched : touches position.held withdrawals = false → s'.positions = s.positions
  written : touches position.held withdrawals = true →
    WithdrawWrite s.positions s'.positions owner position target
  solvent : touches position.held withdrawals = true →
    ∃ res avg, insolvencyCheck deps env s.config out.prices out.basket target.collateralAssets
      target.creditAmount out.basket.creditPrice true = .ok (res, avg) ∧ res.1 = false
  books : SameBooks out.basket s'.basket

/-- A withdrawal that comes back to a removed position, which had no debt: the
    position stored behind it is gone too. -/
structure Overran (deps : Deps) (env : Env) (s s' : State) (owner : Addr) (position : Position)
    (out : Accrued) : Prop where
  accrued : accrue deps env s.config s.prices position s.basket owner false = .ok out
  free : out.position.creditAmount = 0
  dropped : ∃ list kept i, Dropped s.positions s'.positions owner list kept ∧
    list[i]? = some position ∧ i < (list.eraseIdx i).length ∧
    kept.Sublist ((list.eraseIdx i).eraseIdx i)
  books : SameBooks out.basket s'.basket

def withdrawalMsgs (recipient : Addr) (taken : List Asset) : List (SubMsg OutMsg) :=
  if (taken.flatMap assetCoins).isEmpty then []
  else [SubMsg.replyOnSuccess (.bankSend recipient (taken.flatMap assetCoins)) withdrawReplyId]

/-- What a withdrawal did, in one of two ways. -/
inductive WithdrawOutcome (deps : Deps) (env : Env) (s s' : State) (owner recipient : Addr)
    (position : Position) (out : Accrued) (withdrawals : List Asset) (response : Response OutMsg) :
    Prop
  | once (target : Position) (once : revisitsEmptied position.held withdrawals = false)
      (withdrawn : Withdrawn deps env s s' owner position out target withdrawals)
      (messages : response.messages =
        withdrawalMsgs recipient (takenAssets position.held withdrawals))
  | overran (again : revisitsEmptied position.held withdrawals = true)
      (overran : Overran deps env s s' owner position out)

theorem withdraw_spec {deps : Deps} {env : Env} {info : MessageInfo} {positionId : Nat}
    {cAssets : List CAsset} {sendTo : Option String} {s s' : State} {response : Response OutMsg}
    (done : withdraw deps env info positionId cAssets sendTo s = .ok (s', response)) :
    ∃ recipient position out,
      validatePositionOwner deps info sendTo = .ok recipient ∧
      (∃ i, getTargetPosition s (withdrawOwner env info recipient sendTo) positionId =
        .ok (i, position)) ∧
      WithdrawOutcome deps env s s' (withdrawOwner env info recipient sendTo) recipient position out
        (cAssets.map (·.asset)) response := by
  simp only [withdraw, bind_eq_ok, pure_eq_ok, liftStd_eq_ok, Prod.mk.injEq] at done
  obtain ⟨_, _, recipient, hrecipient, ⟨i, position⟩, htarget, out, haccrue, _, _, loop, hloop,
    ⟨prices, basket⟩, htally, balances, _, rfl, rfl⟩ := done
  obtain ⟨list, stored, found, -⟩ := getTargetPosition_spec htarget
  have hcharged := accrue_charged haccrue
  have inside : i < list.length := (List.getElem?_eq_some_iff.mp found).1
  have hheld : out.position.held = position.held := hcharged.held
  have hbooks : SameBooks out.basket basket := by
    split at htally
    · exact updateBasketTally_sameBooks htally
    · obtain ⟨-, rfl⟩ := Prod.mk.inj (pure_eq_ok.mp htally)
      exact .refl _
  refine ⟨recipient, position, out, hrecipient, ⟨i, htarget⟩, ?_⟩
  cases hagain : revisitsEmptied position.held (cAssets.map (·.asset)) with
  | false =>
    have run := withdrawLoop_spec stored inside (.start rfl) (hheld ▸ hagain) hloop
    have hid : loop.target.positionId = position.positionId :=
      run.positionId.trans hcharged.positionId
    refine .once loop.target hagain {
      accrued := haccrue
      held := hheld ▸ run.held
      amounts := hheld ▸ run.amounts
      positionId := hid
      credit := run.credit
      untouched := ?_
      written := ?_
      solvent := hheld ▸ run.solvent
      books := hbooks } ?_
    · intro huntouched
      rw [run.untouched (hheld ▸ huntouched)]
    · intro htouched
      cases run.written (hheld ▸ htouched) with
      | replaced left write => exact .replaced left ⟨hid, list, i, stored, found, write⟩
      | removed empty free write => exact .removed empty free ⟨list, i, stored, found, write⟩
    · rw [run.coins, hheld]
      simp [Response.addSubmessages, withdrawalMsgs]
  | true =>
    obtain ⟨hfree, hlt, kept, hsublist, hkept⟩ :=
      withdrawLoop_overrun stored inside (.start rfl) (hheld ▸ hagain) hloop
    have hlist : kept.Sublist list :=
      hsublist.trans ((List.eraseIdx_sublist _ _).trans (List.eraseIdx_sublist _ _))
    exact .overran hagain ⟨haccrue, hfree,
      ⟨list, kept, i, ⟨stored, hlist, hkept⟩, found, hlt, hsublist⟩, hbooks⟩

end Membrane.Cdp
