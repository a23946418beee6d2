import Membrane.Cdp.Proofs.Liquidating
import Membrane.Cdp.Transaction

/-!
# What the calls that a liquidation sets off write

The replies of the liquidation queue, the repayment of the stability pool and the
bad debt callback. The first two work on the position and the basket that the
liquidation left in its propagation, and write them over the stored ones.
-/

namespace Membrane.Cdp

open Outcome

/-! ## Saving a position of the propagation -/

def Resaved (store store' : Store) (owner : Addr) : Prop :=
  ∃ list, store.lookup owner = some list ∧ store' = store.insert owner list

namespace Resaved

variable {store store' : Store} {owner : Addr}

theorem debt (write : Resaved store store' owner) : totalDebt store' = totalDebt store := by
  obtain ⟨list, stored, rfl⟩ := write
  have := totalDebt_insert list stored
  omega

theorem ids {nextId : Nat} (write : Resaved store store' owner) (sound : SoundIds nextId store) :
    SoundIds nextId store' := by
  obtain ⟨list, stored, rfl⟩ := write
  exact KeyMap.all_insert sound (sound owner list stored)

theorem at_eq (write : Resaved store store' owner) (owner' : Addr) (id : Nat) :
    positionAt store' owner' id = positionAt store owner' id := by
  obtain ⟨list, stored, rfl⟩ := write
  by_cases same : owner' = owner
  · subst same
    rw [positionAt, AList.lookup_insert, positionAt, stored]
  · exact positionAt_insert_ne same

end Resaved

/-- The write of `update_position`: a position that is gone is not stored again. -/
inductive Saved (store store' : Store) (owner : Addr) (new : Position) : Prop
  | replaced (old : Position) (write : Replaced store store' owner old new)
  | gone (absent : positionAt store owner new.positionId = none)
    (write : Resaved store store' owner)

theorem updatePosition_saved {s s' : State} {owner : Addr} {nextId : Nat} {new : Position}
    (sound : SoundIds nextId s.positions) (done : updatePosition s owner new = .ok s') :
    Saved s.positions s'.positions owner new ∧ s' = { s with positions := s'.positions } := by
  cases hlookup : s.positions.lookup owner with
  | none => simp [updatePosition, hlookup] at done
  | some list =>
    cases hfind : positionAt s.positions owner new.positionId with
    | some old =>
      obtain ⟨list', stored, i, found⟩ := stored_of_positionAt hfind
      have hid := positionAt_id hfind
      obtain ⟨hwrite, hstate⟩ := updatePosition_replaced sound stored found hid.symm done
      exact ⟨.replaced old hwrite, hstate⟩
    | none =>
      simp only [updatePosition, hlookup] at done
      obtain rfl := Except.ok.inj done
      refine ⟨.gone hfind ⟨list, hlookup, ?_⟩, rfl⟩
      have hsame : swapPosition new list = list := by
        rw [positionAt, hlookup, Option.bind_some] at hfind
        refine (List.map_congr_left fun stored hmem => ?_).trans (List.map_id list)
        have hne := List.find?_eq_none.mp hfind stored hmem
        rw [if_neg (by simpa using hne), id]
      rw [hsame]

/-! ## A reply of the liquidation queue -/

/-- The collateral that the queue is sent. -/
def LiqQueueEvent.coin (event : LiqQueueEvent) : Coin :=
  ⟨event.collateralToken, event.collateralAmount⟩

/-- The collateral that a reply takes off the position: what the queue is sent when
    it repaid something, and nothing otherwise. -/
def LiqQueueEvent.taken (event : LiqQueueEvent) : List Coin :=
  if event.repayAmount ≠ 0 then [event.coin] else []

/-- What a reply with `event` makes of the position that the liquidation left. -/
structure Recorded (event : LiqQueueEvent) (target target' : Position) : Prop where
  positionId : target'.positionId = target.positionId
  kinds : collateralKinds target' = collateralKinds target
  credit : target'.creditAmount + event.repayAmount = target.creditAmount
  collateral : ∀ info,
    amountOf info target'.held + coinsOf info event.taken = amountOf info target.held

/-- A propagation that differs from another in its position and what counts it. -/
structure SameErrand (prop prop' : LiquidationPropagation) : Prop where
  stabilityPool : prop'.stabilityPool = prop.stabilityPool
  owner : prop'.positionOwner = prop.positionOwner
  basket : prop'.basket = prop.basket
  config : prop'.config = prop.config

theorem SameErrand.trans {p₁ p₂ p₃ : LiquidationPropagation} (h : SameErrand p₁ p₂)
    (h' : SameErrand p₂ p₃) : SameErrand p₁ p₃ :=
  ⟨h'.stabilityPool.trans h.stabilityPool, h'.owner.trans h.owner, h'.basket.trans h.basket,
    h'.config.trans h.config⟩

structure Replied (s s' : State) (event : LiqQueueEvent) (prop prop' : LiquidationPropagation)
    (response : Response OutMsg) : Prop where
  errand : SameErrand prop prop'
  counter : prop'.perAssetRepayment.length + 1 = prop.perAssetRepayment.length
  recorded : Recorded event prop.targetPosition prop'.targetPosition
  sent : coinsIn bankCoinsOf response = [event.coin]
  stored : prop.perAssetRepayment.length = 1 ∧ prop.stabilityPool ≤ Decimal.one →
    Saved s.positions s'.positions prop.positionOwner prop'.targetPosition ∧
      SameBooks prop.basket s'.basket
  pending : ¬ (prop.perAssetRepayment.length = 1 ∧ prop.stabilityPool ≤ Decimal.one) →
    s'.positions = s.positions ∧ s'.basket = s.basket
  config : s'.config = s.config

theorem takeLiquidated_spec {cAssets cAssets' : List CAsset} {info : AssetInfo} {amount : Nat}
    (done : takeLiquidated cAssets info amount = .ok cAssets') :
    TookOff cAssets cAssets' info amount := by
  simp only [takeLiquidated, bind_eq_ok, unwrap_eq_ok] at done
  obtain ⟨i, hidx, htake⟩ := done
  obtain ⟨held, found, htook⟩ := takeAmount_spec htake
  obtain ⟨held', found', hinfo⟩ := ListEdit.findIdx?_getElem? hidx
  obtain rfl : held = held' := Option.some.inj (found.symm.trans found')
  rwa [AssetInfo.equal_iff.mp hinfo] at htook

theorem recordLiquidated_spec {prop prop' : LiquidationPropagation} {event : LiqQueueEvent}
    (repaid : event.repayAmount ≠ 0)
    (done : recordLiquidated prop (.nativeToken event.collateralToken) event.repayAmount
      event.collateralAmount = .ok prop') :
    Recorded event prop.targetPosition prop'.targetPosition ∧ SameErrand prop prop' ∧
      prop'.perAssetRepayment = prop.perAssetRepayment := by
  simp only [recordLiquidated, bind_eq_ok, subUint_eq_ok, pure_eq_ok] at done
  obtain ⟨_, ⟨hle, rfl⟩, collateral, htake, _, _, _, _, rfl⟩ := done
  have htook := takeLiquidated_spec htake
  refine ⟨⟨rfl, htook.kinds, Nat.sub_add_cancel hle, fun info => ?_⟩, ⟨rfl, rfl, rfl, rfl⟩, rfl⟩
  rw [LiqQueueEvent.taken, if_pos repaid, coinsOf_singleton]
  exact htook.amounts info

theorem storeLiquidated_spec {deps : Deps} {env : Env} {s s' : State}
    {prop : LiquidationPropagation} (sound : s.Sound)
    (done : storeLiquidated deps env s prop = .ok s') :
    Saved s.positions s'.positions prop.positionOwner prop.targetPosition ∧
      SameBooks prop.basket s'.basket ∧ s'.config = s.config := by
  simp only [storeLiquidated, bind_eq_ok, mapErr_eq_ok] at done
  obtain ⟨⟨prices, basket⟩, htally, hupdate⟩ := done
  have hsound : SoundIds s.basket.currentPositionId
      ({ s with prices := prices, basket := basket } : State).positions := sound
  obtain ⟨hsaved, hstate⟩ := updatePosition_saved hsound hupdate
  refine ⟨hsaved, ?_, ?_⟩
  · rw [hstate]
    exact updateBasketTally_sameBooks htally
  · rw [hstate]

theorem handleLiqQueueReply_spec {deps : Deps} {env : Env} {event? : Option LiqQueueEvent}
    {s s' : State} {response : Response OutMsg} {prop : LiquidationPropagation}
    (sound : s.Sound) (left : s.liquidation = some prop)
    (done : handleLiqQueueReply deps env event? s = .ok (s', response)) :
    ∃ event prop', event? = some event ∧ s'.liquidation = some prop' ∧
      Replied s s' event prop prop' response := by
  simp only [handleLiqQueueReply, bind_eq_ok, ofOption_eq_ok, pure_eq_ok, Prod.mk.injEq,
    removeIndex_eq_ok, parseUint128_eq_ok] at done
  obtain ⟨event, hevent, _, ⟨-, rfl⟩, prop₀, hprop, _, ⟨-, rfl⟩, info, hinfo, queue, _, msg, hmsg,
    prop₁, hrecord, s₁, hstore, rest, ⟨hlt, rfl⟩, rfl, rfl⟩ := done
  obtain rfl : prop = prop₀ := Option.some.inj (left.symm.trans hprop)
  -- only a native asset can be sent, so the event named one
  have hnative :
      info = .nativeToken event.collateralToken ∧ msg = .bankSend queue [event.coin] := by
    unfold LiqQueueEvent.tokenInfo at hinfo
    split at hinfo
    case isTrue =>
      simp only [bind_eq_ok, pure_eq_ok] at hinfo
      obtain ⟨_, _, rfl⟩ := hinfo
      simp [withdrawalMsg] at hmsg
    case isFalse =>
      obtain rfl := pure_eq_ok.mp hinfo
      exact ⟨rfl, (Except.ok.inj hmsg).symm⟩
  obtain ⟨rfl, rfl⟩ := hnative
  have hrecorded : Recorded event prop.targetPosition prop₁.targetPosition ∧
      SameErrand prop prop₁ ∧ prop₁.perAssetRepayment = prop.perAssetRepayment := by
    split at hrecord
    case isTrue hrepaid => exact recordLiquidated_spec hrepaid hrecord
    case isFalse hnothing =>
      obtain rfl := pure_eq_ok.mp hrecord
      have hzero : event.repayAmount = 0 := not_not.mp hnothing
      exact ⟨⟨rfl, rfl, by rw [hzero, Nat.add_zero], fun _ => by
        simp [LiqQueueEvent.taken, hzero]⟩, ⟨rfl, rfl, rfl, rfl⟩, rfl⟩
  obtain ⟨hrecorded, herrand, hcount⟩ := hrecorded
  have hlast : prop₁.perAssetRepayment.length = 1 ∧ prop₁.stabilityPool ≤ Decimal.one ↔
      prop.perAssetRepayment.length = 1 ∧ prop.stabilityPool ≤ Decimal.one := by
    rw [hcount, herrand.stabilityPool]
  refine ⟨event, _, hevent, rfl, {
    errand := ⟨herrand.stabilityPool, herrand.owner, herrand.basket, herrand.config⟩
    counter := ?_
    recorded := hrecorded
    sent := by simp [bankCoinsOf]
    stored := ?_
    pending := ?_
    config := ?_ }⟩
  · rw [List.length_eraseIdx_of_lt hlt, ← hcount]
    exact Nat.sub_add_cancel hlt
  · intro last
    rw [if_pos (hlast.mpr last)] at hstore
    obtain ⟨hsaved, hbooks, -⟩ := storeLiquidated_spec sound hstore
    rw [herrand.owner] at hsaved
    rw [herrand.basket] at hbooks
    exact ⟨hsaved, hbooks⟩
  · intro more
    rw [if_neg (hlast.not.mpr more)] at hstore
    obtain rfl := pure_eq_ok.mp hstore
    exact ⟨rfl, rfl⟩
  · split at hstore
    · exact (storeLiquidated_spec sound hstore).2.2
    · obtain rfl := pure_eq_ok.mp hstore
      rfl

/-! ## The repayment of the stability pool -/

/-- What the stability pool's repayment of `amount` did with the propagation's
    position and basket: `repaid` of it counts, and `forgiven` is the one unit that
    counts as none. -/
structure PoolRepaid (s s' : State) (prop : LiquidationPropagation) (amount repaid forgiven : Nat)
    (target : Position) (response : Response OutMsg) : Prop where
  counted : repaid = min amount prop.targetPosition.creditAmount
  atMostOne : forgiven ≤ 1
  positionId : target.positionId = prop.targetPosition.positionId
  kinds : collateralKinds target = collateralKinds prop.targetPosition
  credit : target.creditAmount + repaid + forgiven = prop.targetPosition.creditAmount
  collateral : ∀ info, amountOf info target.held +
    coinsOf info (coinsIn distributedCoinsOf response) =
    amountOf info prop.targetPosition.held
  consumed : (response.messages.map fun sub => distributedFor sub.msg).sum = repaid
  saved : Saved s.positions s'.positions prop.positionOwner target
  basket : s'.basket.creditAsset.amount + repaid = prop.basket.creditAsset.amount
  creditInfo : s'.basket.creditAsset.info = prop.basket.creditAsset.info
  currentPositionId : s'.basket.currentPositionId = prop.basket.currentPositionId
  config : s'.config = s.config
  liquidation : s'.liquidation = s.liquidation

/-- What the distribution has done after some of the collateral. -/
structure Distributed (collateral : List CAsset) (loop : DistributionLoop) : Prop where
  kinds : loop.collateralAssets.map (·.asset.info) = collateral.map (·.asset.info)
  coins : ∀ info, amountOf info (collateralHeld loop.collateralAssets) + coinsOf info loop.coins =
    amountOf info (collateralHeld collateral)

theorem distributeAsset_distributed {prop : LiquidationPropagation} {repayValue : Decimal}
    {collateral : List CAsset} {loop loop' : DistributionLoop} {entry : CAsset × Nat}
    (mem : entry ∈ collateral.zipIdx) (before : Distributed collateral loop)
    (done : distributeAsset prop repayValue loop entry = .ok loop') :
    Distributed collateral loop' := by
  simp only [distributeAsset, bind_eq_ok, pure_eq_ok, index_eq_ok, subUint_eq_ok,
    setIndex_eq_ok] at done
  obtain ⟨_, _, _, _, _, _, _, _, _, _, amount, _, held, hheld, _, ⟨hle, rfl⟩, _, ⟨-, rfl⟩,
    coin, hcoin,
    rfl⟩ := done
  have found : collateral[entry.2]? = some entry.1 := List.mem_zipIdx_iff_getElem?.mp mem
  have htook := tookOff_set hheld hle
  -- the asset at the index is of the kind that the coin names
  have hkind : held.asset.info = entry.1.asset.info := by
    have hmap := congrArg (·[entry.2]?) before.kinds
    simpa [List.getElem?_map, hheld, found] using hmap
  refine ⟨htook.kinds.trans before.kinds, fun info => ?_⟩
  have hcoins : coinsOf info [coin] = if held.asset.info = info then amount else 0 := by
    unfold assetToCoin at hcoin
    split at hcoin
    case h_1 => simp at hcoin
    case h_2 denom hdenom =>
      obtain rfl := Except.ok.inj hcoin
      simp only at hdenom
      simp [hkind, hdenom]
  have hbefore := before.coins info
  have hamounts := htook.amounts info
  rw [coinsOf_append, hcoins]
  simp only at hamounts ⊢
  omega

theorem liqRepayAmounts_spec (debt amount : Nat) :
    ∃ forgiven, forgiven ≤ 1 ∧
      (liqRepayAmounts debt amount).2.1 = min amount debt ∧
      (liqRepayAmounts debt amount).1 + min amount debt + forgiven = debt := by
  unfold liqRepayAmounts
  split
  case isTrue hle =>
    split
    case isTrue hone => exact ⟨1, by omega, by simp only; omega, by simp only; omega⟩
    case isFalse => exact ⟨0, by omega, by simp only; omega, by simp only; omega⟩
  case isFalse => exact ⟨0, by omega, by simp only; omega, by simp only; omega⟩

def Undistributed (msgs : List (CosmosMsg OutMsg)) : Prop :=
  ∀ msg ∈ msgs, distributedCoinsOf msg = [] ∧ distributedFor msg = 0

theorem Undistributed.coins {msgs : List (CosmosMsg OutMsg)} (none : Undistributed msgs) :
    msgs.flatMap distributedCoinsOf = [] :=
  List.flatMap_eq_nil_iff.mpr fun msg hmem => (none msg hmem).1

theorem Undistributed.repaid {msgs : List (CosmosMsg OutMsg)} (none : Undistributed msgs) :
    (msgs.map distributedFor).sum = 0 :=
  List.sum_eq_zero fun _ hmem => by
    obtain ⟨msg, hmsg, rfl⟩ := List.mem_map.mp hmem
    exact (none msg hmsg).2

theorem excessMsg_undistributed {basket : Basket} {excess : Nat} {recipient : Addr}
    {msgs : List (CosmosMsg OutMsg)} (done : excessMsg basket excess recipient = .ok msgs) :
    Undistributed msgs := by
  unfold excessMsg at done
  split at done
  case isTrue =>
    obtain rfl := pure_eq_ok.mp done
    simp [Undistributed]
  case isFalse =>
    simp only [bind_eq_ok, pure_eq_ok] at done
    obtain ⟨msg, hmsg, rfl⟩ := done
    unfold withdrawalMsg at hmsg
    split at hmsg
    · obtain rfl := Except.ok.inj hmsg
      simp [Undistributed, distributedCoinsOf, distributedFor]
    · simp at hmsg

theorem creditBurnRevMsg_undistributed {config : Config} {env : Env} {asset : Asset}
    {basket basket' : Basket} {msgs : List (CosmosMsg OutMsg)}
    (done : creditBurnRevMsg config env asset basket = .ok (msgs, basket')) :
    Undistributed msgs := by
  simp only [creditBurnRevMsg, bind_eq_ok, subUint_eq_ok] at done
  obtain ⟨_, _, _, _, hrest⟩ := done
  split at hrest
  case h_1 => simp at hrest
  case h_2 =>
    split at hrest
    case h_1 => simp at hrest
    case h_2 =>
      obtain ⟨rfl, -⟩ := Prod.mk.inj (pure_eq_ok.mp hrest)
      intro msg hmem
      rcases List.mem_append.mp hmem with hburn | hrevenue
      · unfold burnMsg at hburn
        split at hburn
        · cases hburn
        · rw [List.mem_singleton.mp hburn]
          exact ⟨rfl, rfl⟩
      · unfold revenueMsg at hrevenue
        split at hrevenue
        · split at hrevenue
          · cases hrevenue
          · rw [List.mem_singleton.mp hrevenue]
            exact ⟨rfl, rfl⟩
        · cases hrevenue

theorem liqRepay_spec {deps : Deps} {env : Env} {info : MessageInfo} {asset : Asset} {s s' : State}
    {response : Response OutMsg} {prop : LiquidationPropagation} (sound : s.Sound)
    (left : s.liquidation = some prop)
    (done : liqRepay deps env info asset s = .ok (s', response)) :
    ∃ repaid forgiven target, prop.config.stabilityPool = some info.sender ∧
      PoolRepaid s s' prop asset.amount repaid forgiven target response := by
  simp only [liqRepay, bind_eq_ok, ofOption_eq_ok, pure_eq_ok, Prod.mk.injEq, guardErr_eq_ok,
    liftStd_eq_ok, Uint128.checkedSub_eq_some] at done
  obtain ⟨prop₀, hprop, _, hpool, excess, hexcess, ⟨burnAndRev, basket⟩, hburn, _,
    ⟨hcounted, rfl⟩, _,
    _, _, _, _, _, _, _, _, _, loop, hloop, ⟨prices, basket'⟩, htally, s₁, hupdate, rfl, rfl⟩ :=
      done
  obtain rfl : prop = prop₀ := Option.some.inj (left.symm.trans hprop)
  obtain ⟨forgiven, hforgiven, hrepaid, hdebt⟩ :=
    liqRepayAmounts_spec prop.targetPosition.creditAmount asset.amount
  obtain ⟨paid, rfl, -, -, -⟩ := creditBurnRevMsg_spec hburn
  have hdistributed : Distributed prop.targetPosition.collateralAssets loop :=
    foldlM_keeps_mem (Distributed prop.targetPosition.collateralAssets) _ _ _
      (fun _ _ _ mem hinv hstep => distributeAsset_distributed mem hinv hstep)
      ⟨rfl, fun _ => by simp⟩ hloop
  have hbooks : basket'.creditAsset = { prop.basket.creditAsset with
      amount := prop.basket.creditAsset.amount -
        min asset.amount prop.targetPosition.creditAmount } ∧
      basket'.currentPositionId = prop.basket.currentPositionId := by
    rw [← hrepaid]
    split at htally
    · have h := updateBasketTally_sameBooks htally
      exact ⟨h.creditAsset, h.currentPositionId⟩
    · have h := updateBasketTally_sameBooks htally
      exact ⟨h.creditAsset, h.currentPositionId⟩
  obtain ⟨hsaved, hstate⟩ := updatePosition_saved sound hupdate
  refine ⟨min asset.amount prop.targetPosition.creditAmount, forgiven, _, not_not.mp hpool, {
    counted := rfl
    atMostOne := hforgiven
    positionId := ?_
    kinds := ?_
    credit := ?_
    collateral := ?_
    consumed := ?_
    saved := hsaved
    basket := ?_
    creditInfo := ?_
    currentPositionId := hbooks.2
    config := ?_
    liquidation := ?_ }⟩
  · rfl
  · exact hdistributed.kinds
  · exact hdebt
  · intro info'
    rw [coinsIn_addMessages, List.flatMap_append, List.flatMap_append,
      (excessMsg_undistributed hexcess).coins, (creditBurnRevMsg_undistributed hburn).coins,
      List.nil_append, List.nil_append, List.flatMap_singleton]
    exact hdistributed.coins info'
  · have hsum : ∀ msgs : List (CosmosMsg OutMsg), ((Response.addMessages {} msgs).messages.map
        fun sub => distributedFor sub.msg).sum = (msgs.map distributedFor).sum := by
      simp [Response.addMessages, SubMsg.new, Function.comp_def]
    rw [hsum, List.map_append, List.map_append, List.sum_append, List.sum_append,
      (excessMsg_undistributed hexcess).repaid, (creditBurnRevMsg_undistributed hburn).repaid,
      List.map_singleton, List.sum_singleton, Nat.zero_add]
    exact hrepaid
  · rw [hbooks.1]
    exact Nat.sub_add_cancel (hrepaid ▸ hcounted)
  · rw [hbooks.1]
  · rw [hstate]
  · rw [hstate]

/-! ## The bad debt callback -/

/-- What the callback wrote off of the bad debt of `position`. -/
structure WrittenOff (s s' : State) (owner : Addr) (position : Position) (covered : Nat) :
    Prop where
  debt : covered ≤ position.creditAmount
  write : Replaced s.positions s'.positions owner position
    { position with creditAmount := position.creditAmount - covered }
  basket : s'.basket = { s.basket with pendingRevenue := s.basket.pendingRevenue - covered }
  revenue : covered ≤ s.basket.pendingRevenue
  config : s'.config = s.config

theorem checkAndFulfillBadDebt_spec {positionId : Nat} {owner : Addr} {s s' : State}
    {response : Response OutMsg} (sound : s.Sound)
    (done : checkAndFulfillBadDebt positionId owner s = .ok (s', response)) :
    ∃ position covered, (∃ i, getTargetPosition s owner positionId = .ok (i, position)) ∧
      WrittenOff s s' owner position covered ∧
      ∀ denom, minted denom response = 0 ∧ burned denom response = 0 := by
  simp only [checkAndFulfillBadDebt, bind_eq_ok, liftStd_eq_ok] at done
  obtain ⟨⟨i, position⟩, htarget, _, _, _, _, _, _, s₁, hupdate, hrest⟩ := done
  obtain ⟨list, stored, found, -⟩ := getTargetPosition_spec htarget
  have hsame : (⟨position.positionId, position.collateralAssets, position.creditAmount -
    min position.creditAmount s.basket.pendingRevenue⟩ : Position).positionId =
      position.positionId := rfl
  obtain ⟨hwrite, hstate⟩ := updatePosition_replaced sound stored found hsame hupdate
  split at hrest
  case h_1 =>
    simp only [bind_eq_ok, pure_eq_ok, Prod.mk.injEq] at hrest
    obtain ⟨_, _, rfl, rfl⟩ := hrest
    have hbasket : s₁.basket = s.basket := by rw [hstate]
    refine ⟨position, min position.creditAmount s.basket.pendingRevenue, ⟨i, htarget⟩,
      ⟨Nat.min_le_left _ _, hwrite, ?_, Nat.min_le_right _ _, ?_⟩, Inert.response ?_⟩
    · rw [hbasket]
    · rw [hstate]
    · simp [Inert, mintedBy, burnedBy]
  case h_2 => simp at hrest

theorem WrittenOff.moved {s s' : State} {owner : Addr} {position : Position} {covered : Nat}
    (written : WrittenOff s s' owner position covered) (sound : s.Sound) :
    Moved s s' { repaid := covered, paid := covered } := by
  have hdebt := written.write.debt
  have hle := written.debt
  have hrevenue := written.revenue
  refine ⟨?_, by simp [written.basket], ?_, by simp [written.basket], ?_⟩
  · simp only at hdebt ⊢
    omega
  · rw [written.basket]
    exact Nat.sub_add_cancel hrevenue
  · rw [written.basket]
    exact written.write.ids sound

end Membrane.Cdp
