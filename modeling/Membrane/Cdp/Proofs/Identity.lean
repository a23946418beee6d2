import Membrane.Cdp.Proofs.Conservation
import Membrane.Cdp.Proofs.Natives

/-!
# The identity of positions

A new position gets the next id, which no user has, and a user gets no tenth position.
Every other write keeps the positions that it does not remove under their ids, and the
kinds of collateral of a position, or fewer. So ids are unique over all users, and no
position lists an asset twice.
-/

namespace Membrane.Cdp

open Outcome

def DistinctKinds (position : Position) : Prop := (collateralKinds position).Nodup

def Apart (store : Store) : Prop :=
  ∀ owner owner' id, (positionAt store owner id).isSome = true →
    (positionAt store owner' id).isSome = true → owner = owner'

def Few (store : Store) : Prop :=
  ∀ owner list, store.lookup owner = some list → list.length ≤ maxPositionsAmount

def NoneNew (store store' : Store) : Prop :=
  ∀ owner id, (positionAt store' owner id).isSome = true →
    (positionAt store owner id).isSome = true

theorem kinds_eq_held (position : Position) :
    collateralKinds position = position.held.map (·.info) := by
  simp [collateralKinds, Position.held]

theorem DistinctKinds.congr {position position' : Position} (distinct : DistinctKinds position)
    (same : position'.held = position.held) : DistinctKinds position' := by
  rw [DistinctKinds, kinds_eq_held, same, ← kinds_eq_held]
  exact distinct

theorem DistinctKinds.of_kinds {position position' : Position} (distinct : DistinctKinds position)
    (same : collateralKinds position' = collateralKinds position) : DistinctKinds position' := by
  rw [DistinctKinds, same]
  exact distinct

/-! ## No new positions -/

section

variable {store store' : Store} {owner : Addr} {old new : Position} {nextId : Nat}

theorem NoneNew.refl (store : Store) : NoneNew store store := fun _ _ h => h

theorem NoneNew.trans {store'' : Store} (first : NoneNew store store')
    (second : NoneNew store' store'') : NoneNew store store'' :=
  fun owner id h => first owner id (second owner id h)

theorem NoneNew.of_eq (same : store' = store) : NoneNew store store' := same ▸ .refl store

theorem positionAt_isSome_iff {id : Nat} : (positionAt store owner id).isSome = true ↔
    ∃ list, store.lookup owner = some list ∧ id ∈ list.map Position.positionId := by
  rw [positionAt]
  cases store.lookup owner with
  | none => simp
  | some list => simp [List.find?_isSome]

theorem NoneNew.insert {list list' : List Position} (stored : store.lookup owner = some list)
    (fewer : ∀ id ∈ list'.map Position.positionId, id ∈ list.map Position.positionId) :
    NoneNew store (store.insert owner list') := by
  intro owner' id hsome
  by_cases same : owner' = owner
  · subst same
    obtain ⟨stored', hstored', mem⟩ := positionAt_isSome_iff.mp hsome
    rw [AList.lookup_insert] at hstored'
    obtain rfl := Option.some.inj hstored'
    exact positionAt_isSome_iff.mpr ⟨list, stored, fewer id mem⟩
  · rw [positionAt_insert_ne same] at hsome
    exact hsome

theorem NoneNew.erase : NoneNew store (store.erase owner) := by
  intro owner' id hsome
  obtain ⟨list, hstored, mem⟩ := positionAt_isSome_iff.mp hsome
  by_cases same : owner' = owner
  · subst same
    rw [AList.lookup_erase] at hstored
    cases hstored
  · rw [AList.lookup_erase_ne same] at hstored
    exact positionAt_isSome_iff.mpr ⟨list, hstored, mem⟩

theorem Replaced.noneNew (write : Replaced store store' owner old new) : NoneNew store store' := by
  obtain ⟨list, i, stored, found, rfl⟩ := write.written
  apply NoneNew.insert stored
  intro id mem
  rw [ListEdit.map_set_same Position.positionId found write.same] at mem
  exact mem

theorem Removed.noneNew (write : Removed store store' owner old) : NoneNew store store' := by
  obtain ⟨list, i, stored, -, rfl | ⟨-, rfl⟩⟩ := write
  · apply NoneNew.insert stored
    intro id mem
    exact ((List.eraseIdx_sublist list i).map _).subset mem
  · exact .erase

theorem Dropped.noneNew {list kept : List Position} (write : Dropped store store' owner list kept) :
    NoneNew store store' := by
  rcases write.write with rfl | ⟨-, rfl⟩
  · apply NoneNew.insert write.stored
    intro id mem
    exact (write.sublist.map _).subset mem
  · exact .erase

theorem Saved.noneNew (saved : Saved store store' owner new) : NoneNew store store' := by
  cases saved with
  | replaced old write => exact write.noneNew
  | gone _ write =>
    intro owner' id hsome
    rw [write.at_eq] at hsome
    exact hsome

theorem RepayWrite.noneNew (write : RepayWrite store store' owner old new) :
    NoneNew store store' := by
  cases write with
  | replaced _ write => exact write.noneNew
  | removed _ write => exact write.noneNew

theorem RepayWrite.distinct (write : RepayWrite store store' owner old new)
    (same : new.held = old.held) (distinct : EachPosition DistinctKinds store) :
    EachPosition DistinctKinds store' := by
  cases write with
  | removed _ write => exact write.each distinct
  | replaced _ write =>
    obtain ⟨list, i, stored, found, -⟩ := write.written
    exact write.each ((distinct.at stored found).congr same) distinct

theorem Apart.of_noneNew (apart : Apart store) (none : NoneNew store store') : Apart store' := by
  intro owner owner' id hsome hsome'
  exact apart owner owner' id (none owner id hsome) (none owner' id hsome')

theorem Few.of_noneNew (few : Few store) (none : NoneNew store store')
    (sound' : SoundIds nextId store') : Few store' := by
  intro owner list' stored'
  cases hempty : list' with
  | nil => exact Nat.zero_le _
  | cons head rest =>
    rw [← hempty]
    have hids : ∀ id ∈ list'.map Position.positionId, ∃ list, store.lookup owner = some list ∧
        id ∈ list.map Position.positionId := by
      intro id mem
      exact positionAt_isSome_iff.mp
        (none owner id (positionAt_isSome_iff.mpr ⟨list', stored', mem⟩))
    obtain ⟨list, stored, -⟩ := hids head.positionId (by simp [hempty])
    have hsubset : list'.map Position.positionId ⊆ list.map Position.positionId := by
      intro id mem
      obtain ⟨other, hother, hmem⟩ := hids id mem
      obtain rfl := Option.some.inj (stored.symm.trans hother)
      exact hmem
    have hle := (List.subperm_of_subset (sound' owner list' stored').distinct hsubset).length_le
    rw [List.length_map, List.length_map] at hle
    exact Nat.le_trans hle (few owner list stored)

/-! ## A new position -/

theorem Apart.added (apart : Apart store) (sound : SoundIds nextId store)
    (write : Added store store' owner new) (fresh : new.positionId = nextId) : Apart store' := by
  have hold : ∀ owner' id, (positionAt store' owner' id).isSome = true →
      (positionAt store owner' id).isSome = true ∨ owner' = owner ∧ id = nextId := by
    intro owner' id hsome
    subst write
    by_cases same : owner' = owner
    · subst same
      obtain ⟨list, stored, mem⟩ := positionAt_isSome_iff.mp hsome
      rw [AList.lookup_insert] at stored
      obtain rfl := Option.some.inj stored
      rw [List.map_append, List.mem_append] at mem
      rcases mem with mem | mem
      · cases hlookup : store.lookup owner' with
        | none =>
          rw [hlookup] at mem
          cases mem
        | some list =>
          rw [hlookup] at mem
          exact .inl (positionAt_isSome_iff.mpr ⟨list, hlookup, mem⟩)
      · exact .inr ⟨rfl, (List.mem_singleton.mp mem).trans fresh⟩
    · rw [positionAt_insert_ne same] at hsome
      exact .inl hsome
  have hgiven : ∀ owner', (positionAt store owner' nextId).isSome = true → False := by
    intro owner' hsome
    obtain ⟨list, stored, mem⟩ := positionAt_isSome_iff.mp hsome
    obtain ⟨position, hmem, hid⟩ := List.mem_map.mp mem
    have hlt := (sound owner' list stored).given position hmem
    omega
  intro owner₁ owner₂ id hsome₁ hsome₂
  rcases hold owner₁ id hsome₁ with h₁ | ⟨rfl, rfl⟩
  · rcases hold owner₂ id hsome₂ with h₂ | ⟨-, rfl⟩
    · exact apart owner₁ owner₂ id h₁ h₂
    · exact (hgiven owner₁ h₁).elim
  · rcases hold owner₂ id hsome₂ with h₂ | ⟨rfl, -⟩
    · exact (hgiven owner₂ h₂).elim
    · rfl

theorem Few.added (few : Few store) (write : Added store store' owner new)
    (room : ((store.lookup owner).getD []).length < maxPositionsAmount) : Few store' := by
  subst write
  intro owner' list stored
  by_cases same : owner' = owner
  · subst same
    rw [AList.lookup_insert] at stored
    obtain rfl := Option.some.inj stored
    rw [List.length_append, List.length_singleton]
    exact room
  · rw [AList.lookup_insert_ne same] at stored
    exact few owner' list stored

end

/-! ## Collateral that is deposited -/

theorem depositAsset_kinds {acc acc' : List CAsset × List Asset} {deposit : CAsset}
    (distinct : (acc.1.map (·.asset.info)).Nodup) (done : depositAsset acc deposit = .ok acc') :
    (acc'.1.map (·.asset.info)).Nodup := by
  unfold depositAsset at done
  split at done
  case h_1 i _ =>
    simp only [bind_eq_ok, pure_eq_ok, index_eq_ok, setIndex_eq_ok] at done
    obtain ⟨cAsset, hget, amount, -, assets, ⟨-, rfl⟩, rfl⟩ := done
    have hsame := ListEdit.map_set_same (fun held : CAsset => held.asset.info) hget
      (b := { cAsset with asset := { cAsset.asset with amount := amount } }) rfl
    rw [hsame]
    exact distinct
  case h_2 habsent =>
    obtain rfl := pure_eq_ok.mp done
    have hnot : deposit.asset.info ∉ acc.1.map (·.asset.info) := by
      intro mem
      obtain ⟨held, hheld, hinfo⟩ := List.mem_map.mp mem
      have hfalse := List.findIdx?_eq_none_iff.mp habsent held hheld
      rw [AssetInfo.equal_iff.mpr hinfo] at hfalse
      cases hfalse
    show ((acc.1 ++ [deposit]).map (·.asset.info)).Nodup
    rw [List.map_append]
    refine List.nodup_append.mpr ⟨distinct, List.nodup_singleton _, ?_⟩
    intro a ha b hb heq
    obtain rfl := List.mem_singleton.mp hb
    rw [heq] at ha
    exact hnot ha

theorem depositAssets_kinds {deposits : List CAsset} {acc acc' : List CAsset × List Asset}
    (done : deposits.foldlM depositAsset acc = .ok acc')
    (distinct : (acc.1.map (·.asset.info)).Nodup) : (acc'.1.map (·.asset.info)).Nodup := by
  induction deposits generalizing acc with
  | nil =>
    rw [List.foldlM_nil, pure_eq_ok] at done
    exact done ▸ distinct
  | cons deposit rest ih =>
    rw [List.foldlM_cons, bind_eq_ok] at done
    obtain ⟨mid, hfirst, hrest⟩ := done
    exact ih hrest (depositAsset_kinds distinct hfirst)

theorem sentAssets_distinct (info : MessageInfo) : ((sentAssets info).map (·.info)).Nodup := by
  have hmap : (sentAssets info).map (·.info) =
      (info.funds.map Coin.denom).map AssetInfo.nativeToken := by
    simp [sentAssets]
  rw [hmap]
  refine info.distinct.map ?_
  intro denom denom' h
  cases h
  rfl

/-! ## One call -/

structure Identified (s : State) : Prop where
  sound : s.Sound
  apart : Apart s.positions
  few : Few s.positions
  distinct : EachPosition DistinctKinds s.positions

structure Tidy (s s' : State) : Prop where
  noneNew : NoneNew s.positions s'.positions
  distinct : EachPosition DistinctKinds s.positions → EachPosition DistinctKinds s'.positions

theorem Tidy.of_positions {s s' : State} (same : s'.positions = s.positions) : Tidy s s' :=
  ⟨.of_eq same, fun distinct => same ▸ distinct⟩

theorem Tidy.trans {s₁ s₂ s₃ : State} (first : Tidy s₁ s₂) (second : Tidy s₂ s₃) : Tidy s₁ s₃ :=
  ⟨first.noneNew.trans second.noneNew, fun distinct => second.distinct (first.distinct distinct)⟩

theorem Identified.of_tidy {s s' : State} (identified : Identified s) (tidy : Tidy s s')
    (sound' : s'.Sound) : Identified s' :=
  ⟨sound', identified.apart.of_noneNew tidy.noneNew,
    identified.few.of_noneNew tidy.noneNew sound', tidy.distinct identified.distinct⟩

section Call

variable {s s' : State} {call : Call} {response : Response OutMsg}

theorem deposit_identified {positionId : Option Nat} {positionOwner : Option String}
    (identified : Identified s)
    (done : executeDeposit call.deps call.env call.info positionId positionOwner s =
      .ok (s', response)) : Identified s' := by
  have sound' := deposit_sound identified.sound done
  simp only [executeDeposit, bind_eq_ok, guardErr_eq_ok] at done
  obtain ⟨deposits, hassets, _, -, hdeposit⟩ := done
  obtain ⟨-, owner, -, into | new⟩ := deposit_spec hdeposit
  · obtain ⟨id, position, assets, out, -, into⟩ := into
    refine identified.of_tidy ⟨into.write.noneNew, ?_⟩ sound'
    intro distinct
    refine into.write.each ?_ distinct
    obtain ⟨i, htarget⟩ := into.target
    obtain ⟨list, stored, found, -⟩ := getTargetPosition_spec htarget
    obtain ⟨previous, hgrown⟩ := into.grown
    have hposition : DistinctKinds position := distinct.at stored found
    exact depositAssets_kinds hgrown hposition
  · obtain ⟨out, new⟩ := new
    have hcharged := accrue_charged new.accrued
    refine ⟨sound', identified.apart.added identified.sound new.write hcharged.positionId,
      identified.few.added new.write new.room, new.write.each ?_ identified.distinct⟩
    have hsent : DistinctKinds ⟨s.basket.currentPositionId, deposits, 0⟩ := by
      rw [DistinctKinds, kinds_eq_held, Position.held, assertBasketAssets_assets hassets]
      exact sentAssets_distinct call.info
    exact hsent.congr hcharged.held

theorem takeFrom_kinds (held : List Asset) (withdrawn : Asset) :
    ((takeFrom held withdrawn).map (·.info)).Sublist (held.map (·.info)) := by
  unfold takeFrom
  split
  case h_1 => exact .refl _
  case h_2 i _ =>
    split
    case h_1 => exact .refl _
    case h_2 asset hget =>
      split
      case isTrue =>
        have hsame : (held.set i { asset with amount := asset.amount - withdrawn.amount }).map
            Asset.info = held.map Asset.info := ListEdit.map_set_same Asset.info hget rfl
        exact hsame ▸ .refl _
      case isFalse => exact (List.eraseIdx_sublist held i).map _

theorem takeAll_kinds : ∀ (withdrawals held : List Asset),
    ((takeAll held withdrawals).map (·.info)).Sublist (held.map (·.info)) := by
  intro withdrawals
  induction withdrawals with
  | nil => intro held; exact .refl _
  | cons withdrawn rest ih =>
    intro held
    exact (ih (takeFrom held withdrawn)).trans (takeFrom_kinds held withdrawn)

theorem withdraw_tidy {positionId : Nat} {assets : List Asset} {sendTo : Option String}
    (done : executeWithdraw call.deps call.env call.info positionId assets sendTo s =
      .ok (s', response)) : Tidy s s' := by
  obtain ⟨-, recipient, position, out, -, ⟨i, htarget⟩, outcome⟩ := executeWithdraw_spec done
  obtain ⟨list, stored, found, -⟩ := getTargetPosition_spec htarget
  cases outcome with
  | overran _ overran =>
    obtain ⟨list, kept, i, dropped, -⟩ := overran.dropped
    exact ⟨dropped.noneNew, dropped.each⟩
  | once target _ withdrawn =>
    cases htouch : touches position.held assets with
    | false => exact .of_positions (withdrawn.untouched htouch)
    | true =>
      cases withdrawn.written htouch with
      | removed _ _ write => exact ⟨write.noneNew, write.each⟩
      | replaced _ write =>
        refine ⟨write.noneNew, fun distinct => write.each ?_ distinct⟩
        have hposition : DistinctKinds position := distinct.at stored found
        rw [DistinctKinds, kinds_eq_held] at hposition ⊢
        rw [withdrawn.held]
        exact hposition.sublist (takeAll_kinds assets position.held)

theorem repay_tidy {positionId : Nat} {positionOwner sendExcessTo : Option String}
    (done : executeRepay call.deps call.env call.info positionId positionOwner sendExcessTo s =
      .ok (s', response)) : Tidy s s' := by
  simp only [executeRepay, bind_eq_ok, liftStd_eq_ok] at done
  obtain ⟨asset, -, hrepay⟩ := done
  obtain ⟨owner, position, charged, basket, paid, -, -, repaid, -⟩ := repay_spec hrepay
  obtain ⟨prices, haccrue⟩ := repaid.accrued
  obtain ⟨interest, hcharged⟩ := accrueForRepay_charged haccrue
  exact ⟨repaid.write.noneNew, repaid.write.distinct hcharged.held⟩

theorem increaseDebt_tidy {positionId : Nat} {amount : Option Nat} {ltv : Option Decimal}
    {mintToAddr : Option String}
    (done : increaseDebt call.deps call.env call.info positionId amount ltv mintToAddr s =
      .ok (s', response)) : Tidy s s' := by
  obtain ⟨position, out, amount, ⟨i, htarget⟩, increased, -⟩ := increaseDebt_spec done
  obtain ⟨list, stored, found, -⟩ := getTargetPosition_spec htarget
  refine ⟨increased.write.noneNew, fun distinct => increased.write.each ?_ distinct⟩
  have hposition : DistinctKinds position := distinct.at stored found
  exact hposition.congr (accrue_charged increased.accrued).held

theorem Tidy.of_kinds (sound : s.Sound) (sound' : s'.Sound)
    (kinds : ∀ owner id, (positionAt s'.positions owner id).map collateralKinds =
      (positionAt s.positions owner id).map collateralKinds) : Tidy s s' := by
  refine ⟨?_, ?_⟩
  · intro owner id hsome
    have hkinds := congrArg Option.isSome (kinds owner id)
    rwa [Option.isSome_map, Option.isSome_map, hsome, eq_comm] at hkinds
  · intro distinct
    refine (eachPosition_iff sound').mpr fun owner id position found => ?_
    have hkinds := kinds owner id
    rw [found, Option.map_some] at hkinds
    obtain ⟨old, hold, heq⟩ := Option.map_eq_some_iff.mp hkinds.symm
    have hdistinct : DistinctKinds old := (eachPosition_iff sound).mp distinct owner id old hold
    exact hdistinct.of_kinds heq.symm

theorem externalAccrueCall_tidy {positionOwner : Option String} {positionIds : List Nat}
    (sound : s.Sound)
    (done : externalAccrueCall call.deps call.env call.info positionOwner positionIds s =
      .ok (s', response)) : Tidy s s' := by
  simp only [externalAccrueCall, bind_eq_ok, pure_eq_ok, liftStd_eq_ok, Prod.mk.injEq] at done
  obtain ⟨owner, -, ⟨last, basket⟩, hfold, rfl, -⟩ := done
  have hlast := foldlM_keeps (fun acc : State × Basket =>
    SoundIds s.basket.currentPositionId acc.1.positions ∧ Tidy s acc.1)
    (by
      rintro acc id acc' ⟨hsound, htidy⟩ hstep
      obtain ⟨position, out, haccrue, hwrite, -⟩ := accruePosition_spec hsound hstep
      refine ⟨hwrite.ids hsound, htidy.trans ⟨hwrite.noneNew, fun distinct => ?_⟩⟩
      obtain ⟨list, i, stored, found, -⟩ := hwrite.written
      have hposition : DistinctKinds position := distinct.at stored found
      exact hwrite.each (hposition.congr (accrue_charged haccrue).held) distinct) _ _ _
    ⟨sound, .of_positions rfl⟩ hfold
  exact ⟨hlast.2.noneNew, hlast.2.distinct⟩

theorem call_identified (identified : Identified s) (outside : FromOutside s (.call call))
    (step : callStep s call s') : Identified s' := by
  have sound' := call_sound identified.sound outside step
  obtain ⟨response, hstep⟩ := step
  unfold Call.steps execute at hstep
  unfold FromOutside at outside
  cases hmsg : call.msg <;> simp only [hmsg] at hstep outside
  case updateConfig =>
    exact identified.of_tidy (.of_positions (updateConfig_governed hstep).positions) sound'
  case deposit => exact deposit_identified identified hstep
  case increaseDebt => exact identified.of_tidy (increaseDebt_tidy hstep) sound'
  case withdraw => exact identified.of_tidy (withdraw_tidy hstep) sound'
  case repay => exact identified.of_tidy (repay_tidy hstep) sound'
  case redeemCollateral =>
    obtain ⟨credit, taken, -, redeemed, -⟩ := redeemForCollateral_spec identified.sound hstep
    exact identified.of_tidy (.of_kinds identified.sound sound' redeemed.kinds) sound'
  case editRedeemability =>
    simp only [bind_eq_ok, pure_eq_ok, Prod.mk.injEq] at hstep
    obtain ⟨_, hedit, rfl, -⟩ := hstep
    exact identified.of_tidy (.of_positions (editRedemptionInfo_governed hedit).positions) sound'
  case accrue => exact identified.of_tidy (externalAccrueCall_tidy identified.sound hstep) sound'
  case editBasket =>
    exact identified.of_tidy (.of_positions (editBasket_governed hstep).positions) sound'
  case editCAsset =>
    exact identified.of_tidy (.of_positions (editCAsset_governed hstep).positions) sound'

end Call

/-! ## Liquidations -/

theorem OwnerStage.tidy {covers : Prop} {s s' : State} {owner : Addr} {positionId due : Nat}
    {payment : Option Payment} (stage : OwnerStage covers s s' owner positionId due payment) :
    Tidy s s' := by
  cases stage with
  | idle same => exact .of_positions (congrArg State.positions same)
  | repaid _ _ _ _ _ write => exact ⟨write.write.noneNew, write.write.distinct rfl⟩

theorem Repayments.identified {l : Liquidation} {s s₀ s₁ : State} {p : Progress}
    {position : Position}
    {due : Nat} {msgs : LiquidationMsgs} {prop : LiquidationPropagation}
    (run : Repayments l s p position due msgs prop s₀ s₁) (identified : Identified s) :
    Identified p.state := by
  have sound' := run.sound identified.sound
  obtain ⟨response, liquidated⟩ := run.liquidated
  obtain ⟨i, htarget⟩ := liquidated.target
  obtain ⟨list, stored, found, -⟩ := getTargetPosition_spec htarget
  have hposition : DistinctKinds position := identified.distinct.at stored found
  have htargeted : DistinctKinds prop.targetPosition := hposition.of_kinds liquidated.kinds
  have hfirst : Tidy s s₀ := by
    cases liquidated.write with
    | deferred _ same => exact .of_positions (by rw [same])
    | settled _ write => exact ⟨write.noneNew, write.each htargeted⟩
  have hsecond := hfirst.trans run.owner.tidy
  refine identified.of_tidy (hsecond.trans ?_) sound'
  cases run.rest with
  | unwritten _ _ same => exact .of_positions (congrArg State.positions same)
  | written target _ _ write =>
    refine ⟨write.saved.noneNew, fun distinct => ?_⟩
    cases write.saved with
    | replaced old replaced => exact replaced.each (htargeted.of_kinds write.kinds) distinct
    | gone _ resaved =>
      obtain ⟨list, hlist, hstore⟩ := resaved
      rw [hstore]
      exact KeyMap.all_insert distinct (distinct _ list hlist)

theorem ClosingStage.tidy {s s' : State} {owner : Addr} {positionId : Nat}
    (stage : ClosingStage s s' owner positionId) : Tidy s s' := by
  cases stage with
  | nothing same => exact .of_positions (congrArg State.positions same)
  | writtenOff i position covered found write =>
    obtain ⟨list, stored, hget, -⟩ := getTargetPosition_spec found
    refine ⟨write.write.noneNew, fun distinct => write.write.each ?_ distinct⟩
    have hposition : DistinctKinds position := distinct.at stored hget
    exact hposition.congr rfl

theorem transaction_identified {s s' : State} {t : Transaction} (identified : Identified s)
    (outside : FromOutside s t) (step : transactionStep s t s') : Identified s' := by
  have sound' := transaction_sound identified.sound outside step
  cases t with
  | call one => exact call_identified identified outside step
  | liquidation l =>
    obtain ⟨p, hexec, rfl⟩ := step
    obtain ⟨mid, position, due, msgs, prop, s₀, s₁, run, hstage, -⟩ :=
      exec_spec identified.sound hexec
    exact (run.identified identified).of_tidy hstage.tidy sound'

/-! ## Runs -/

theorem runs_identified {deps : Deps} {env : Env} {info : MessageInfo} {msg : InstantiateMsg}
    {created s : State} {response : Response OutMsg}
    (instantiated : instantiate deps env info msg = .ok (created, response))
    (run : RunWhere transactionStep FromOutside created s) : Identified s := by
  have hempty := (instantiate_fresh instantiated).positions
  have hstart : Identified created := by
    refine ⟨?_, ?_, ?_, ?_⟩
    · rw [State.Sound, hempty]
      exact KeyMap.all_empty
    · intro owner owner' id hsome
      rw [hempty] at hsome
      cases hsome
    · intro owner list stored
      rw [hempty] at stored
      cases stored
    · rw [hempty]
      exact KeyMap.all_empty
  apply run.keeps _ hstart
  intro s t s' identified houtside hstep
  exact transaction_identified identified houtside hstep

/-- In every state of a run, positions of any users with one id are the same position, every
    id was given out, no user has more than nine positions, and no position lists an asset
    twice. -/
theorem positions_identified {deps : Deps} {env : Env} {info : MessageInfo} {msg : InstantiateMsg}
    {created s : State} {response : Response OutMsg}
    (instantiated : instantiate deps env info msg = .ok (created, response))
    (run : RunWhere transactionStep FromOutside created s) :
    (∀ owner owner' list list' position position', s.positions.lookup owner = some list →
      s.positions.lookup owner' = some list' → position ∈ list → position' ∈ list' →
      position.positionId = position'.positionId → owner = owner' ∧ position = position') ∧
    ∀ owner list, s.positions.lookup owner = some list →
      (list.map Position.positionId).Nodup ∧ list.length ≤ 9 ∧ ∀ position ∈ list,
        position.positionId < s.basket.currentPositionId ∧
          (position.collateralAssets.map (·.asset.info)).Nodup := by
  have hidentified := runs_identified instantiated run
  constructor
  · intro owner owner' list list' position position' stored stored' mem mem' same
    have hsome : (positionAt s.positions owner position.positionId).isSome = true :=
      positionAt_isSome_iff.mpr ⟨list, stored, List.mem_map_of_mem mem⟩
    have hsome' : (positionAt s.positions owner' position.positionId).isSome = true := by
      rw [same]
      exact positionAt_isSome_iff.mpr ⟨list', stored', List.mem_map_of_mem mem'⟩
    obtain rfl := hidentified.apart owner owner' _ hsome hsome'
    obtain rfl := Option.some.inj (stored.symm.trans stored')
    have hids := (hidentified.sound owner list stored).distinct
    exact ⟨rfl, List.inj_on_of_nodup_map hids mem mem' same⟩
  · intro owner list stored
    have hids := hidentified.sound owner list stored
    refine ⟨hids.distinct, hidentified.few owner list stored, ?_⟩
    intro position mem
    exact ⟨hids.given position mem, hidentified.distinct owner list stored position mem⟩

def openingCalls : List Call :=
  [openBasket, sampleDeposit 0 "user" none 1000000 (by decide),
    sampleDeposit 0 "other" none 2000000 (by decide),
    sampleDeposit 0 "user" none 3000000 (by decide)]

theorem positions_identified_opening :
    ∃ s, afterGenesis 0 openingCalls = some s ∧
      (s.positions.lookup "user").map (fun list => list.map Position.positionId) = some [1, 3] ∧
      ∀ list, s.positions.lookup "user" = some list →
        (list.map Position.positionId).Nodup ∧ list.length ≤ 9 := by
  have hids : (afterGenesis 0 openingCalls).map (fun s => (s.positions.lookup "user").map
      fun list => list.map Position.positionId) = some (some [1, 3]) := by decide +kernel
  obtain ⟨s, hs, hids⟩ := Option.map_eq_some_iff.mp hids
  obtain ⟨created, hnew, hrun⟩ := Option.bind_eq_some_iff.mp hs
  obtain ⟨response, hcreated⟩ := newContract_spec hnew
  refine ⟨s, hs, hids, fun list stored => ?_⟩
  have hall := (positions_identified hcreated (transactions_of_calls (execAll_run
    (fun _ _ _ => Call.exec_step) (fun call hcall s => ?_) hrun))).2 "user" list stored
  · exact ⟨hall.1, hall.2.1⟩
  · simp only [openingCalls, List.mem_cons, List.not_mem_nil, or_false] at hcall
    rcases hcall with rfl | rfl | rfl | rfl <;> trivial

end Membrane.Cdp
