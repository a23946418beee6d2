import Membrane.Cdp.Contract
import Membrane.Cdp.Proofs.Governance
import Membrane.Cdp.Proofs.Kinds
import Membrane.Cdp.Proofs.OptIn
import Membrane.Cdp.Proofs.Redeeming

/-!
# What users cannot change of the collateral's terms

A property of the basket's kinds, and one of the terms of each collateral entry of
each stored position, are kept by every call but governance's: entries come from the
basket's types at a deposit, and everything else moves amounts and indices.
-/

namespace Membrane.Cdp

open Outcome

/-- A property of baskets that depends on their kinds, and one of entries that depends
    on their terms and that a deposited entry has. -/
structure Lasting (K : Basket → Prop) (Q : CAsset → Prop) : Prop where
  basket : ∀ {basket basket'}, SameKinds basket basket' → K basket → K basket'
  entry : ∀ {cAsset cAsset'}, terms cAsset' = terms cAsset → Q cAsset → Q cAsset'
  deposited : ∀ {basket cAsset info}, K basket →
    (basket.collateralTypes.find? fun cAsset => cAsset.asset.info.equal info) = some cAsset →
    Q cAsset

def EntriesHave (Q : CAsset → Prop) (position : Position) : Prop :=
  ∀ cAsset ∈ position.collateralAssets, Q cAsset

structure Holds (K : Basket → Prop) (Q : CAsset → Prop) (s : State) : Prop where
  basket : K s.basket
  positions : EachPosition (EntriesHave Q) s.positions

def Pending (K : Basket → Prop) (Q : CAsset → Prop) (s : State) : Prop :=
  ∀ prop, s.liquidation = some prop → K prop.basket ∧ EntriesHave Q prop.targetPosition

section

variable {K : Basket → Prop} {Q : CAsset → Prop} {deps : Deps} {env : Env} {config : Config}
  {prices prices' : PriceStore} {s s' : State} {owner : Addr} {position : Position}

/-! ## Entries of a list -/

theorem Lasting.each (lasting : Lasting K Q) {assets assets' : List CAsset}
    (same : assets'.map terms = assets.map terms) (each : ∀ cAsset ∈ assets, Q cAsset) :
    ∀ cAsset ∈ assets', Q cAsset := by
  intro cAsset' hmem'
  have hterms : terms cAsset' ∈ assets.map terms := same ▸ List.mem_map_of_mem hmem'
  obtain ⟨cAsset, hmem, heq⟩ := List.mem_map.mp hterms
  exact lasting.entry heq.symm (each cAsset hmem)

theorem Lasting.set (lasting : Lasting K Q) {assets : List CAsset} {i : Nat} {held left : CAsset}
    (each : ∀ cAsset ∈ assets, Q cAsset) (found : assets[i]? = some held)
    (same : terms left = terms held) : ∀ cAsset ∈ assets.set i left, Q cAsset := by
  intro cAsset hmem
  rcases List.mem_or_eq_of_mem_set hmem with hold | rfl
  · exact each cAsset hold
  · exact lasting.entry same (each held (List.mem_of_getElem? found))

theorem Lasting.takeAmount (lasting : Lasting K Q) {assets assets' : List CAsset}
    {index amount : Nat} (each : ∀ cAsset ∈ assets, Q cAsset)
    (done : takeAmount assets index amount = .ok assets') : ∀ cAsset ∈ assets', Q cAsset := by
  simp only [Cdp.takeAmount, bind_eq_ok, index_eq_ok, setIndex_eq_ok] at done
  obtain ⟨held, hfound, left, -, -, rfl⟩ := done
  exact lasting.set each hfound rfl

/-! ## Stored positions -/

theorem EachPosition.target {P : Position → Prop} {positionId i : Nat}
    (each : EachPosition P s.positions)
    (found : getTargetPosition s owner positionId = .ok (i, position)) : P position := by
  obtain ⟨list, stored, hfound, -⟩ := getTargetPosition_spec found
  exact each.at stored hfound

theorem updatePosition_each {P : Position → Prop} (done : updatePosition s owner position = .ok s')
    (hnew : P position) (each : EachPosition P s.positions) :
    EachPosition P s'.positions ∧ s' = { s with positions := s'.positions } := by
  unfold updatePosition at done
  split at done
  case h_1 list stored =>
    obtain rfl := Except.ok.inj done
    refine ⟨KeyMap.all_insert each fun stored' hmem => ?_, rfl⟩
    obtain ⟨old, hold, rfl⟩ := List.mem_map.mp hmem
    split
    · exact hnew
    · exact each owner list stored old hold
  case h_2 => simp at done

theorem Holds.onlyOptIn (holds : Holds K Q s) (only : OnlyOptIn s s') :
    Holds K Q s' ∧ s'.liquidation = s.liquidation := by
  obtain ⟨optIn, rfl⟩ := only
  exact ⟨⟨holds.basket, holds.positions⟩, rfl⟩

theorem forceRedemption_holds {setRedemption : Bool} {info : MessageInfo} {positionId : Nat}
    (holds : Holds K Q s) (done : forceRedemption setRedemption info positionId s = .ok s') :
    Holds K Q s' ∧ s'.liquidation = s.liquidation :=
  holds.onlyOptIn (forceRedemption_onlyOptIn done)

theorem accrue_holds (lasting : Lasting K Q) {basket : Basket} {user : String}
    {isDepositFunction : Bool} {out : Accrued} (hbasket : K basket)
    (hentries : EntriesHave Q position)
    (done : accrue deps env config prices position basket user isDepositFunction = .ok out) :
    K out.basket ∧ EntriesHave Q out.position := by
  obtain ⟨hsame, hterms⟩ := accrue_kinds done
  exact ⟨lasting.basket hsame.toSameKinds hbasket, lasting.each hterms hentries⟩

/-! ## Accrual by message -/

theorem externalAccrueCall_holds (lasting : Lasting K Q) {info : MessageInfo}
    {positionOwner : Option String} {positionIds : List Nat} {response : Response OutMsg}
    (holds : Holds K Q s)
    (done : externalAccrueCall deps env info positionOwner positionIds s = .ok (s', response)) :
    Holds K Q s' ∧ s'.liquidation = s.liquidation := by
  simp only [externalAccrueCall, bind_eq_ok, liftStd_eq_ok, pure_eq_ok, Prod.mk.injEq] at done
  obtain ⟨owner, -, ⟨mid, basket⟩, hloop, rfl, -⟩ := done
  have hkept : K basket ∧ EachPosition (EntriesHave Q) mid.positions ∧
      mid.liquidation = s.liquidation := by
    refine foldlM_keeps (fun acc : State × Basket => K acc.2 ∧
      EachPosition (EntriesHave Q) acc.1.positions ∧ acc.1.liquidation = s.liquidation)
      (fun acc id acc' hinv hstep => ?_) _ _ _ ⟨holds.basket, holds.positions, rfl⟩ hloop
    obtain ⟨hbasket, heach, hliquidation⟩ := hinv
    simp only [accruePosition, bind_eq_ok, liftStd_eq_ok, pure_eq_ok] at hstep
    obtain ⟨⟨i, position⟩, htarget, out, haccrue, written, hwrite, rfl⟩ := hstep
    obtain ⟨hout, hentries⟩ := accrue_holds lasting hbasket (heach.target htarget) haccrue
    obtain ⟨heach', hsame⟩ := updatePosition_each hwrite hentries heach
    refine ⟨hout, heach', ?_⟩
    rw [hsame]
    exact hliquidation
  exact ⟨⟨hkept.1, hkept.2.1⟩, hkept.2.2⟩

/-! ## Deposit -/

theorem assertBasketAssets_holds (lasting : Lasting K Q) {basket : Basket} {assets : List Asset}
    {cAssets : List CAsset} (hbasket : K basket)
    (done : assertBasketAssets basket assets = .ok cAssets) : ∀ cAsset ∈ cAssets, Q cAsset := by
  have hall := mapM_forall₂ done
  clear done
  induction hall with
  | nil => simp
  | cons hhead _ ih =>
    simp only [bind_eq_ok, pure_eq_ok, ofOption_eq_ok] at hhead
    obtain ⟨found, hfind, rfl⟩ := hhead
    intro cAsset hmem
    rcases List.mem_cons.mp hmem with rfl | hmem
    · have hequal := List.find?_some hfind
      have hinfo := AssetInfo.equal_iff.mp hequal
      exact lasting.entry (by simp [terms, hinfo]) (lasting.deposited hbasket hfind)
    · exact ih cAsset hmem

theorem depositAssets_holds (lasting : Lasting K Q) {deposits : List CAsset}
    {acc acc' : List CAsset × List Asset} (hdeposits : ∀ deposit ∈ deposits, Q deposit)
    (each : ∀ cAsset ∈ acc.1, Q cAsset) (done : deposits.foldlM depositAsset acc = .ok acc') :
    ∀ cAsset ∈ acc'.1, Q cAsset := by
  refine foldlM_keeps_mem (fun acc : List CAsset × List Asset => ∀ cAsset ∈ acc.1, Q cAsset) _ _ _
    (fun acc deposit acc' hmem hinv hstep => ?_) each done
  unfold depositAsset at hstep
  split at hstep
  case h_1 i _ =>
    simp only [bind_eq_ok, index_eq_ok, setIndex_eq_ok, pure_eq_ok] at hstep
    obtain ⟨held, hfound, amount, -, assets, ⟨-, rfl⟩, rfl⟩ := hstep
    exact lasting.set hinv hfound rfl
  case h_2 =>
    obtain rfl := pure_eq_ok.mp hstep
    intro cAsset h
    rcases List.mem_append.mp h with hold | hnew
    · exact hinv cAsset hold
    · obtain rfl : cAsset = deposit := by simpa using hnew
      exact hdeposits cAsset hmem

theorem depositToPosition_holds (lasting : Lasting K Q) {positions : List Position}
    {positionId : Nat} {cAssets : List CAsset} {previous : List Asset} (holds : Holds K Q s)
    (stored : s.positions.lookup owner = some positions) (hdeposits : ∀ cAsset ∈ cAssets, Q cAsset)
    (done : depositToPosition deps env owner positions positionId cAssets s = .ok (s', previous)) :
    Holds K Q s' ∧ s'.liquidation = s.liquidation := by
  simp only [depositToPosition, bind_eq_ok, ofOption_eq_ok, liftStd_eq_ok, setIndex_eq_ok,
    pure_eq_ok, Prod.mk.injEq] at done
  obtain ⟨⟨i, position⟩, hfind, ⟨assets, _⟩, hgrown, _, ⟨-, rfl⟩, out, haccrue, ⟨_, basket⟩, htally,
    rfl, -⟩ := done
  have heach := holds.positions owner positions stored
  have hold : ∀ cAsset ∈ position.collateralAssets, Q cAsset :=
    heach position (List.mem_of_getElem? (findPosition_spec hfind).1)
  have hentries : EntriesHave Q { position with collateralAssets := assets } :=
    depositAssets_holds lasting hdeposits hold hgrown
  obtain ⟨hout, -⟩ := accrue_holds lasting holds.basket hentries haccrue
  refine ⟨⟨lasting.basket (updateBasketTally_sameKinds_if htally) hout, ?_⟩, rfl⟩
  refine KeyMap.all_insert holds.positions fun position' hmem => ?_
  rcases List.mem_or_eq_of_mem_set hmem with hold | rfl
  · exact heach position' hold
  · exact hentries

theorem deposit_holds (lasting : Lasting K Q) {info : MessageInfo} {positionOwner : Option String}
    {positionId : Option Nat} {response : Response OutMsg} (holds : Holds K Q s)
    (done : executeDeposit deps env info positionId positionOwner s = .ok (s', response)) :
    Holds K Q s' ∧ s'.liquidation = s.liquidation := by
  simp only [executeDeposit, bind_eq_ok, guardErr_eq_ok] at done
  obtain ⟨cAssets, hassets, _, -, done⟩ := done
  have hdeposits := assertBasketAssets_holds lasting holds.basket hassets
  simp only [deposit, bind_eq_ok, liftStd_eq_ok, guardErr_eq_ok, pure_eq_ok, Prod.mk.injEq] at done
  obtain ⟨owner, -, _, -, ⟨last, _, _⟩, hbranch, _, -, rfl, -⟩ := done
  split at hbranch
  case h_1 _ _ positions id stored =>
    simp only [bind_eq_ok, pure_eq_ok, Prod.mk.injEq] at hbranch
    obtain ⟨mid, hforce, ⟨_, _⟩, hdeposit, rfl, -⟩ := hbranch
    obtain ⟨hmid, hliquidation⟩ := forceRedemption_holds holds hforce
    have hstored : mid.positions.lookup owner = some positions := by
      obtain ⟨optIn, rfl⟩ := forceRedemption_onlyOptIn hforce
      exact stored
    obtain ⟨hlast, hliquidation'⟩ := depositToPosition_holds lasting hmid hstored hdeposits hdeposit
    exact ⟨hlast, hliquidation'.trans hliquidation⟩
  case h_2 =>
    simp only [bind_eq_ok, guardErr_eq_ok, createPositionInDeposit, createPosition, liftStd_eq_ok,
      pure_eq_ok, Prod.mk.injEq] at hbranch
    obtain ⟨_, -, ⟨_, _⟩, ⟨⟨_, basket⟩, ⟨nextId, -, rfl, rfl⟩, out, haccrue, rfl, rfl⟩, mid, hforce,
      rfl, -⟩ := hbranch
    have hkinds : SameKinds s.basket { s.basket with currentPositionId := nextId } := ⟨rfl, rfl⟩
    have hbasket := lasting.basket hkinds holds.basket
    have hnew : EntriesHave Q ⟨s.basket.currentPositionId, cAssets, 0⟩ := hdeposits
    obtain ⟨hout, hentries⟩ := accrue_holds lasting hbasket hnew haccrue
    have hmid : Holds K Q { s with
        prices := out.prices
        basket := out.basket
        positions := s.positions.insert owner
          ((s.positions.lookup owner).getD [] ++ [out.position]) } := by
      exact ⟨hout, Added.each rfl hentries holds.positions⟩
    obtain ⟨hlast, hliquidation⟩ := forceRedemption_holds hmid hforce
    exact ⟨hlast, hliquidation⟩

/-! ## Withdrawal -/

theorem takeCollateral_holds (lasting : Lasting K Q) {target target' : Position}
    {index amount : Nat}
    {held : CAsset} (hentries : EntriesHave Q target)
    (found : target.collateralAssets[index]? = some held)
    (done : takeCollateral target index held amount = .ok target') : EntriesHave Q target' := by
  simp only [takeCollateral, bind_eq_ok, pure_eq_ok] at done
  obtain ⟨left, -, assets, hassets, rfl⟩ := done
  split at hassets
  case isTrue =>
    obtain ⟨-, rfl⟩ := setIndex_eq_ok.mp hassets
    exact lasting.set hentries found rfl
  case isFalse =>
    obtain ⟨-, rfl⟩ := removeIndex_eq_ok.mp hassets
    exact fun cAsset hmem => hentries cAsset (List.mem_of_mem_eraseIdx hmem)

theorem storeWithdrawn_each {P : Position → Prop} {positionIndex : Nat} {target : Position}
    {store store' : Store} (hnew : P target) (each : EachPosition P store)
    (done : storeWithdrawn owner positionIndex target store = .ok store') :
    EachPosition P store' := by
  simp only [storeWithdrawn, bind_eq_ok, pure_eq_ok] at done
  obtain ⟨updated, hupdated, rfl⟩ := done
  have hold : ∀ position ∈ (store.lookup owner).getD [], P position := by
    cases hlookup : store.lookup owner with
    | none => simp
    | some list => exact each owner list hlookup
  have hall : ∀ position ∈ updated, P position := by
    split at hupdated
    case isTrue =>
      obtain ⟨-, rfl⟩ := removeIndex_eq_ok.mp hupdated
      exact fun position hmem => hold position (List.mem_of_mem_eraseIdx hmem)
    case isFalse =>
      obtain ⟨-, rfl⟩ := setIndex_eq_ok.mp hupdated
      intro position hmem
      rcases List.mem_or_eq_of_mem_set hmem with h | rfl
      · exact hold position h
      · exact hnew
  split
  case isTrue => exact KeyMap.all_erase each
  case isFalse => exact KeyMap.all_insert each hall

theorem withdrawAsset_holds (lasting : Lasting K Q) {basket : Basket} {positionIndex : Nat}
    {loop loop' : WithdrawLoop} {cAsset : CAsset}
    (holds : EntriesHave Q loop.target ∧ EachPosition (EntriesHave Q) loop.positions)
    (done : withdrawAsset deps env config prices basket owner positionIndex loop cAsset =
      .ok loop') :
    EntriesHave Q loop'.target ∧ EachPosition (EntriesHave Q) loop'.positions := by
  unfold withdrawAsset at done
  dsimp only at done
  split at done
  case h_1 =>
    obtain rfl := pure_eq_ok.mp done
    exact holds
  case h_2 index _ =>
    simp only [bind_eq_ok, index_eq_ok, pure_eq_ok] at done
    obtain ⟨held, hfound, _, -, target, htake, _, -, _, -, positions, hstore, _, -, rfl⟩ := done
    have htarget := takeCollateral_holds lasting holds.1 hfound htake
    exact ⟨htarget, storeWithdrawn_each htarget holds.2 hstore⟩

theorem withdraw_holds (lasting : Lasting K Q) {info : MessageInfo} {positionId : Nat}
    {assets : List Asset} {sendTo : Option String} {response : Response OutMsg}
    (holds : Holds K Q s)
    (done : executeWithdraw deps env info positionId assets sendTo s = .ok (s', response)) :
    Holds K Q s' ∧ s'.liquidation = s.liquidation := by
  simp only [executeWithdraw, withdraw, bind_eq_ok, liftStd_eq_ok, pure_eq_ok,
    Prod.mk.injEq] at done
  obtain ⟨_, -, cAssets, -, _, -, _, -, recipient, -, ⟨i, position⟩, htarget, out, haccrue, _, -,
    loop, hloop, ⟨_, basket⟩, htally, _, -, rfl, -⟩ := done
  obtain ⟨hout, hentries⟩ :=
    accrue_holds lasting holds.basket (holds.positions.target htarget) haccrue
  have hkept : EntriesHave Q loop.target ∧ EachPosition (EntriesHave Q) loop.positions :=
    foldlM_keeps
      (fun loop : WithdrawLoop => EntriesHave Q loop.target ∧
        EachPosition (EntriesHave Q) loop.positions)
      (fun _ _ _ hinv hstep => withdrawAsset_holds lasting hinv hstep) _ _ _
      ⟨hentries, holds.positions⟩ hloop
  exact ⟨⟨lasting.basket (updateBasketTally_sameKinds_if htally) hout, hkept.2⟩, rfl⟩

/-! ## Repayment and debt -/

theorem creditBurnRevMsg_sameKinds {creditAsset : Asset} {basket basket' : Basket}
    {msgs : List (CosmosMsg OutMsg)}
    (done : creditBurnRevMsg config env creditAsset basket = .ok (msgs, basket')) :
    SameKinds basket basket' := by
  simp only [creditBurnRevMsg, bind_eq_ok] at done
  obtain ⟨_, -, pendingRevenue, -, hrest⟩ := done
  split at hrest
  case h_1 => simp at hrest
  case h_2 =>
    split at hrest
    case h_1 => simp at hrest
    case h_2 =>
      obtain ⟨-, rfl⟩ := Prod.mk.inj (pure_eq_ok.mp hrest)
      exact ⟨rfl, rfl⟩

theorem accrueForRepay_holds (lasting : Lasting K Q) {info : MessageInfo} {target : Position}
    {basket : Basket} (hbasket : K s.basket) (hentries : EntriesHave Q position)
    (done : accrueForRepay deps env info owner position s = .ok (prices, target, basket)) :
    K basket ∧ EntriesHave Q target := by
  unfold accrueForRepay at done
  split at done
  case isTrue =>
    simp only [bind_eq_ok, liftStd_eq_ok, pure_eq_ok, Prod.mk.injEq] at done
    obtain ⟨out, haccrue, -, rfl, rfl⟩ := done
    exact accrue_holds lasting hbasket hentries haccrue
  case isFalse =>
    simp only [pure_eq_ok, Prod.mk.injEq] at done
    obtain ⟨-, rfl, rfl⟩ := done
    exact ⟨hbasket, hentries⟩

theorem storeRepaid_each {P : Position → Prop} {positionIndex : Nat} {target : Position}
    {store store' : Store} {removed : Bool} (hnew : P target) (each : EachPosition P store)
    (done : storeRepaid owner positionIndex target store = .ok (store', removed)) :
    EachPosition P store' := by
  simp only [storeRepaid, bind_eq_ok, index_eq_ok] at done
  obtain ⟨stored, hfound, hrest⟩ := done
  have hold : ∀ position ∈ (store.lookup owner).getD [], P position := by
    cases hlookup : store.lookup owner with
    | none => simp
    | some list => exact each owner list hlookup
  split at hrest
  case isTrue =>
    simp only [bind_eq_ok, removeIndex_eq_ok, pure_eq_ok, Prod.mk.injEq] at hrest
    obtain ⟨_, ⟨-, rfl⟩, rfl, -⟩ := hrest
    exact KeyMap.all_insert each fun position hmem => hold position (List.mem_of_mem_eraseIdx hmem)
  case isFalse =>
    simp only [bind_eq_ok, setIndex_eq_ok, pure_eq_ok, Prod.mk.injEq] at hrest
    obtain ⟨_, ⟨-, rfl⟩, rfl, -⟩ := hrest
    refine KeyMap.all_insert each fun position hmem => ?_
    rcases List.mem_or_eq_of_mem_set hmem with h | rfl
    · exact hold position h
    · exact hnew

theorem repay_holds (lasting : Lasting K Q) {info : MessageInfo} {positionId : Nat}
    {positionOwner sendExcessTo : Option String} {response : Response OutMsg} (holds : Holds K Q s)
    (done : executeRepay deps env info positionId positionOwner sendExcessTo s =
      .ok (s', response)) : Holds K Q s' ∧ s'.liquidation = s.liquidation := by
  simp only [executeRepay, repay, bind_eq_ok, liftStd_eq_ok, pure_eq_ok, Prod.mk.injEq] at done
  obtain ⟨asset, -, _, -, owner, -, ⟨i, position⟩, htarget, ⟨_, target, basket⟩, haccrue,
    ⟨_, tallied⟩, htally, _, -, ⟨positions, _⟩, hstore, ⟨_, burned⟩, hburn, _, -, _, -, _, -, rfl,
    -⟩ := done
  obtain ⟨hbasket, hentries⟩ :=
    accrueForRepay_holds lasting holds.basket (holds.positions.target htarget) haccrue
  have htallied := lasting.basket (updateBasketTally_sameKinds_if htally) hbasket
  have hburned := lasting.basket (creditBurnRevMsg_sameKinds hburn) htallied
  have hnew : EntriesHave Q
      { target with creditAmount := target.creditAmount - asset.amount } := hentries
  have hkinds : SameKinds burned { burned with creditAsset :=
    ⟨burned.creditAsset.info, burned.creditAsset.amount -
      (asset.amount - (asset.amount - target.creditAmount))⟩ } := ⟨rfl, rfl⟩
  exact ⟨⟨lasting.basket hkinds hburned, storeRepaid_each hnew holds.positions hstore⟩, rfl⟩

theorem increaseDebt_holds (lasting : Lasting K Q) {info : MessageInfo} {positionId : Nat}
    {amount : Option Nat} {ltv : Option Decimal} {mintToAddr : Option String}
    {response : Response OutMsg} (holds : Holds K Q s)
    (done : increaseDebt deps env info positionId amount ltv mintToAddr s = .ok (s', response)) :
    Holds K Q s' ∧ s'.liquidation = s.liquidation := by
  simp only [increaseDebt, bind_eq_ok, liftStd_eq_ok, setIndex_eq_ok, pure_eq_ok,
    Prod.mk.injEq] at done
  obtain ⟨_, -, ⟨i, position⟩, htarget, out, haccrue, ⟨_, basket⟩, htally, _, -, credit, -, _, -, _,
    -, _, -, _, -, _, -, _, -, _, -, _, -, updating, ⟨-, rfl⟩, basketCredit, -, _, -, last, hforce,
    rfl, -⟩ := done
  obtain ⟨hout, hentries⟩ :=
    accrue_holds lasting holds.basket (holds.positions.target htarget) haccrue
  have htallied := lasting.basket (updateBasketTally_sameKinds_if htally) hout
  have hnew : EntriesHave Q { out.position with creditAmount := credit } := hentries
  have hkinds : SameKinds basket { basket with creditAsset :=
    ⟨basket.creditAsset.info, basketCredit⟩ } := ⟨rfl, rfl⟩
  obtain ⟨list, stored, hfound, -⟩ := getTargetPosition_spec htarget
  have hpositions : EachPosition (EntriesHave Q) (s.positions.insert info.sender
      (((s.positions.lookup info.sender).getD []).set i
        { out.position with creditAmount := credit })) := by
    rw [stored, Option.getD_some]
    refine KeyMap.all_insert holds.positions fun position' hmem => ?_
    rcases List.mem_or_eq_of_mem_set hmem with hold | rfl
    · exact holds.positions info.sender list stored position' hold
    · exact hnew
  obtain ⟨hlast, hliquidation⟩ :=
    forceRedemption_holds ⟨lasting.basket hkinds htallied, hpositions⟩ hforce
  exact ⟨hlast, hliquidation⟩

/-! ## Redemption -/

theorem subtractClaim_terms {info : AssetInfo} {amount : Nat} {assets assets' : List CAsset}
    (done : subtractClaim info amount assets = .ok assets') :
    assets'.map terms = assets.map terms := by
  have hall := mapM_forall₂ done
  clear done
  induction hall with
  | nil => rfl
  | cons hhead _ ih =>
    rw [List.map_cons, List.map_cons, ih]
    split at hhead
    case isTrue =>
      simp only [bind_eq_ok, pure_eq_ok] at hhead
      obtain ⟨_, -, rfl⟩ := hhead
      rfl
    case isFalse => rw [pure_eq_ok.mp hhead]

theorem updatePositionClaims_holds (lasting : Lasting K Q) {positionId amount : Nat}
    {asset : AssetInfo} (holds : Holds K Q s)
    (done : updatePositionClaims deps env s positionId owner asset amount = .ok s') :
    Holds K Q s' ∧ s'.liquidation = s.liquidation := by
  simp only [updatePositionClaims, bind_eq_ok, ofOption_eq_ok] at done
  obtain ⟨list, stored, written, hmap, hrest⟩ := done
  have hwritten : ∀ position ∈ written, EntriesHave Q position := by
    have hold := holds.positions owner list stored
    have hall := mapM_forall₂ hmap
    clear hmap hrest stored
    induction hall with
    | nil => simp
    | @cons position position' _ _ hhead _ ih =>
      rw [List.forall_mem_cons] at hold ⊢
      refine ⟨?_, ih hold.2⟩
      split at hhead
      case isTrue =>
        simp only [bind_eq_ok, pure_eq_ok] at hhead
        obtain ⟨left, hleft, rfl⟩ := hhead
        exact lasting.each (subtractClaim_terms hleft) hold.1
      case isFalse =>
        obtain rfl := pure_eq_ok.mp hhead
        exact hold.1
  have hpositions : EachPosition (EntriesHave Q) (s.positions.insert owner written) :=
    KeyMap.all_insert holds.positions hwritten
  split at hrest
  case h_1 =>
    obtain rfl := pure_eq_ok.mp hrest
    exact ⟨⟨holds.basket, hpositions⟩, rfl⟩
  case h_2 =>
    split at hrest
    case isTrue =>
      obtain rfl := pure_eq_ok.mp hrest
      exact ⟨⟨holds.basket, hpositions⟩, rfl⟩
    case isFalse =>
      simp only [bind_eq_ok, mapErr_eq_ok, pure_eq_ok] at hrest
      obtain ⟨⟨_, basket⟩, htally, rfl⟩ := hrest
      exact ⟨⟨lasting.basket (updateBasketTally_sameKinds htally) holds.basket, hpositions⟩, rfl⟩

theorem redeemAssets_holds (lasting : Lasting K Q) {positionId : Nat} {redeemableValue : Decimal}
    {cAssetRatios : List Decimal} {cAssetPrices : List PriceResponse}
    {entries : List (CAsset × Nat)} {acc acc' : State × List Asset} (holds : Holds K Q acc.1)
    (done : entries.foldlM (redeemAsset deps env owner positionId redeemableValue cAssetRatios
      cAssetPrices) acc = .ok acc') :
    Holds K Q acc'.1 ∧ acc'.1.liquidation = acc.1.liquidation := by
  refine foldlM_keeps (fun mid : State × List Asset =>
    Holds K Q mid.1 ∧ mid.1.liquidation = acc.1.liquidation)
    (fun mid entry next hinv hstep => ?_) _ _ _ ⟨holds, rfl⟩ done
  simp only [redeemAsset, bind_eq_ok, pure_eq_ok] at hstep
  obtain ⟨_, -, _, -, _, -, _, -, _, -, s', hclaims, rfl⟩ := hstep
  obtain ⟨hholds, hliquidation⟩ := updatePositionClaims_holds lasting hinv.1 hclaims
  exact ⟨hholds, hliquidation.trans hinv.2⟩

theorem removeRedemption_state {c : Prop} [Decidable c] {userIndex index : Nat}
    {loop loop' : RedeemLoop}
    (done : (if c then removeRedemption userIndex index loop else pure loop) = .ok loop') :
    loop'.s = loop.s := by
  split at done
  · exact (removeRedemption_frame done).1
  · exact congrArg RedeemLoop.s (pure_eq_ok.mp done).symm

theorem redeemPosition_holds (lasting : Lasting K Q) {basket : Basket} {discountRatio : Decimal}
    {premium userIndex : Nat} {loop loop' : RedeemLoop} {entry : PositionRedemption × Nat}
    (holds : Holds K Q loop.s)
    (done : redeemPosition deps env basket discountRatio premium userIndex loop entry = .ok loop') :
    Holds K Q loop'.s ∧ loop'.s.liquidation = loop.s.liquidation := by
  simp only [redeemPosition, bind_eq_ok] at done
  obtain ⟨⟨i, position⟩, htarget, hrest⟩ := done
  split at hrest
  case isTrue =>
    rw [(removeRedemption_frame hrest).1]
    exact ⟨holds, rfl⟩
  case isFalse =>
    simp only [bind_eq_ok, liftStd_eq_ok, pure_eq_ok] at hrest
    obtain ⟨⟨prices, _, _⟩, -, _, -, _, -, _, -, _, -, _, -, _, -, mid, hmid, users, -, _, -, _, -,
      ⟨last, sends⟩, hassets, ⟨j, position'⟩, htarget', debtLeft, -, next, hnext, written, hwrite,
      rfl⟩ := hrest
    have hmids := removeRedemption_state hmid
    have hnexts := removeRedemption_state hnext
    have hstart : Holds K Q
        { mid.s with redemptionOptIn := mid.s.redemptionOptIn.insert premium users } := by
      rw [hmids]
      exact ⟨holds.basket, holds.positions⟩
    obtain ⟨hlast, hliquidation⟩ := redeemAssets_holds lasting hstart hassets
    have hold : EntriesHave Q position' := hlast.positions.target htarget'
    have hnew : EntriesHave Q { position' with creditAmount := debtLeft } := hold
    obtain ⟨heach, hsame⟩ := updatePosition_each hwrite hnew (hnexts ▸ hlast.positions)
    rw [hsame]
    refine ⟨⟨?_, heach⟩, ?_⟩
    · rw [hnexts]
      exact hlast.basket
    · rw [hnexts]
      refine hliquidation.trans ?_
      rw [hmids]

theorem redeem_holds (lasting : Lasting K Q) {info : MessageInfo} {maxCollateralPremium : Nat}
    {response : Response OutMsg} (holds : Holds K Q s)
    (done : redeemForCollateral deps env info maxCollateralPremium s = .ok (s', response)) :
    Holds K Q s' ∧ s'.liquidation = s.liquidation := by
  simp only [redeemForCollateral, bind_eq_ok, liftStd_eq_ok, pure_eq_ok, Prod.mk.injEq] at done
  obtain ⟨_, -, _, -, loop, hloop, _, -, _, -, rfl, -⟩ := done
  let Inv := fun loop : RedeemLoop => Holds K Q loop.s ∧ loop.s.liquidation = s.liquidation
  refine foldlM_keeps Inv (fun loop premium loop' hinv hpremium => ?_) _ _ _ ⟨holds, rfl⟩ hloop
  simp only [redeemPremium, bind_eq_ok] at hpremium
  obtain ⟨_, -, hrest⟩ := hpremium
  split at hrest
  case isTrue =>
    obtain rfl := pure_eq_ok.mp hrest
    exact hinv
  case isFalse =>
    have husers : Inv { loop with users := (loop.s.redemptionOptIn.lookup premium).getD [] } := hinv
    refine foldlM_keeps Inv (fun loop entry loop' hinv huser => ?_) _ _ _ husers hrest
    have hpositions : Inv { loop with user := entry.1 } := hinv
    refine foldlM_keeps Inv (fun loop entry loop' hinv hposition => ?_) _ _ _ hpositions huser
    obtain ⟨hholds, hliquidation⟩ := redeemPosition_holds lasting hinv.1 hposition
    exact ⟨hholds, hliquidation.trans hinv.2⟩

/-! ## Liquidation -/

theorem takeFees_holds (lasting : Lasting K Q) {f : Fulfillment} {loop loop' : FulfillmentLoop}
    {cAsset : CAsset} {index : Nat} (each : ∀ held ∈ loop.collateralAssets, Q held)
    (done : takeFees f loop cAsset index = .ok loop') :
    ∀ held ∈ loop'.collateralAssets, Q held := by
  simp only [takeFees, bind_eq_ok] at done
  obtain ⟨_, -, _, -, _, -, _, -, _, -, _, -, _, -, callerLeft, hcaller, _, -, left,
    hprotocol, _, -, _,
    -, _, -, hrest⟩ := done
  split at hrest
  case h_1 => simp at hrest
  case h_2 =>
    obtain rfl := pure_eq_ok.mp hrest
    exact lasting.takeAmount (lasting.takeAmount each hcaller) hprotocol

theorem askLiqQueue_collateral {f : Fulfillment} {liqQueue : Addr} {loop loop' : FulfillmentLoop}
    {cAsset : CAsset} {index : Nat}
    (done : askLiqQueue deps f liqQueue loop cAsset index = .ok loop') :
    loop'.collateralAssets = loop.collateralAssets := by
  simp only [askLiqQueue, bind_eq_ok] at done
  obtain ⟨_, -, _, -, _, -, _, -, _, -, hrest⟩ := done
  split at hrest
  case h_1 => rw [pure_eq_ok.mp hrest]
  case h_2 =>
    simp only [bind_eq_ok] at hrest
    obtain ⟨_, -, _, -, hrest⟩ := hrest
    split at hrest
    case isTrue => rw [pure_eq_ok.mp hrest]
    case isFalse =>
      simp only [bind_eq_ok] at hrest
      obtain ⟨_, -, hrest⟩ := hrest
      split at hrest
      case isTrue => rw [pure_eq_ok.mp hrest]
      case isFalse =>
        simp only [bind_eq_ok, pure_eq_ok] at hrest
        obtain ⟨_, -, _, -, _, -, _, -, _, -, rfl⟩ := hrest
        rfl

theorem perAssetFulfillments_holds (lasting : Lasting K Q) {f : Fulfillment}
    {collateral : List CAsset} {leftoverPositionValue : Decimal}
    {submessages : List (SubMsg OutMsg)}
    {loop : FulfillmentLoop} (each : ∀ held ∈ collateral, Q held)
    (done : perAssetFulfillments deps f collateral leftoverPositionValue submessages = .ok loop) :
    ∀ held ∈ loop.collateralAssets, Q held := by
  unfold perAssetFulfillments at done
  refine foldlM_keeps (fun loop : FulfillmentLoop => ∀ held ∈ loop.collateralAssets, Q held)
    (fun loop entry loop' hinv hstep => ?_) _ _ _ each done
  simp only [fulfillAsset, bind_eq_ok] at hstep
  obtain ⟨_, -, _, -, mid, hfees, hrest⟩ := hstep
  have hmid := takeFees_holds lasting hinv hfees
  split at hrest
  case h_1 =>
    split at hrest
    case isTrue =>
      rw [askLiqQueue_collateral hrest]
      exact hmid
    case isFalse => exact pure_eq_ok.mp hrest ▸ hmid
  case h_2 => exact pure_eq_ok.mp hrest ▸ hmid

theorem settleUserRepayment_holds (lasting : Lasting K Q) {target target' : Position}
    {liquidatedAssets : List CAsset} {repayAmount : Nat} (holds : Holds K Q s)
    (hentries : EntriesHave Q target)
    (done : settleUserRepayment deps env s owner target liquidatedAssets repayAmount =
      .ok (s', target')) : Holds K Q s' ∧ EntriesHave Q target' := by
  simp only [settleUserRepayment, bind_eq_ok, liftStd_eq_ok, pure_eq_ok, Prod.mk.injEq] at done
  obtain ⟨left, -, ⟨_, basket⟩, htally, written, hwrite, rfl, rfl⟩ := done
  have hnew : EntriesHave Q { target with creditAmount := left } := hentries
  obtain ⟨heach, hsame⟩ := updatePosition_each hwrite hnew holds.positions
  refine ⟨⟨?_, heach⟩, hnew⟩
  rw [hsame]
  exact lasting.basket (updateBasketTally_sameKinds htally) holds.basket

theorem liquidate_holds (lasting : Lasting K Q) {info : MessageInfo} {positionId : Nat}
    {positionOwner : String} {response : Response OutMsg} (holds : Holds K Q s)
    (done : liquidate deps env info positionId positionOwner s = .ok (s', response)) :
    Holds K Q s' ∧ Pending K Q s' := by
  simp only [liquidate, bind_eq_ok, liftStd_eq_ok, pure_eq_ok, Prod.mk.injEq] at done
  obtain ⟨_, -, owner, -, ⟨i, position⟩, htarget, ⟨⟨_, _, _⟩, _⟩, -, _, -, ⟨_, _⟩, -, _, -,
    ⟨_, _, _⟩,
    -, _, -, loop, hloop, ⟨mid, target⟩, hsettle, _, -, _, -, ⟨_, _, _⟩, -, rfl, -⟩ := done
  have hcollateral := perAssetFulfillments_holds lasting (holds.positions.target htarget) hloop
  have hmid : Holds K Q mid ∧ EntriesHave Q target := by
    split at hsettle
    case isTrue =>
      have hnew : EntriesHave Q { position with collateralAssets := loop.collateralAssets } :=
        hcollateral
      exact settleUserRepayment_holds lasting holds hnew hsettle
    case isFalse =>
      simp only [pure_eq_ok, Prod.mk.injEq] at hsettle
      obtain ⟨rfl, rfl⟩ := hsettle
      exact ⟨holds, hcollateral⟩
  refine ⟨⟨hmid.1.basket, hmid.1.positions⟩, fun prop hprop => ?_⟩
  obtain rfl := Option.some.inj hprop
  exact ⟨hmid.1.basket, hmid.2⟩

theorem distributeAsset_holds (lasting : Lasting K Q) {prop : LiquidationPropagation}
    {repayValue : Decimal} {loop loop' : DistributionLoop} {entry : CAsset × Nat}
    (each : ∀ held ∈ loop.collateralAssets, Q held)
    (done : distributeAsset prop repayValue loop entry = .ok loop') :
    ∀ held ∈ loop'.collateralAssets, Q held := by
  simp only [distributeAsset, bind_eq_ok, index_eq_ok, setIndex_eq_ok, pure_eq_ok] at done
  obtain ⟨_, -, _, -, _, -, _, -, _, -, _, -, held, hfound, left, -, assets, ⟨-, rfl⟩, _, -, rfl⟩ :=
    done
  exact lasting.set each hfound rfl

theorem liqRepay_holds (lasting : Lasting K Q) {info : MessageInfo} {creditAsset : Asset}
    {response : Response OutMsg} (holds : Holds K Q s) (pending : Pending K Q s)
    (done : liqRepay deps env info creditAsset s = .ok (s', response)) :
    Holds K Q s' ∧ s'.liquidation = s.liquidation := by
  simp only [liqRepay, bind_eq_ok, liftStd_eq_ok, ofOption_eq_ok, pure_eq_ok,
    Prod.mk.injEq] at done
  obtain ⟨prop, hprop, _, -, _, -, ⟨_, burned⟩, hburn, credit, -, _, -, _, -, _, -, _, -,
    _, -, loop,
    hloop, ⟨_, basket⟩, htally, written, hwrite, rfl, -⟩ := done
  obtain ⟨hbasket, hentries⟩ := pending prop hprop
  have hburned := lasting.basket (creditBurnRevMsg_sameKinds hburn) hbasket
  have hkinds : SameKinds burned { burned with creditAsset :=
    ⟨burned.creditAsset.info, credit⟩ } := ⟨rfl, rfl⟩
  have hold : ∀ held ∈ prop.targetPosition.collateralAssets, Q held := hentries
  have hcollateral : ∀ held ∈ loop.collateralAssets, Q held :=
    foldlM_keeps (fun loop : DistributionLoop => ∀ held ∈ loop.collateralAssets, Q held)
      (fun _ _ _ hinv hstep => distributeAsset_holds lasting hinv hstep) _ _ _ hold hloop
  have htallied : SameKinds { burned with creditAsset := ⟨burned.creditAsset.info, credit⟩ }
      basket := by
    split at htally
    · exact updateBasketTally_sameKinds htally
    · exact updateBasketTally_sameKinds htally
  have hnew : EntriesHave Q { prop.targetPosition with
      creditAmount := (liqRepayAmounts prop.targetPosition.creditAmount creditAsset.amount).1
      collateralAssets := loop.collateralAssets } := hcollateral
  obtain ⟨heach, hsame⟩ := updatePosition_each hwrite hnew holds.positions
  refine ⟨⟨lasting.basket htallied (lasting.basket hkinds hburned), heach⟩, ?_⟩
  rw [hsame]

/-! ## Replies and the callback -/

theorem recordLiquidated_holds (lasting : Lasting K Q) {prop prop' : LiquidationPropagation}
    {asset : AssetInfo} {repayAmount sendAmount : Nat}
    (hentries : EntriesHave Q prop.targetPosition)
    (done : recordLiquidated prop asset repayAmount sendAmount = .ok prop') :
    prop'.basket = prop.basket ∧ EntriesHave Q prop'.targetPosition := by
  simp only [recordLiquidated, takeLiquidated, bind_eq_ok, pure_eq_ok] at done
  obtain ⟨_, -, assets, ⟨i, -, htake⟩, _, -, _, -, rfl⟩ := done
  exact ⟨rfl, lasting.takeAmount hentries htake⟩

theorem storeLiquidated_holds (lasting : Lasting K Q) {prop : LiquidationPropagation}
    (holds : Holds K Q s) (hbasket : K prop.basket) (hentries : EntriesHave Q prop.targetPosition)
    (done : storeLiquidated deps env s prop = .ok s') : Holds K Q s' := by
  simp only [storeLiquidated, bind_eq_ok, mapErr_eq_ok] at done
  obtain ⟨⟨_, basket⟩, htally, hwrite⟩ := done
  obtain ⟨heach, hsame⟩ := updatePosition_each hwrite hentries holds.positions
  refine ⟨?_, heach⟩
  rw [hsame]
  exact lasting.basket (updateBasketTally_sameKinds htally) hbasket

theorem reply_holds (lasting : Lasting K Q) {msg : Reply} {response : Response OutMsg}
    (holds : Holds K Q s) (pending : Pending K Q s)
    (done : reply deps env msg s = .ok (s', response)) : Holds K Q s' ∧ Pending K Q s' := by
  unfold reply at done
  split at done
  case isTrue =>
    simp only [handleLiqQueueReply, bind_eq_ok, ofOption_eq_ok, pure_eq_ok, Prod.mk.injEq] at done
    obtain ⟨_, -, _, -, prop, hprop, _, -, _, -, _, -, _, -, prop', hrecord, last, hstore,
      _, -, rfl,
      -⟩ := done
    obtain ⟨hbasket, hentries⟩ := pending prop hprop
    have hprop' : prop'.basket = prop.basket ∧ EntriesHave Q prop'.targetPosition := by
      split at hrecord
      case isTrue => exact recordLiquidated_holds lasting hentries hrecord
      case isFalse =>
        obtain rfl := pure_eq_ok.mp hrecord
        exact ⟨rfl, hentries⟩
    have hbasket' : K prop'.basket := hprop'.1 ▸ hbasket
    have hlast : Holds K Q last := by
      split at hstore
      case isTrue => exact storeLiquidated_holds lasting holds hbasket' hprop'.2 hstore
      case isFalse => exact pure_eq_ok.mp hstore ▸ holds
    refine ⟨⟨hlast.basket, hlast.positions⟩, fun _ hnext => ?_⟩
    obtain rfl := Option.some.inj hnext
    exact ⟨hbasket', hprop'.2⟩
  case isFalse =>
    split at done
    case isTrue =>
      simp only [handleWithdrawReply, bind_eq_ok, pure_eq_ok, Prod.mk.injEq] at done
      obtain ⟨_, -, _, -, rfl, -⟩ := done
      exact ⟨holds, pending⟩
    case isFalse =>
      split at done
      case isTrue =>
        obtain ⟨rfl, -⟩ := Prod.mk.inj (Except.ok.inj done)
        exact ⟨holds, pending⟩
      case isFalse => simp at done

theorem checkAndFulfillBadDebt_holds (lasting : Lasting K Q) {positionId : Nat}
    {response : Response OutMsg} (holds : Holds K Q s)
    (done : checkAndFulfillBadDebt positionId owner s = .ok (s', response)) :
    Holds K Q s' ∧ s'.liquidation = s.liquidation := by
  simp only [checkAndFulfillBadDebt, bind_eq_ok, liftStd_eq_ok] at done
  obtain ⟨⟨i, position⟩, htarget, _, -, _, -, _, -, written, hwrite, hrest⟩ := done
  have hold : EntriesHave Q position := holds.positions.target htarget
  have hnew : EntriesHave Q ⟨position.positionId, position.collateralAssets,
    position.creditAmount - Nat.min position.creditAmount s.basket.pendingRevenue⟩ := hold
  obtain ⟨heach, hsame⟩ := updatePosition_each hwrite hnew holds.positions
  split at hrest
  case h_1 =>
    simp only [bind_eq_ok, pure_eq_ok, Prod.mk.injEq] at hrest
    obtain ⟨_, -, rfl, -⟩ := hrest
    have hbasket : written.basket = s.basket := by rw [hsame]
    have hkinds :
        ∀ revenue, SameKinds s.basket { written.basket with pendingRevenue := revenue } := by
      rw [hbasket]
      exact fun _ => ⟨rfl, rfl⟩
    refine ⟨⟨lasting.basket (hkinds _) holds.basket, heach⟩, ?_⟩
    rw [hsame]
  case h_2 => simp at hrest

/-! ## Governance -/

theorem updateConfig_same {info : MessageInfo} {update : UpdateConfig} {response : Response OutMsg}
    (done : updateConfig deps info update s = .ok (s', response)) :
    ∃ config transfer, s' = { s with config := config, ownershipTransfer := transfer } := by
  simp only [updateConfig, bind_eq_ok, liftStd_eq_ok, pure_eq_ok, Prod.mk.injEq] at done
  obtain ⟨_, -, transfer, -, config, -, rfl, -⟩ := done
  exact ⟨config, transfer, rfl⟩

theorem editLimits_info {cAsset cAsset' : CAsset} {maxBorrowLTV maxLTV : Option Decimal}
    (done : editLimits cAsset maxBorrowLTV maxLTV = .ok cAsset') :
    cAsset'.asset = cAsset.asset := by
  simp only [editLimits, bind_eq_ok] at done
  obtain ⟨mid, hmid, hrest⟩ := done
  have hsame : mid.asset = cAsset.asset := by
    split at hmid
    · simp only [bind_eq_ok, pure_eq_ok] at hmid
      obtain ⟨_, -, rfl⟩ := hmid
      rfl
    · rw [pure_eq_ok.mp hmid]
  split at hrest
  · simp only [bind_eq_ok, pure_eq_ok] at hrest
    obtain ⟨_, -, rfl⟩ := hrest
    exact hsame
  · rwa [← pure_eq_ok.mp hrest]

theorem editCAsset_spec {info : MessageInfo} {asset : AssetInfo}
    {maxBorrowLTV maxLTV : Option Decimal} {response : Response OutMsg}
    (done : editCAsset info asset maxBorrowLTV maxLTV s = .ok (s', response)) :
    ∃ found edited,
      (s.basket.collateralTypes.find? fun cAsset => cAsset.asset.info.equal asset) = some found ∧
      editLimits found maxBorrowLTV maxLTV = .ok edited ∧
      s' = { s with basket := { s.basket with
        collateralTypes := (s.basket.collateralTypes.filter fun cAsset =>
          !cAsset.asset.info.equal edited.asset.info) ++ [edited] } } := by
  simp only [editCAsset, bind_eq_ok, ofOption_eq_ok, pure_eq_ok, Prod.mk.injEq] at done
  obtain ⟨_, -, found, hfound, edited, hedit, _, -, rfl, -⟩ := done
  exact ⟨found, edited, hfound, hedit, rfl⟩

theorem addCollateral_spec {basket : Basket} {added newCAsset : CAsset} {newQueue : Option Addr}
    {msgs : List (CosmosMsg OutMsg)}
    (done : addCollateral deps config basket added newQueue = .ok (newCAsset, msgs)) :
    ((∀ cAsset ∈ basket.collateralTypes, cAsset.asset.info ≠ newCAsset.asset.info) ∨
      ∃ pool state, added.poolInfo = some pool ∧
        deps.poolState (addrOr config.osmosisProxy) pool.poolId = .ok state ∧
        newCAsset.asset.info = .nativeToken state.sharesDenom) ∧
    newCAsset.maxBorrowLTV = added.maxBorrowLTV ∧ newCAsset.maxLTV = added.maxLTV := by
  simp only [addCollateral, bind_eq_ok, guardErr_eq_ok] at done
  obtain ⟨_, -, _, -, _, hfresh, ⟨newCAsset', _⟩, hpool, _, -, _, -, heq⟩ := done
  obtain ⟨rfl, -⟩ := Prod.mk.inj (pure_eq_ok.mp heq)
  split at hpool
  case h_1 pool hsome =>
    simp only [bind_eq_ok, pure_eq_ok, Prod.mk.injEq] at hpool
    obtain ⟨⟨share, info, _⟩, hadd, rfl, -⟩ := hpool
    simp only [addPool, bind_eq_ok, mapErr_eq_ok, ofExcept_eq_ok, pure_eq_ok, Prod.mk.injEq] at hadd
    obtain ⟨state, hstate, _, -, _, -, _, -, rfl, -⟩ := hadd
    exact ⟨.inr ⟨pool, state, hsome, hstate, rfl⟩, rfl, rfl⟩
  case h_2 =>
    simp only [bind_eq_ok, pure_eq_ok, Prod.mk.injEq] at hpool
    obtain ⟨_, -, rfl, -⟩ := hpool
    refine ⟨.inl fun cAsset hmem heq => hfresh ?_, rfl, rfl⟩
    exact List.any_eq_true.mpr ⟨cAsset, hmem, AssetInfo.equal_iff.mpr heq⟩

theorem setCap_infos (caps : List SupplyCap) (edits : List SupplyCap) :
    (edits.foldl (fun caps new =>
      match findCap caps new.assetInfo with
      | some (i, cap) => caps.set i { cap with
          supplyCapRatio := new.supplyCapRatio
          stabilityPoolRatioForDebtCap := new.stabilityPoolRatioForDebtCap }
      | none => caps) caps).map SupplyCap.assetInfo = caps.map SupplyCap.assetInfo := by
  induction edits generalizing caps with
  | nil => rfl
  | cons new rest ih =>
    rw [List.foldl_cons, ih]
    split
    case h_1 i cap hcap => exact ListEdit.map_set_same SupplyCap.assetInfo (findCap_spec hcap).1 rfl
    case h_2 => rfl

theorem editBasket_spec {info : MessageInfo} {edit : EditBasket} {response : Response OutMsg}
    (done : editBasket deps env info edit s = .ok (s', response)) :
    s'.positions = s.positions ∧ s'.liquidation = s.liquidation ∧
    ((edit.addedCAsset = none ∧ SameKinds s.basket s'.basket) ∨
      ∃ added newCAsset newQueue msgs, edit.addedCAsset = some added ∧
        addCollateral deps s.config s.basket added newQueue = .ok (newCAsset, msgs) ∧
        s'.basket.collateralTypes = s.basket.collateralTypes ++ [newCAsset] ∧
        s'.basket.collateralSupplyCaps.map SupplyCap.assetInfo =
          s.basket.collateralSupplyCaps.map SupplyCap.assetInfo ++ [newCAsset.asset.info]) := by
  simp only [editBasket, bind_eq_ok, liftStd_eq_ok, pure_eq_ok, Prod.mk.injEq] at done
  obtain ⟨_, -, newQueue, -, ⟨newCAsset, msgs⟩, hadd, rfl, -⟩ := done
  refine ⟨rfl, rfl, ?_⟩
  cases hadded : edit.addedCAsset with
  | none =>
    refine .inl ⟨rfl, ?_, ?_⟩
    · simp [EditBasket.editBasket, hadded]
    · simp only [EditBasket.editBasket, hadded, Option.isSome_none]
      exact setCap_infos _ _
  | some added =>
    simp only [hadded] at hadd
    refine .inr ⟨added, newCAsset, newQueue, msgs, rfl, hadd, ?_, ?_⟩
    · simp [EditBasket.editBasket, hadded]
    · simp only [EditBasket.editBasket, hadded, Option.isSome_some]
      refine (setCap_infos _ _).trans ?_
      simp [newSupplyCap]

theorem execute_holds (lasting : Lasting K Q) {info : MessageInfo} {msg : ExecuteMsg}
    {response : Response OutMsg} (holds : Holds K Q s)
    (pending : msg = .liqRepay → Pending K Q s)
    (user : ∀ edit, msg ≠ .editBasket edit)
    (user' : ∀ asset maxBorrowLTV maxLTV, msg ≠ .editCAsset asset maxBorrowLTV maxLTV)
    (done : execute deps env info msg s = .ok (s', response)) :
    Holds K Q s' ∧ (Pending K Q s → Pending K Q s') := by
  have hkeep : ∀ {s'}, Holds K Q s' ∧ s'.liquidation = s.liquidation →
      Holds K Q s' ∧ (Pending K Q s → Pending K Q s') := fun h =>
    ⟨h.1, fun hpending prop hprop => hpending prop (h.2.symm.trans hprop)⟩
  unfold execute at done
  cases msg with
  | updateConfig update =>
    obtain ⟨config, transfer, rfl⟩ := updateConfig_same done
    exact hkeep ⟨⟨holds.basket, holds.positions⟩, rfl⟩
  | deposit => exact hkeep (deposit_holds lasting holds done)
  | increaseDebt => exact hkeep (increaseDebt_holds lasting holds done)
  | withdraw => exact hkeep (withdraw_holds lasting holds done)
  | repay => exact hkeep (repay_holds lasting holds done)
  | liqRepay =>
    dsimp only at done
    unfold executeLiqRepay at done
    split at done
    · simp at done
    · exact hkeep (liqRepay_holds lasting holds (pending rfl) done)
  | liquidate =>
    obtain ⟨hholds, hpending⟩ := liquidate_holds lasting holds done
    exact ⟨hholds, fun _ => hpending⟩
  | redeemCollateral => exact hkeep (redeem_holds lasting holds done)
  | editRedeemability =>
    simp only [bind_eq_ok, pure_eq_ok, Prod.mk.injEq] at done
    obtain ⟨_, hedit, rfl, -⟩ := done
    exact hkeep (holds.onlyOptIn (editRedemptionInfo_onlyOptIn hedit))
  | accrue => exact hkeep (externalAccrueCall_holds lasting holds done)
  | editBasket edit => exact absurd rfl (user edit)
  | editCAsset asset maxBorrowLTV maxLTV => exact absurd rfl (user' asset maxBorrowLTV maxLTV)
  | badDebtCheck =>
    dsimp only at done
    split at done
    case isTrue => exact hkeep (checkAndFulfillBadDebt_holds lasting holds done)
    case isFalse => simp at done

end

end Membrane.Cdp
