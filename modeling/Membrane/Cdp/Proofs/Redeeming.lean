import Membrane.Cdp.Proofs.Books
import Membrane.Cdp.Proofs.Collateral

/-!
# What a redemption writes

Each opt-in entry that a redemption visits gives up collateral and debt of one
position. The kinds of collateral of a position stay, whatever is left of them.
-/

namespace Membrane.Cdp

open Outcome

/-- A position with the id, debt and kinds of collateral of another. -/
structure SameLoan (position position' : Position) : Prop where
  positionId : position'.positionId = position.positionId
  credit : position'.creditAmount = position.creditAmount
  kinds : collateralKinds position' = collateralKinds position

theorem SameLoan.refl (position : Position) : SameLoan position position := ⟨rfl, rfl, rfl⟩

theorem SameLoan.trans {p₁ p₂ p₃ : Position} (h : SameLoan p₁ p₂) (h' : SameLoan p₂ p₃) :
    SameLoan p₁ p₃ :=
  ⟨h'.positionId.trans h.positionId, h'.credit.trans h.credit, h'.kinds.trans h.kinds⟩

def Became (store store' : Store) (owner : Addr) (old new : Position) : Prop :=
  (store' = store ∧ new = old) ∨ Replaced store store' owner old new

namespace Became

variable {store store' store'' : Store} {owner : Addr} {old new last : Position} {nextId : Nat}

theorem ids (became : Became store store' owner old new) (sound : SoundIds nextId store) :
    SoundIds nextId store' := by
  rcases became with ⟨rfl, -⟩ | write
  · exact sound
  · exact write.ids sound

theorem replace (became : Became store store' owner old new)
    (next : Replaced store' store'' owner new last) (sound : SoundIds nextId store) :
    Replaced store store'' owner old last := by
  rcases became with ⟨rfl, rfl⟩ | write
  · exact next
  · exact write.trans next nextId sound

end Became

/-! ## Claims on a position -/

theorem subtractClaim_kinds {info : AssetInfo} {amount : Nat} {assets assets' : List CAsset}
    (done : subtractClaim info amount assets = .ok assets') :
    assets'.map (·.asset.info) = assets.map (·.asset.info) := by
  have hall := mapM_forall₂ done
  clear done
  induction hall with
  | nil => rfl
  | cons hhead _ ih =>
    have hinfo : ∀ {cAsset cAsset' : CAsset}, (if cAsset.asset.info.equal info = true then do
        let left ← subUint cAsset.asset.amount amount
        pure { cAsset with asset := { cAsset.asset with amount := left } }
      else pure cAsset : Outcome StdError CAsset) = .ok cAsset' →
        cAsset'.asset.info = cAsset.asset.info := by
      intro cAsset cAsset' h
      split at h
      · simp only [bind_eq_ok, pure_eq_ok] at h
        obtain ⟨_, _, rfl⟩ := h
        rfl
      · rw [pure_eq_ok.mp h]
    rw [List.map_cons, List.map_cons, ih, hinfo hhead]

theorem mapM_one {f : Position → Outcome StdError Position} {list list' : List Position}
    {i id : Nat}
    {position : Position} (distinct : (list.map Position.positionId).Nodup)
    (found : list[i]? = some position) (same : position.positionId = id)
    (others : ∀ p p', p.positionId ≠ id → f p = .ok p' → p' = p)
    (done : list.mapM f = .ok list') :
    ∃ position', f position = .ok position' ∧ list' = list.set i position' := by
  have hall := mapM_forall₂ done
  have hlen := hall.length_eq
  obtain ⟨hlt, rfl⟩ := List.getElem?_eq_some_iff.mp found
  have hget := hall.get
  have hlt' : i < list'.length := hlen ▸ hlt
  refine ⟨list'[i], hget hlt hlt', ?_⟩
  refine List.ext_getElem (by simp [hlen]) fun j hj hj' => ?_
  have hj₀ : j < list.length := hlen ▸ hj
  rw [List.getElem_set]
  split
  case isTrue hij => simp only [hij]
  case isFalse hij =>
    refine others _ _ ?_ (hget hj₀ hj)
    intro heq
    have hkeys : (list.map Position.positionId)[i]? = (list.map Position.positionId)[j]? := by
      rw [List.getElem?_map, List.getElem?_map, List.getElem?_eq_getElem hlt,
        List.getElem?_eq_getElem hj₀, Option.map_some, Option.map_some]
      exact congrArg some (same.trans heq.symm)
    exact hij ((List.getElem?_inj (by simpa using hlt) distinct).mp hkeys)

theorem updatePositionClaims_spec {deps : Deps} {env : Env} {s s' : State} {owner : Addr}
    {list : List Position} {i nextId amount : Nat} {position : Position} {info : AssetInfo}
    (sound : SoundIds nextId s.positions) (stored : s.positions.lookup owner = some list)
    (found : list[i]? = some position)
    (done : updatePositionClaims deps env s position.positionId owner info amount = .ok s') :
    ∃ position', SameLoan position position' ∧
      Replaced s.positions s'.positions owner position position' ∧
      SameBooks s.basket s'.basket ∧ s'.redemptionOptIn = s.redemptionOptIn ∧
      s'.config = s.config := by
  simp only [updatePositionClaims, bind_eq_ok, ofOption_eq_ok] at done
  obtain ⟨list', hlist, written, hmap, hrest⟩ := done
  obtain rfl : list = list' := Option.some.inj (stored.symm.trans hlist)
  obtain ⟨position', hclaim, rfl⟩ := mapM_one (sound owner list stored).distinct found rfl
    (fun p p' hne hp => by rw [if_neg hne] at hp; exact (pure_eq_ok.mp hp).symm) hmap
  have hloan : SameLoan position position' := by
    rw [if_pos rfl] at hclaim
    simp only [bind_eq_ok, pure_eq_ok] at hclaim
    obtain ⟨_, hleft, rfl⟩ := hclaim
    exact ⟨rfl, rfl, subtractClaim_kinds hleft⟩
  refine ⟨position', hloan, ?_⟩
  have hwrite :
      Replaced s.positions (s.positions.insert owner (list.set i position')) owner position
      position' := ⟨hloan.positionId, list, i, stored, found, rfl⟩
  split at hrest
  case h_1 =>
    obtain rfl := pure_eq_ok.mp hrest
    exact ⟨hwrite, .refl _, rfl, rfl⟩
  case h_2 =>
    split at hrest
    case isTrue =>
      obtain rfl := pure_eq_ok.mp hrest
      exact ⟨hwrite, .refl _, rfl, rfl⟩
    case isFalse =>
      simp only [bind_eq_ok, pure_eq_ok, mapErr_eq_ok] at hrest
      obtain ⟨⟨prices, basket⟩, htally, rfl⟩ := hrest
      exact ⟨hwrite, updateBasketTally_sameBooks htally, rfl, rfl⟩

/-! ## The assets of one position -/

/-- What the sends of one position have done to the state so far. -/
structure SendsSoFar (s s' : State) (owner : Addr) (position position' : Position) : Prop where
  loan : SameLoan position position'
  became : Became s.positions s'.positions owner position position'
  books : SameBooks s.basket s'.basket
  optIn : s'.redemptionOptIn = s.redemptionOptIn
  config : s'.config = s.config

theorem redeemAssets_spec {deps : Deps} {env : Env} {owner : Addr} {nextId : Nat}
    {redeemableValue : Decimal} {ratios : List Decimal} {cAssetPrices : List PriceResponse}
    {s : State} {position : Position} (sound : SoundIds nextId s.positions)
    (at' : positionAt s.positions owner position.positionId = some position) :
    ∀ {entries : List (CAsset × Nat)} {acc acc' : State × List Asset} {position' : Position},
      SendsSoFar s acc.1 owner position position' →
      entries.foldlM (redeemAsset deps env owner position.positionId redeemableValue ratios
        cAssetPrices) acc = .ok acc' →
      ∃ position'', SendsSoFar s acc'.1 owner position position'' := by
  intro entries
  induction entries with
  | nil =>
    intro acc acc' position' before done
    simp only [List.foldlM_nil, pure_eq_ok] at done
    exact ⟨position', done ▸ before⟩
  | cons entry rest ih =>
    intro acc acc' position' before done
    simp only [List.foldlM_cons, bind_eq_ok] at done
    obtain ⟨mid, hstep, hrest⟩ := done
    simp only [redeemAsset, bind_eq_ok, pure_eq_ok] at hstep
    obtain ⟨_, _, _, _, _, _, amount, _, sends, _, s', hclaims, rfl⟩ := hstep
    have hsound := before.became.ids sound
    have hat : positionAt acc.1.positions owner position'.positionId = some position' := by
      rcases before.became with ⟨hsame, rfl⟩ | write
      · rw [hsame]; exact at'
      · rw [before.loan.positionId]; exact write.new_at sound
    obtain ⟨list, stored, i, found⟩ := stored_of_positionAt hat
    rw [← before.loan.positionId] at hclaims
    obtain ⟨next, hloan, hwrite, hbooks, hoptIn, hconfig⟩ :=
      updatePositionClaims_spec hsound stored found hclaims
    exact ih ⟨before.loan.trans hloan, .inr (before.became.replace hwrite sound),
      before.books.trans hbooks, hoptIn.trans before.optIn, hconfig.trans before.config⟩ hrest

/-! ## One opt-in entry -/

def restrictsAll (entry : PositionRedemption) (kinds : List AssetInfo) : Bool :=
  kinds.all fun kind => entry.restrictedCollateralAssets.contains kind.toText

/-- What one visited entry redeemed: `redeemed` of what is left of its limit, of the
    position's debt, and of the credit. -/
structure RedeemRound (premium : Nat) (loop loop' : RedeemLoop) (position : Position)
    (credit redeemed : Nat) : Prop where
  left : loop'.creditAmount = ⟨(credit - redeemed) * Decimal.fractional⟩
  last : loop'.redeemableCredit = ⟨redeemed * Decimal.fractional⟩
  write : ∃ position', Replaced loop.s.positions loop'.s.positions loop.user.positionOwner position
      position' ∧ position'.creditAmount + redeemed = position.creditAmount ∧
    collateralKinds position' = collateralKinds position
  books : SameBooks loop.s.basket loop'.s.basket
  config : loop'.s.config = loop.s.config
  optIn : ∀ other, other ≠ premium →
    loop'.s.redemptionOptIn.lookup other = loop.s.redemptionOptIn.lookup other

/-- What a visited entry does: nothing when all collateral is restricted. -/
inductive RedeemVisit (premium : Nat) (loop loop' : RedeemLoop) (entry : PositionRedemption)
    (position : Position) (credit : Nat) : Prop
  | skipped (restricted : restrictsAll entry (collateralKinds position) = true)
      (state : loop'.s = loop.s) (left : loop'.creditAmount = loop.creditAmount)
      (last : loop'.redeemableCredit = loop.redeemableCredit)
  | redeemed (unrestricted : restrictsAll entry (collateralKinds position) = false)
      (round : RedeemRound premium loop loop' position credit
        (min (min entry.remainingLoanRepayment position.creditAmount) credit))

theorem removeRedemption_frame {userIndex index : Nat} {loop loop' : RedeemLoop}
    (done : removeRedemption userIndex index loop = .ok loop') :
    loop'.s = loop.s ∧ loop'.creditAmount = loop.creditAmount ∧
      loop'.redeemableCredit = loop.redeemableCredit ∧
      loop'.user.positionOwner = loop.user.positionOwner := by
  simp only [removeRedemption, bind_eq_ok, pure_eq_ok] at done
  obtain ⟨_, _, _, _, rfl⟩ := done
  exact ⟨rfl, rfl, rfl, rfl⟩

theorem removeRedemption_frame_if {c : Prop} [Decidable c] {userIndex index : Nat}
    {loop loop' : RedeemLoop}
    (done : (if c then removeRedemption userIndex index loop else pure loop) = .ok loop') :
    loop'.s = loop.s ∧ loop'.creditAmount = loop.creditAmount ∧
      loop'.redeemableCredit = loop.redeemableCredit ∧
      loop'.user.positionOwner = loop.user.positionOwner := by
  split at done
  · exact removeRedemption_frame done
  · obtain rfl := pure_eq_ok.mp done
    exact ⟨rfl, rfl, rfl, rfl⟩

theorem redeemPosition_spec {deps : Deps} {env : Env} {basket : Basket} {discountRatio : Decimal}
    {premium userIndex credit nextId : Nat} {loop loop' : RedeemLoop}
    {entry : PositionRedemption × Nat} (sound : SoundIds nextId loop.s.positions)
    (whole : loop.creditAmount = ⟨credit * Decimal.fractional⟩)
    (done : redeemPosition deps env basket discountRatio premium userIndex loop entry = .ok loop') :
    loop'.user.positionOwner = loop.user.positionOwner ∧ ∃ position,
      positionAt loop.s.positions loop.user.positionOwner entry.1.positionId = some position ∧
      RedeemVisit premium loop loop' entry.1 position credit := by
  simp only [redeemPosition, bind_eq_ok] at done
  obtain ⟨⟨i, position⟩, htarget, hrest⟩ := done
  obtain ⟨list, stored, found, hid⟩ := getTargetPosition_spec htarget
  have hat : positionAt loop.s.positions loop.user.positionOwner entry.1.positionId =
      some position := hid ▸ positionAt_of_getElem? sound stored found
  have hrestricts : (position.collateralAssets.filter fun cAsset =>
      !entry.1.restrictedCollateralAssets.contains cAsset.asset.info.toText).isEmpty =
        restrictsAll entry.1 (collateralKinds position) := by
    rw [restrictsAll, collateralKinds, List.all_map, Bool.eq_iff_iff, List.isEmpty_iff,
      List.filter_eq_nil_iff, List.all_eq_true]
    simp
  split at hrest
  case isTrue hempty =>
    obtain ⟨hs, hcredit, hlast, howner⟩ := removeRedemption_frame hrest
    exact ⟨howner, position, hat, .skipped (hrestricts ▸ hempty) hs hcredit hlast⟩
  case isFalse hopen =>
    simp only [bind_eq_ok, pure_eq_ok, liftStd_eq_ok, index_eq_ok, setIndex_eq_ok,
      decimalSubtraction_eq_ok, subUint_eq_ok] at hrest
    obtain ⟨⟨prices, ratios, cAssetPrices⟩, _, remaining, hremaining, debt, hdebt, left, ⟨_, hleft⟩,
      infoLeft, ⟨_, rfl⟩, info, _, infos, _, loop₁, hloop₁, users, _, creditValue, _, value, _,
      ⟨s₁, sends⟩, hsends, ⟨i', position₁⟩, htarget₁, debtLeft, ⟨hcovers, rfl⟩, loop₂, hloop₂, s₂,
      hupdate, rfl⟩ := hrest
    obtain rfl := Decimal.fromRatio_one hremaining
    obtain rfl := Decimal.fromRatio_one hdebt
    simp only [whole, Decimal.min_whole, Decimal.toUintFloor_whole] at hleft hloop₁ hsends
    simp only [whole, Decimal.min_whole, Decimal.toUintFloor_whole] at hcovers hloop₂ hupdate
    generalize hr : min (min entry.1.remainingLoanRepayment position.creditAmount) credit = redeemed
    rw [hr] at hleft hloop₁ hcovers hloop₂ hupdate
    subst hleft
    obtain ⟨hs₁, hcredit₁, hlast₁, howner₁⟩ := removeRedemption_frame_if hloop₁
    obtain ⟨hs₂, hcredit₂, hlast₂, howner₂⟩ := removeRedemption_frame_if hloop₂
    dsimp only at hs₁ hcredit₁ hlast₁ howner₁ hs₂ hcredit₂ hlast₂ howner₂
    rw [← hid, hs₁] at hsends
    -- the sends start from the state with the opt-in list saved
    obtain ⟨position₂, sent⟩ := redeemAssets_spec
      (s := { loop.s with
        prices := prices, redemptionOptIn := loop.s.redemptionOptIn.insert premium users })
      sound (hid ▸ hat) ⟨.refl _, .inl ⟨rfl, rfl⟩, .refl _, rfl, rfl⟩ hsends
    have hsound₁ := sent.became.ids sound
    obtain ⟨list₁, stored₁, found₁, hid₁⟩ := getTargetPosition_spec htarget₁
    have hreloaded : position₁ = position₂ := by
      have hat₁ := positionAt_of_getElem? hsound₁ stored₁ found₁
      have hat₂ : positionAt s₁.positions loop.user.positionOwner position₂.positionId =
          some position₂ := by
        rcases sent.became with ⟨hsame, rfl⟩ | write
        · rw [hsame]; exact hid ▸ hat
        · rw [sent.loan.positionId]; exact write.new_at sound
      rw [hid₁, ← hid, ← sent.loan.positionId, hat₂] at hat₁
      exact (Option.some.inj hat₁).symm
    subst hreloaded
    rw [hs₂] at hupdate
    obtain ⟨hwrite, hlast⟩ := updatePosition_replaced (s := s₁) hsound₁ stored₁ found₁ (by rfl)
      hupdate
    refine ⟨howner₂.trans howner₁, position, hat, .redeemed ?_ ?_⟩
    · rw [← hrestricts]
      simpa using hopen
    · rw [hr]
      refine {
        left := ?_
        last := hlast₂.trans hlast₁
        write := ⟨_, sent.became.replace hwrite sound, ?_, ?_⟩
        books := ?_
        config := ?_
        optIn := ?_ }
      · rw [hcredit₂, hcredit₁, Nat.sub_mul]
      · have hcredit := sent.loan.credit
        dsimp only
        omega
      · exact sent.loan.kinds
      · rw [hlast]
        exact sent.books
      · rw [hlast]
        exact sent.config
      · intro other hne
        rw [hlast]
        refine (congrArg (AList.lookup other) sent.optIn).trans ?_
        exact AList.lookup_insert_ne hne

/-! ## All entries -/

/-- The opt-in entries at some premiums, in the order a redemption goes through them. -/
def redemptionVisits (s : State) (premiums : List Nat) : List (Addr × PositionRedemption) :=
  premiums.flatMap fun premium =>
    ((s.redemptionOptIn.lookup premium).getD []).flatMap fun user =>
      user.positionInfos.map fun entry => (user.positionOwner, entry)

def visitRestricted (s : State) (visit : Addr × PositionRedemption) : Bool :=
  (positionAt s.positions visit.1 visit.2.positionId).all fun position =>
    restrictsAll visit.2 (collateralKinds position)

def visitRedeemable (s : State) (visit : Addr × PositionRedemption) : Nat :=
  if visitRestricted s visit then 0
  else min visit.2.remainingLoanRepayment
    ((positionAt s.positions visit.1 visit.2.positionId).elim 0 Position.creditAmount)

/-- What a redemption of `credit` that started in `s` has done after the entries
    `visited`, `taken` being what it redeemed so far. The opt-in lists from premium
    `next` on are as they were. -/
structure Redeeming (s : State) (credit next : Nat) (visited : List (Addr × PositionRedemption))
    (loop : RedeemLoop) (taken : Nat) : Prop where
  bound : taken ≤ credit
  left : loop.creditAmount = ⟨(credit - taken) * Decimal.fractional⟩
  debt : totalDebt loop.s.positions + taken = totalDebt s.positions
  sound : SoundIds s.basket.currentPositionId loop.s.positions
  books : SameBooks s.basket loop.s.basket
  config : loop.s.config = s.config
  optIn : ∀ premium, next ≤ premium →
    loop.s.redemptionOptIn.lookup premium = s.redemptionOptIn.lookup premium
  kinds : ∀ owner id, (positionAt loop.s.positions owner id).map collateralKinds =
    (positionAt s.positions owner id).map collateralKinds
  /-- While nothing was redeemable, nothing has happened to any debt. -/
  idle : (∀ visit ∈ visited, visitRedeemable s visit = 0) →
    taken = 0 ∧ loop.redeemableCredit = Decimal.zero ∧ ∀ owner id,
      (positionAt loop.s.positions owner id).map Position.creditAmount =
        (positionAt s.positions owner id).map Position.creditAmount
  /-- When one entry was the first with anything redeemable and the last with
      unrestricted collateral, it was all that was redeemed. -/
  single : ∀ before visit after, visited = before ++ visit :: after →
    (∀ earlier ∈ before, visitRedeemable s earlier = 0) →
    (∀ later ∈ after, visitRestricted s later = true) →
    loop.redeemableCredit = ⟨taken * Decimal.fractional⟩ ∧
      taken = min (visitRedeemable s visit) credit

theorem Redeeming.rebound {s : State} {credit next next' taken : Nat}
    {visited : List (Addr × PositionRedemption)} {loop : RedeemLoop}
    (before : Redeeming s credit next visited loop taken) (hnext : next ≤ next')
    (users : List RedemptionInfo) (user : RedemptionInfo) :
    Redeeming s credit next' visited { loop with users := users, user := user } taken :=
  { before with optIn := fun premium hle => before.optIn premium (Nat.le_trans hnext hle) }

private theorem append_singleton_cut {α : Type} {done before after : List α} {last cut : α}
    (h : done ++ [last] = before ++ cut :: after) :
    (after = [] ∧ done = before ∧ last = cut) ∨
      ∃ after', after = after' ++ [last] ∧ done = before ++ cut :: after' := by
  rcases List.eq_nil_or_concat after with rfl | ⟨after', w, rfl⟩
  · obtain ⟨hdone, hlast⟩ := List.append_inj' h rfl
    exact .inl ⟨rfl, hdone, by simpa using hlast⟩
  · have h' : done ++ [last] = (before ++ cut :: after') ++ [w] := by simpa using h
    obtain ⟨hdone, hlast⟩ := List.append_inj' h' rfl
    obtain rfl : last = w := by simpa using hlast
    exact .inr ⟨after', by simp, hdone⟩

/-- `Inv` relates the entries visited so far to the loops' variables: it is about the state
    and the credit left, and every visit keeps it. -/
structure KeptByVisits (s : State) (credit : Nat)
    (Inv : List (Addr × PositionRedemption) → RedeemLoop → Prop) : Prop where
  frame : ∀ visited loop loop', loop'.s = loop.s → loop'.creditAmount = loop.creditAmount →
    Inv visited loop → Inv visited loop'
  visit : ∀ visited loop loop' taken premium entry position,
    Redeeming s credit (premium + 1) visited loop taken →
    positionAt loop.s.positions loop.user.positionOwner entry.positionId = some position →
    RedeemVisit premium loop loop' entry position (credit - taken) → Inv visited loop →
    Inv (visited ++ [(loop.user.positionOwner, entry)]) loop'

theorem visitsOf_zipIdx (owner : Addr) (infos : List PositionRedemption) :
    (infos.zipIdx.map fun entry => (owner, entry.1)) = infos.map fun entry => (owner, entry) := by
  calc infos.zipIdx.map (fun entry => (owner, entry.1))
      = (infos.zipIdx.map Prod.fst).map (fun entry => (owner, entry)) := List.map_map.symm
    _ = _ := by rw [List.zipIdx_map_fst]

theorem visits_zipIdx (users : List RedemptionInfo) :
    (users.zipIdx.flatMap fun user =>
      user.1.positionInfos.map fun entry => (user.1.positionOwner, entry)) =
      users.flatMap fun user => user.positionInfos.map fun entry =>
        (user.positionOwner, entry) := by
  calc users.zipIdx.flatMap (fun user =>
          user.1.positionInfos.map fun entry => (user.1.positionOwner, entry))
      = (users.zipIdx.map Prod.fst).flatMap (fun user =>
          user.positionInfos.map fun entry => (user.positionOwner, entry)) := by
        rw [List.flatMap_map]
    _ = _ := by rw [List.zipIdx_map_fst]

section Visits

variable {deps : Deps} {env : Env} {basket : Basket} {discountRatio : Decimal}
  {premium userIndex credit taken : Nat} {s : State} {loop loop' : RedeemLoop}
  {visited : List (Addr × PositionRedemption)}

theorem Redeeming.restricted_eq {next : Nat} (before : Redeeming s credit next visited loop taken)
    {owner : Addr} {entry : PositionRedemption} {position : Position}
    (found : positionAt loop.s.positions owner entry.positionId = some position) :
    visitRestricted s (owner, entry) = restrictsAll entry (collateralKinds position) := by
  have hkinds := before.kinds owner entry.positionId
  rw [found, Option.map_some] at hkinds
  obtain ⟨start, hstart, hsame⟩ := Option.map_eq_some_iff.mp hkinds.symm
  rw [visitRestricted, hstart, Option.all_some, hsame]

theorem Redeeming.skip {next : Nat} (before : Redeeming s credit next visited loop taken)
    {owner : Addr} {entry : PositionRedemption}
    (restricted : visitRestricted s (owner, entry) = true)
    (state : loop'.s = loop.s) (left : loop'.creditAmount = loop.creditAmount)
    (last : loop'.redeemableCredit = loop.redeemableCredit) :
    Redeeming s credit next (visited ++ [(owner, entry)]) loop' taken := by
  have hnone : visitRedeemable s (owner, entry) = 0 := by rw [visitRedeemable, if_pos restricted]
  refine {
    bound := before.bound
    left := left.trans before.left
    debt := state ▸ before.debt
    sound := state ▸ before.sound
    books := state ▸ before.books
    config := state ▸ before.config
    optIn := state ▸ before.optIn
    kinds := state ▸ before.kinds
    idle := ?_
    single := ?_ }
  · intro hidle
    rw [state, last]
    exact before.idle fun visit hmem => hidle visit (List.mem_append_left _ hmem)
  · intro first visit after hcut hbefore hafter
    rw [last]
    rcases append_singleton_cut hcut with ⟨-, rfl, rfl⟩ | ⟨after', rfl, hvisited⟩
    · obtain ⟨rfl, hzero, -⟩ := before.idle hbefore
      rw [hnone, hzero]
      exact ⟨by simp [Decimal.zero], by simp⟩
    · exact before.single first visit after' hvisited hbefore
        fun later hmem => hafter later (List.mem_append_left _ hmem)

theorem Redeeming.round {entry : PositionRedemption} {position : Position}
    (before : Redeeming s credit (premium + 1) visited loop taken)
    (found : positionAt loop.s.positions loop.user.positionOwner entry.positionId = some position)
    (unrestricted : visitRestricted s (loop.user.positionOwner, entry) = false)
    (round : RedeemRound premium loop loop' position (credit - taken)
      (min (min entry.remainingLoanRepayment position.creditAmount) (credit - taken))) :
    ∃ taken', Redeeming s credit (premium + 1) (visited ++ [(loop.user.positionOwner, entry)]) loop'
      taken' := by
  obtain ⟨position', hwrite, hcredit, hkinds⟩ := round.write
  have hid : position.positionId = entry.positionId := by
    obtain ⟨list, -, hfind⟩ := Option.bind_eq_some_iff.mp found
    simpa using List.find?_some hfind
  have hold := hwrite.old_at before.sound
  have hnew := hwrite.new_at before.sound
  generalize hr : min (min entry.remainingLoanRepayment position.creditAmount) (credit - taken) =
    redeemed
  rw [hr] at hcredit
  have hround := round
  rw [hr] at hround
  -- what the entry lets be redeemed, when no debt has moved yet
  have hredeemable : (∀ owner id,
      (positionAt loop.s.positions owner id).map Position.creditAmount =
        (positionAt s.positions owner id).map Position.creditAmount) →
      visitRedeemable s (loop.user.positionOwner, entry) =
        min entry.remainingLoanRepayment position.creditAmount := by
    intro hsame
    have hdebt := hsame loop.user.positionOwner entry.positionId
    rw [found, Option.map_some] at hdebt
    obtain ⟨start, hstart, hstartDebt⟩ := Option.map_eq_some_iff.mp hdebt.symm
    rw [visitRedeemable, if_neg (by simp [unrestricted]), hstart, Option.elim_some, hstartDebt]
  have hbound := before.bound
  refine ⟨taken + redeemed, {
    bound := by omega
    left := ?_
    debt := ?_
    sound := hwrite.ids before.sound
    books := before.books.trans round.books
    config := round.config.trans before.config
    optIn := ?_
    kinds := ?_
    idle := ?_
    single := ?_ }⟩
  · rw [hround.left, Nat.sub_sub]
  · have hdebt := hwrite.debt
    have := before.debt
    omega
  · intro other hother
    rw [round.optIn other (by omega), before.optIn other hother]
  · intro owner id
    rw [← before.kinds owner id]
    by_cases hthis : owner = loop.user.positionOwner ∧ id = position.positionId
    · obtain ⟨rfl, rfl⟩ := hthis
      rw [hnew, hold, Option.map_some, Option.map_some, hkinds]
    · rw [hwrite.other_at (by tauto)]
  · intro hidle
    obtain ⟨rfl, -, hsame⟩ := before.idle
      fun visit hmem => hidle visit (List.mem_append_left _ hmem)
    have hnone := hidle (loop.user.positionOwner, entry) (by simp)
    rw [hredeemable hsame] at hnone
    obtain rfl : redeemed = 0 := by omega
    refine ⟨rfl, ?_, ?_⟩
    · rw [hround.last]
      simp [Decimal.zero]
    · intro owner id
      rw [← hsame owner id]
      by_cases hthis : owner = loop.user.positionOwner ∧ id = position.positionId
      · obtain ⟨rfl, rfl⟩ := hthis
        rw [hnew, hold, Option.map_some, Option.map_some, ← hcredit, Nat.add_zero]
      · rw [hwrite.other_at (by tauto)]
  · intro first visit after hcut hbefore hafter
    rcases append_singleton_cut hcut with ⟨-, rfl, rfl⟩ | ⟨after', rfl, -⟩
    · obtain ⟨rfl, -, hsame⟩ := before.idle hbefore
      rw [hround.last, hredeemable hsame, Nat.zero_add]
      exact ⟨rfl, by simpa using hr.symm⟩
    · have := hafter (loop.user.positionOwner, entry) (by simp)
      rw [unrestricted] at this
      cases this

theorem redeemPosition_redeeming {entry : PositionRedemption × Nat}
    (before : Redeeming s credit (premium + 1) visited loop taken)
    (done : redeemPosition deps env basket discountRatio premium userIndex loop entry = .ok loop') :
    loop'.user.positionOwner = loop.user.positionOwner ∧ ∃ taken',
      Redeeming s credit (premium + 1) (visited ++ [(loop.user.positionOwner, entry.1)]) loop'
        taken' := by
  obtain ⟨howner, position, found, visit⟩ := redeemPosition_spec before.sound before.left done
  refine ⟨howner, ?_⟩
  have hrestricted := before.restricted_eq found
  cases visit with
  | skipped restricted state left last =>
    exact ⟨taken, before.skip (hrestricted.trans restricted) state left last⟩
  | redeemed unrestricted round =>
    exact before.round found (hrestricted.trans unrestricted) round

variable {Inv : List (Addr × PositionRedemption) → RedeemLoop → Prop}

theorem KeptByVisits.positions (rule : KeptByVisits s credit Inv) {owner : Addr} :
    ∀ {entries : List (PositionRedemption × Nat)} {visited : List (Addr × PositionRedemption)}
      {loop loop' : RedeemLoop} {taken : Nat}, loop.user.positionOwner = owner →
      Redeeming s credit (premium + 1) visited loop taken → Inv visited loop →
      entries.foldlM (redeemPosition deps env basket discountRatio premium userIndex) loop =
        .ok loop' →
      ∃ taken', Redeeming s credit (premium + 1)
        (visited ++ entries.map fun entry => (owner, entry.1)) loop' taken' ∧
        Inv (visited ++ entries.map fun entry => (owner, entry.1)) loop' := by
  intro entries
  induction entries with
  | nil =>
    intro visited loop loop' taken _ before hinv done
    simp only [List.foldlM_nil, pure_eq_ok] at done
    exact ⟨taken, by simpa using done ▸ ⟨before, hinv⟩⟩
  | cons entry rest ih =>
    intro visited loop loop' taken howner before hinv done
    simp only [List.foldlM_cons, bind_eq_ok] at done
    obtain ⟨mid, hstep, hrest⟩ := done
    obtain ⟨hmid, taken₁, next⟩ := redeemPosition_redeeming before hstep
    obtain ⟨-, position, found, visit⟩ := redeemPosition_spec before.sound before.left hstep
    have hvisited :=
      rule.visit visited loop mid taken premium entry.1 position before found visit hinv
    obtain ⟨taken₂, last⟩ := ih (hmid.trans howner) next hvisited hrest
    exact ⟨taken₂, by simpa [howner] using last⟩

theorem KeptByVisits.users (rule : KeptByVisits s credit Inv) :
    ∀ {users : List (RedemptionInfo × Nat)} {visited : List (Addr × PositionRedemption)}
      {loop loop' : RedeemLoop} {taken : Nat},
      Redeeming s credit (premium + 1) visited loop taken → Inv visited loop →
      users.foldlM (redeemUser deps env basket discountRatio premium) loop = .ok loop' →
      ∃ taken', Redeeming s credit (premium + 1) (visited ++ users.flatMap fun user =>
          user.1.positionInfos.map fun entry => (user.1.positionOwner, entry)) loop' taken' ∧
        Inv (visited ++ users.flatMap fun user =>
          user.1.positionInfos.map fun entry => (user.1.positionOwner, entry)) loop' := by
  intro users
  induction users with
  | nil =>
    intro visited loop loop' taken before hinv done
    simp only [List.foldlM_nil, pure_eq_ok] at done
    exact ⟨taken, by simpa using done ▸ ⟨before, hinv⟩⟩
  | cons user rest ih =>
    intro visited loop loop' taken before hinv done
    simp only [List.foldlM_cons, bind_eq_ok] at done
    obtain ⟨mid, hstep, hrest⟩ := done
    have hstart : Redeeming s credit (premium + 1) visited { loop with user := user.1 } taken :=
      before.rebound (Nat.le_refl _) loop.users user.1
    obtain ⟨taken₁, next, hmid⟩ :=
      rule.positions rfl hstart (rule.frame visited loop _ rfl rfl hinv) hstep
    obtain ⟨taken₂, last⟩ := ih next hmid hrest
    exact ⟨taken₂, by simpa [visitsOf_zipIdx] using last⟩

theorem KeptByVisits.onePremium (rule : KeptByVisits s credit Inv)
    (before : Redeeming s credit premium visited loop taken) (hinv : Inv visited loop)
    (done : redeemPremium deps env basket loop premium = .ok loop') :
    (loop.creditAmount.isZero = true ∧ loop' = loop) ∨
      (loop.creditAmount.isZero = false ∧ ∃ taken', Redeeming s credit (premium + 1)
        (visited ++ redemptionVisits s [premium]) loop' taken' ∧
        Inv (visited ++ redemptionVisits s [premium]) loop') := by
  simp only [redeemPremium, bind_eq_ok] at done
  obtain ⟨ratio, -, hrest⟩ := done
  split at hrest
  case isTrue hzero => exact .inl ⟨hzero, (pure_eq_ok.mp hrest).symm⟩
  case isFalse hleft =>
    refine .inr ⟨by simpa using hleft, ?_⟩
    have hstart : Redeeming s credit (premium + 1) visited
        { loop with users := (loop.s.redemptionOptIn.lookup premium).getD [] } taken :=
      before.rebound (Nat.le_succ _) _ loop.user
    obtain ⟨taken', last⟩ := rule.users hstart (rule.frame visited loop _ rfl rfl hinv) hrest
    rw [before.optIn premium (Nat.le_refl _), visits_zipIdx] at last
    exact ⟨taken', by simpa [redemptionVisits] using last⟩

end Visits

/-! ## The whole redemption -/

section Whole

variable {deps : Deps} {env : Env} {basket : Basket} {credit : Nat} {s : State}

theorem Redeeming.start (credit : Nat) (sound : s.Sound) :
    Redeeming s credit 0 [] ⟨s, ⟨credit * Decimal.fractional⟩, Decimal.zero, [], [],
      ⟨"", []⟩⟩ 0 := by
  refine ⟨Nat.zero_le _, rfl, rfl, sound, .refl _, rfl, fun _ _ => rfl, fun _ _ => rfl,
    fun _ => ⟨rfl, rfl, fun _ _ => rfl⟩, ?_⟩
  intro before visit after hcut
  cases before <;> cases hcut

theorem KeptByVisits.premiums {Inv : List (Addr × PositionRedemption) → RedeemLoop → Prop}
    (rule : KeptByVisits s credit Inv) {start : RedeemLoop}
    (before : Redeeming s credit 0 [] start 0) (hinv : Inv [] start) :
    ∀ {count : Nat} {loop : RedeemLoop},
      (List.range count).foldlM (redeemPremium deps env basket) start = .ok loop →
      ∃ visited taken,
        Redeeming s credit count (redemptionVisits s (List.range visited)) loop taken ∧
        Inv (redemptionVisits s (List.range visited)) loop ∧
        visited ≤ count ∧ (visited = count ∨ loop.creditAmount.isZero = true) := by
  intro count
  induction count with
  | zero =>
    intro loop done
    simp only [List.range_zero, List.foldlM_nil, pure_eq_ok] at done
    exact ⟨0, 0, done ▸ before, done ▸ hinv, Nat.le_refl _, .inl rfl⟩
  | succ count ih =>
    intro loop done
    simp only [List.range_succ, List.foldlM_append, List.foldlM_cons, List.foldlM_nil,
      bind_eq_ok, pure_eq_ok] at done
    obtain ⟨mid, hfirst, last, hstep, rfl⟩ := done
    obtain ⟨visited, taken, hmid, hmidInv, hle, hstop⟩ := ih hfirst
    rcases rule.onePremium hmid hmidInv hstep with ⟨hzero, rfl⟩ | ⟨hleft, taken', hlast⟩
    · have hnext := hmid.rebound (Nat.le_succ _) last.users last.user
      exact ⟨visited, taken, hnext, hmidInv, Nat.le_succ_of_le hle, .inr hzero⟩
    · obtain rfl : visited = count := by
        rcases hstop with h | h
        · exact h
        · rw [hleft] at h
          cases h
      refine ⟨visited + 1, taken', ?_⟩
      rw [List.range_succ, redemptionVisits, List.flatMap_append]
      exact ⟨hlast.1, hlast.2, Nat.le_refl _, .inl rfl⟩

theorem redeemPremiums_redeeming {start loop : RedeemLoop} {count : Nat}
    (before : Redeeming s credit 0 [] start 0)
    (done : (List.range count).foldlM (redeemPremium deps env basket) start = .ok loop) :
    ∃ visited taken,
      Redeeming s credit count (redemptionVisits s (List.range visited)) loop taken ∧
      visited ≤ count ∧ (visited = count ∨ loop.creditAmount.isZero = true) := by
  have hnothing : KeptByVisits s credit fun _ _ => True :=
    ⟨fun _ _ _ _ _ _ => trivial, fun _ _ _ _ _ _ _ _ _ _ _ => trivial⟩
  obtain ⟨visited, taken, run, -, hcount, hstop⟩ := hnothing.premiums before trivial done
  exact ⟨visited, taken, run, hcount, hstop⟩

theorem redeemPremiums_used_up : ∀ {premiums : List Nat} {loop loop' : RedeemLoop},
    loop.creditAmount.isZero = true →
    premiums.foldlM (redeemPremium deps env basket) loop = .ok loop' → loop' = loop := by
  intro premiums
  induction premiums with
  | nil =>
    intro loop loop' _ done
    simp only [List.foldlM_nil, pure_eq_ok] at done
    exact done.symm
  | cons premium rest ih =>
    intro loop loop' hzero done
    simp only [List.foldlM_cons, bind_eq_ok, redeemPremium, hzero, if_true, pure_eq_ok] at done
    obtain ⟨mid, ⟨_, -, rfl⟩, hrest⟩ := done
    exact ih hzero hrest

/-- Of the entries that a redemption of `credit` visits until its credit is used up,
    only the last with any unrestricted collateral has something to redeem. -/
def RedeemsOnce (s : State) (credit maxCollateralPremium : Nat) : Prop :=
  ∃ upTo before visit after, upTo ≤ maxCollateralPremium ∧
    redemptionVisits s (List.range (upTo + 1)) = before ++ visit :: after ∧
    (∀ earlier ∈ before, visitRedeemable s earlier = 0) ∧
    (∀ later ∈ after, visitRestricted s later = true) ∧
    (upTo = maxCollateralPremium ∨ credit ≤ visitRedeemable s visit)

theorem Redeeming.used_up_iff {next taken : Nat} {visited : List (Addr × PositionRedemption)}
    {loop : RedeemLoop} (run : Redeeming s credit next visited loop taken) :
    loop.creditAmount.isZero = true ↔ taken = credit := by
  have hbound := run.bound
  rw [run.left, Decimal.isZero, beq_iff_eq, Nat.mul_eq_zero]
  have hne : Decimal.fractional ≠ 0 := by decide
  omega

theorem redeemsOnce_last {maxCollateralPremium : Nat} {start loop : RedeemLoop}
    (before : Redeeming s credit 0 [] start 0) (positive : 0 < credit)
    (once : RedeemsOnce s credit maxCollateralPremium)
    (done : (List.range (maxCollateralPremium + 1)).foldlM (redeemPremium deps env basket) start =
      .ok loop) :
    ∃ taken, loop.redeemableCredit = ⟨taken * Decimal.fractional⟩ ∧
      loop.creditAmount = ⟨(credit - taken) * Decimal.fractional⟩ ∧ taken ≤ credit := by
  obtain ⟨upTo, first, visit, after, hle, hvisits, hfirst, hafter, hstop⟩ := once
  have hrange : List.range (maxCollateralPremium + 1) =
      List.range (upTo + 1) ++ (List.range (maxCollateralPremium - upTo)).map (upTo + 1 + ·) := by
    rw [← List.range_add]
    congr 1
    omega
  rw [hrange, List.foldlM_append] at done
  obtain ⟨mid, hmid, hrest⟩ := bind_eq_ok.mp done
  obtain ⟨visited, taken, run, hcount, hend⟩ := redeemPremiums_redeeming before hmid
  have htaken : mid.redeemableCredit = ⟨taken * Decimal.fractional⟩ ∧
      (visited = upTo + 1 → taken = min (visitRedeemable s visit) credit) := by
    by_cases hall : visited = upTo + 1
    · subst hall
      obtain ⟨hlast, hmin⟩ := run.single first visit after hvisits hfirst hafter
      exact ⟨hlast, fun _ => hmin⟩
    · -- the credit was used up before, so the one entry had been visited
      have hused : taken = credit := run.used_up_iff.mp (hend.resolve_left hall)
      have hprefix : redemptionVisits s (List.range (upTo + 1)) =
          redemptionVisits s (List.range visited) ++ redemptionVisits s
            ((List.range (upTo + 1 - visited)).map (visited + ·)) := by
        rw [redemptionVisits, redemptionVisits, redemptionVisits, ← List.flatMap_append,
          ← List.range_add]
        congr 2
        omega
      rw [hvisits] at hprefix
      have hidle : ¬ ∀ earlier ∈ redemptionVisits s (List.range visited),
          visitRedeemable s earlier = 0 := by
        intro hnone
        have := (run.idle hnone).1
        omega
      rcases List.append_eq_append_iff.mp hprefix with ⟨c, hc, hrest'⟩ | ⟨c, hc, -⟩
      · cases c with
        | nil =>
          exact absurd (fun earlier hmem => hfirst earlier (by simpa [hc] using hmem)) hidle
        | cons head tail =>
          obtain ⟨rfl, rfl⟩ := List.cons.inj hrest'
          obtain ⟨hlast, -⟩ := run.single first visit tail hc hfirst
            fun later hmem => hafter later (List.mem_append_left _ hmem)
          exact ⟨hlast, fun h => absurd h hall⟩
      · exact absurd (fun earlier hmem => hfirst earlier (hc ▸ List.mem_append_left _ hmem)) hidle
  have hsame : loop = mid := by
    rcases hstop with rfl | hcovers
    · simp only [Nat.sub_self, List.range_zero, List.map_nil, List.foldlM_nil, pure_eq_ok] at hrest
      exact hrest.symm
    · refine redeemPremiums_used_up (run.used_up_iff.mpr ?_) hrest
      rcases hend with hall | hzero
      · rw [htaken.2 hall]
        omega
      · exact run.used_up_iff.mp hzero
  rw [hsame]
  exact ⟨taken, htaken.1, run.left, run.bound⟩

theorem sentCredit_spec {info : MessageInfo} {denom : String}
    (done : sentCredit info denom = .ok credit) : info.funds = [⟨denom, credit⟩] ∧ 0 < credit := by
  unfold sentCredit at done
  split at done
  case h_1 coin hfunds =>
    split at done
    case isTrue hdenom =>
      obtain rfl := pure_eq_ok.mp done
      refine ⟨by rw [hfunds, ← hdenom], ?_⟩
      exact info.positive coin (by rw [hfunds]; exact List.mem_singleton_self coin)
    case isFalse => simp at done
  case h_2 => simp at done

/-- What a redemption did: it took `taken` off the positions and nothing off the
    basket. -/
structure Redeemed (s s' : State) (credit taken : Nat) : Prop where
  positive : 0 < taken
  bound : taken ≤ credit
  moved : Moved s s' { repaid := taken }
  kinds : ∀ owner id, (positionAt s'.positions owner id).map collateralKinds =
    (positionAt s.positions owner id).map collateralKinds

theorem redeemForCollateral_spec {info : MessageInfo} {maxCollateralPremium : Nat} {s' : State}
    {response : Response OutMsg} (sound : s.Sound)
    (done : redeemForCollateral deps env info maxCollateralPremium s = .ok (s', response)) :
    ∃ credit taken,
      sentCredit info s.basket.creditAsset.info.toText = .ok credit ∧
      Redeemed s s' credit taken ∧ (∀ denom, minted denom response = 0) ∧
      (s.config.osmosisProxy.isSome → RedeemsOnce s credit maxCollateralPremium →
        burned s.basket.creditAsset.info.toText response = taken) := by
  simp only [redeemForCollateral, bind_eq_ok, pure_eq_ok, guardErr_eq_ok, liftStd_eq_ok,
    Prod.mk.injEq] at done
  obtain ⟨credit, hsent, _, hcredit, loop, hloop, _, hsome, coins, _, rfl, rfl⟩ := done
  obtain rfl := Decimal.fromRatio_one hcredit
  have hpositive : 0 < credit := (sentCredit_spec hsent).2
  have hstart := Redeeming.start credit sound
  obtain ⟨visited, taken, run, -, -⟩ := redeemPremiums_redeeming hstart hloop
  have hexcess : Inert (if loop.creditAmount.isZero = true then [] else
      [.bankSend info.sender
        [⟨s.basket.creditAsset.info.toText, loop.creditAmount.toUintFloor⟩]]) := by
    split
    · exact .nil
    · exact .bankSend _ _
  have htaken : 0 < taken := by
    refine Nat.pos_of_ne_zero fun hzero => hsome ?_
    rw [run.left, hzero, Nat.sub_zero]
  refine ⟨credit, taken, hsent, ⟨htaken, run.bound, ⟨?_, ?_, ?_, ?_, ?_⟩, run.kinds⟩, ?_, ?_⟩
  · simpa using run.debt
  · simp [run.books.creditAsset]
  · simp [run.books.pendingRevenue]
  · rw [run.books.creditAsset]
  · rw [run.books.currentPositionId]
    exact run.sound
  · intro denom
    rw [minted_addMessages, List.map_append, List.map_append, List.sum_append, List.sum_append,
      (Inert.bankSend _ _).minted, hexcess.minted]
    split
    · simp [(burnMsg_amounts _ _ _ _).2]
    · rfl
  · intro hproxy once
    obtain ⟨taken', hlast, hleft, hbound⟩ := redeemsOnce_last hstart hpositive once hloop
    have hsame : taken' = taken := by
      have hatomics := congrArg Decimal.atomics (run.left.symm.trans hleft)
      have hwhole := Nat.eq_of_mul_eq_mul_right (by decide) hatomics
      have := run.bound
      omega
    obtain ⟨proxy, hproxy⟩ := Option.isSome_iff_exists.mp hproxy
    rw [burned_addMessages, List.map_append, List.map_append, List.sum_append, List.sum_append,
      (Inert.bankSend _ _).burned, hexcess.burned, hproxy, hlast, Decimal.toUintFloor_whole]
    simp only
    rw [(burnMsg_amounts _ _ _ _).1]
    omega

end Whole

end Membrane.Cdp
