import Membrane.Cdp.Proofs.Alignment
import Membrane.Cdp.Proofs.Verdict
import Membrane.Cdp.Transaction

/-!
# Whose limits a position carries

A position carries the limits that its assets had when they were deposited. They are
the basket's limits in every state of a run in which no edit changes the limits of an
asset that a stored position holds; then amounts, debt and prices decide the verdict.
-/

namespace Membrane.Cdp

open Outcome

def limitsOf (basket : Basket) (info : AssetInfo) : Option (Decimal × Decimal) :=
  (basket.collateralTypes.find? fun cAsset => cAsset.asset.info.equal info).map fun cAsset =>
    (cAsset.maxBorrowLTV, cAsset.maxLTV)

def Carries (limits : AssetInfo → Option (Decimal × Decimal)) (cAsset : CAsset) : Prop :=
  limits cAsset.asset.info = some (cAsset.maxBorrowLTV, cAsset.maxLTV)

/-- Every collateral entry of every stored position has the limits of the basket's
    collateral type of its asset. -/
def Uniform (s : State) : Prop :=
  EachPosition (EntriesHave (Carries (limitsOf s.basket))) s.positions

theorem limitsOf_eq_terms (basket : Basket) (info : AssetInfo) :
    limitsOf basket info =
      ((basket.collateralTypes.map terms).find? fun key => key.1.equal info).map Prod.snd := by
  rw [List.find?_map, Option.map_map]
  rfl

theorem limitsOf_sameKinds {basket basket' : Basket} (same : SameKinds basket basket') :
    limitsOf basket' = limitsOf basket := by
  funext info
  rw [limitsOf_eq_terms, limitsOf_eq_terms, same.types]

theorem lasting_limits (limits : AssetInfo → Option (Decimal × Decimal)) :
    Lasting (fun basket => limitsOf basket = limits) (Carries limits) where
  basket same h := (limitsOf_sameKinds same).trans h
  entry same h := by
    simp only [terms, Prod.mk.injEq] at same
    rw [Carries, same.1, same.2.1, same.2.2]
    exact h
  deposited h hfind := by
    have hequal := List.find?_some hfind
    have hinfo := AssetInfo.equal_iff.mp hequal
    rw [Carries, ← h, limitsOf, hinfo, hfind, Option.map_some]

theorem Uniform.holds {s : State} (uniform : Uniform s) :
    Holds (fun basket => limitsOf basket = limitsOf s.basket) (Carries (limitsOf s.basket)) s :=
  ⟨rfl, uniform⟩

theorem Holds.uniform {s : State} {limits : AssetInfo → Option (Decimal × Decimal)}
    (holds : Holds (fun basket => limitsOf basket = limits) (Carries limits) s) : Uniform s := by
  rw [Uniform, holds.basket]
  exact holds.positions

/-! ## Governance -/

/-- An edit that gives the type the limits it has, or is of an asset that no stored
    position holds. -/
def EditsNoneHeld (s : State) (asset : AssetInfo) (maxBorrowLTV maxLTV : Option Decimal) : Prop :=
  limitsOf s.basket asset =
      (limitsOf s.basket asset).map (fun limits =>
        (maxBorrowLTV.getD limits.1, maxLTV.getD limits.2)) ∨
    EachPosition (EntriesHave fun cAsset => cAsset.asset.info ≠ asset) s.positions

section

variable {deps : Deps} {env : Env} {info : MessageInfo} {s s' : State} {response : Response OutMsg}

theorem editLimits_limits {cAsset cAsset' : CAsset} {maxBorrowLTV maxLTV : Option Decimal}
    (done : editLimits cAsset maxBorrowLTV maxLTV = .ok cAsset') :
    cAsset'.maxBorrowLTV = maxBorrowLTV.getD cAsset.maxBorrowLTV ∧
      cAsset'.maxLTV = maxLTV.getD cAsset.maxLTV := by
  simp only [editLimits, bind_eq_ok] at done
  obtain ⟨mid, hmid, hrest⟩ := done
  have hmax : mid.maxLTV = maxLTV.getD cAsset.maxLTV ∧ mid.maxBorrowLTV = cAsset.maxBorrowLTV := by
    split at hmid
    · simp only [bind_eq_ok, pure_eq_ok] at hmid
      obtain ⟨_, -, rfl⟩ := hmid
      exact ⟨rfl, rfl⟩
    · rw [pure_eq_ok.mp hmid]
      exact ⟨rfl, rfl⟩
  split at hrest
  · simp only [bind_eq_ok, pure_eq_ok] at hrest
    obtain ⟨_, -, rfl⟩ := hrest
    exact ⟨rfl, hmax.1⟩
  · rw [← pure_eq_ok.mp hrest]
    exact ⟨hmax.2, hmax.1⟩

theorem editCAsset_limits {asset : AssetInfo} {maxBorrowLTV maxLTV : Option Decimal}
    (done : editCAsset info asset maxBorrowLTV maxLTV s = .ok (s', response)) :
    s'.positions = s.positions ∧
      limitsOf s'.basket asset = (limitsOf s.basket asset).map (fun limits =>
        (maxBorrowLTV.getD limits.1, maxLTV.getD limits.2)) ∧
      ∀ other, other ≠ asset → limitsOf s'.basket other = limitsOf s.basket other := by
  obtain ⟨found, edited, hfound, hedit, rfl⟩ := editCAsset_spec done
  have hequal := List.find?_some hfound
  have hinfo : edited.asset.info = asset := by
    rw [editLimits_info hedit]
    exact AssetInfo.equal_iff.mp hequal
  obtain ⟨hborrow, hmax⟩ := editLimits_limits hedit
  refine ⟨rfl, ?_, fun other hother => ?_⟩
  · have hdropped : (s.basket.collateralTypes.filter fun cAsset =>
        !cAsset.asset.info.equal edited.asset.info).find?
          (fun cAsset => cAsset.asset.info.equal asset) = none := by
      refine List.find?_eq_none.mpr fun cAsset hmem => ?_
      have hne := (List.mem_filter.mp hmem).2
      rw [hinfo] at hne
      simpa only [Bool.not_eq_true', Bool.not_eq_true] using hne
    have hlast : [edited].find? (fun cAsset => cAsset.asset.info.equal asset) = some edited :=
      List.find?_cons_of_pos (AssetInfo.equal_iff.mpr hinfo)
    simp only [limitsOf, List.find?_append, hdropped, hfound, hlast, Option.none_or,
      Option.map_some, hborrow, hmax]
  · have hlast : [edited].find? (fun cAsset => cAsset.asset.info.equal other) = none := by
      refine List.find?_cons_of_neg (mt AssetInfo.equal_iff.mp ?_)
      rw [hinfo]
      exact hother.symm
    have hkept : (s.basket.collateralTypes.filter fun cAsset =>
        !cAsset.asset.info.equal edited.asset.info).find?
          (fun cAsset => cAsset.asset.info.equal other) =
        s.basket.collateralTypes.find? fun cAsset => cAsset.asset.info.equal other := by
      rw [List.find?_filter]
      congr 1
      funext cAsset
      by_cases h : cAsset.asset.info.equal other = true
      · have hne : ¬ cAsset.asset.info.equal edited.asset.info = true := by
          rw [AssetInfo.equal_iff, hinfo, AssetInfo.equal_iff.mp h]
          exact hother
        simp [h, hne]
      · simp [h]
    simp only [limitsOf, List.find?_append, hkept, hlast, Option.or_none]

theorem editCAsset_uniform {asset : AssetInfo} {maxBorrowLTV maxLTV : Option Decimal}
    (uniform : Uniform s) (edits : EditsNoneHeld s asset maxBorrowLTV maxLTV)
    (done : editCAsset info asset maxBorrowLTV maxLTV s = .ok (s', response)) : Uniform s' := by
  obtain ⟨hpositions, hedited, hothers⟩ := editCAsset_limits done
  rw [Uniform, hpositions]
  rcases edits with hsame | hnone
  · have hlimits : limitsOf s'.basket = limitsOf s.basket := by
      funext other
      by_cases h : other = asset
      · rw [h, hedited, ← hsame]
      · exact hothers other h
    rw [hlimits]
    exact uniform
  · intro owner list stored position hmem cAsset hcAsset
    rw [Carries, hothers _ (hnone owner list stored position hmem cAsset hcAsset)]
    exact uniform owner list stored position hmem cAsset hcAsset

theorem editBasket_uniform {edit : EditBasket} (uniform : Uniform s)
    (done : editBasket deps env info edit s = .ok (s', response)) : Uniform s' := by
  obtain ⟨hpositions, -, ⟨-, same⟩ | ⟨_, new, _, _, -, -, htypes, -⟩⟩ := editBasket_spec done
  · rw [Uniform, hpositions, limitsOf_sameKinds same]
    exact uniform
  · rw [Uniform, hpositions]
    intro owner list stored position hmem cAsset hcAsset
    have hold := uniform owner list stored position hmem cAsset hcAsset
    obtain ⟨found, hfound, hlimits⟩ := Option.map_eq_some_iff.mp hold
    rw [Carries, limitsOf, htypes, List.find?_append, hfound, Option.some_or, Option.map_some,
      hlimits]

end

/-! ## Transactions -/

section

variable {K : Basket → Prop} {Q : CAsset → Prop}

theorem carryOut_holds (lasting : Lasting K Q) {env : Env} {p p' : Progress} {sub : SubMsg OutMsg}
    (holds : Holds K Q p.state ∧ Pending K Q p.state) (done : carryOut env p sub = some p') :
    Holds K Q p'.state ∧ Pending K Q p'.state := by
  have hexecute : ∀ {deps : Deps} {info : MessageInfo} {msg : ExecuteMsg} {s' : State}
      {response : Response OutMsg}, (∀ edit, msg ≠ .editBasket edit) →
      (∀ asset maxBorrowLTV maxLTV, msg ≠ .editCAsset asset maxBorrowLTV maxLTV) →
      execute deps env info msg p.state = .ok (s', response) →
      Holds K Q s' ∧ Pending K Q s' := by
    intro deps info msg s' response huser huser' hdone
    obtain ⟨hholds, hpending⟩ :=
      execute_holds lasting holds.1 (fun _ => holds.2) huser huser' hdone
    exact ⟨hholds, hpending holds.2⟩
  unfold carryOut at done
  split at done
  case h_1 =>
    unfold carryRepay at done
    split at done
    case h_1 => cases done
    case h_2 =>
      split at done
      case isFalse => cases done
      case isTrue =>
        split at done
        case h_1 hdone =>
          obtain rfl := Option.some.inj done
          exact hexecute (fun _ => by simp) (fun _ _ _ => by simp) hdone
        case h_2 => cases done
  case h_2 =>
    unfold carryAsk at done
    split at done
    case h_1 => cases done
    case h_2 =>
      split at done
      case h_1 hdone =>
        obtain rfl := Option.some.inj done
        exact reply_holds lasting holds.1 holds.2 hdone
      case h_2 => cases done
  case h_3 =>
    unfold carryLiqRepay at done
    split at done
    case h_1 => cases done
    case h_2 =>
      split at done
      case isFalse => cases done
      case isTrue =>
        split at done
        case h_1 hdone =>
          obtain rfl := Option.some.inj done
          exact hexecute (fun _ => by simp) (fun _ _ _ => by simp) hdone
        case h_2 => cases done
  case h_4 =>
    split at done
    case h_1 hdone =>
      obtain ⟨hholds, hliquidation⟩ := checkAndFulfillBadDebt_holds lasting holds.1 hdone
      split at done
      case isTrue =>
        obtain rfl := Option.some.inj done
        exact ⟨hholds, fun prop hprop => holds.2 prop (hliquidation.symm.trans hprop)⟩
      case isFalse => exact Option.some.inj done ▸ holds
    case h_2 => exact Option.some.inj done ▸ holds
  case h_5 =>
    obtain rfl := Option.some.inj done
    exact holds
  case h_6 =>
    obtain rfl := Option.some.inj done
    exact holds
  case h_7 => exact Option.some.inj done ▸ holds

theorem Liquidation.exec_holds (lasting : Lasting K Q) {l : Liquidation} {s : State} {p : Progress}
    (holds : Holds K Q s) (done : l.exec s = some p) : Holds K Q p.state := by
  have hboth : Holds K Q p.state ∧ Pending K Q p.state :=
    Liquidation.exec_keeps (fun s => Holds K Q s ∧ Pending K Q s)
      (fun _ _ hliquidate => liquidate_holds lasting holds hliquidate)
      (fun _ _ _ hinv hstep => carryOut_holds lasting hinv hstep) done
  exact hboth.1

end

def PendingUniform (s : State) : Prop :=
  Pending (fun basket => limitsOf basket = limitsOf s.basket) (Carries (limitsOf s.basket)) s

/-- The transactions that leave positions with the basket's limits. A repayment of the
    stability pool that comes outside of its liquidation must find the same limits. -/
def KeepsLimits (s : State) (t : Transaction) : Prop :=
  match t with
  | .call call =>
    match call.msg with
    | .editCAsset asset maxBorrowLTV maxLTV => EditsNoneHeld s asset maxBorrowLTV maxLTV
    | .liqRepay => PendingUniform s
    | _ => True
  | .liquidation _ => True

theorem step_uniform {s s' : State} {t : Transaction} (uniform : Uniform s)
    (allowed : KeepsLimits s t) (step : transactionStep s t s') : Uniform s' := by
  cases t with
  | liquidation l =>
    obtain ⟨p, hexec, rfl⟩ := step
    exact (Liquidation.exec_holds (lasting_limits _) uniform.holds hexec).uniform
  | call call =>
    obtain ⟨response, hcall⟩ := step
    by_cases hgoverned : (∀ edit, call.msg ≠ .editBasket edit) ∧
        ∀ asset maxBorrowLTV maxLTV, call.msg ≠ .editCAsset asset maxBorrowLTV maxLTV
    · have hpool : call.msg = .liqRepay → PendingUniform s := by
        intro hmsg
        simpa only [KeepsLimits, hmsg] using allowed
      exact (execute_holds (lasting_limits _) uniform.holds hpool hgoverned.1 hgoverned.2
        hcall).1.uniform
    · unfold Call.steps execute at hcall
      unfold KeepsLimits at allowed
      cases hmsg : call.msg with
      | editBasket edit =>
        simp only [hmsg] at hcall
        exact editBasket_uniform uniform hcall
      | editCAsset asset maxBorrowLTV maxLTV =>
        simp only [hmsg] at hcall allowed
        exact editCAsset_uniform uniform allowed hcall
      | _ => simp [hmsg] at hgoverned

theorem Uniform.stakes_perm {s : State} {owner owner' : Addr} {list list' : List Position}
    {position position' : Position} (uniform : Uniform s)
    (stored : s.positions.lookup owner = some list) (mem : position ∈ list)
    (stored' : s.positions.lookup owner' = some list') (mem' : position' ∈ list')
    (held : position.held.Perm position'.held) :
    (position.collateralAssets.map stake).Perm (position'.collateralAssets.map stake) := by
  have hstakes : ∀ {p : Position}, EntriesHave (Carries (limitsOf s.basket)) p →
      p.collateralAssets.map stake = p.held.map fun asset =>
        (asset, (limitsOf s.basket asset.info).getD (Decimal.zero, Decimal.zero)) := by
    intro p hentries
    rw [Position.held, List.map_map]
    refine List.map_congr_left fun cAsset hmem => ?_
    have hlimits : limitsOf s.basket cAsset.asset.info =
      some (cAsset.maxBorrowLTV, cAsset.maxLTV) := hentries cAsset hmem
    simp [stake, hlimits]
  rw [hstakes (uniform owner list stored position mem),
    hstakes (uniform owner' list' stored' position' mem')]
  exact held.map _

/-- Two positions get one verdict from the insolvency check, at any prices that both
    checks read. -/
def SameVerdict (s : State) (position position' : Position) : Prop :=
  ∀ deps env price creditPrice maxBorrow verdict avg,
    (position.collateralAssets ≠ [] →
      ReadsPrices deps env s.config s.prices s.basket price position.collateralAssets) →
    (position'.collateralAssets ≠ [] →
      ReadsPrices deps env s.config s.prices s.basket price position'.collateralAssets) →
    insolvencyCheck deps env s.config s.prices s.basket position.collateralAssets
      position.creditAmount creditPrice maxBorrow = .ok (verdict, avg) →
    ∃ avg', insolvencyCheck deps env s.config s.prices s.basket position'.collateralAssets
      position'.creditAmount creditPrice maxBorrow = .ok (verdict, avg')

/-- Positions carry the basket's limits in every state that such a run reaches, and two
    positions with the same amounts and the same debt get the same verdict. -/
theorem limits_uniform {deps : Deps} {env : Env} {info : MessageInfo} {msg : InstantiateMsg}
    {created s : State} {response : Response OutMsg}
    (instantiated : instantiate deps env info msg = .ok (created, response))
    (run : RunWhere transactionStep KeepsLimits created s) :
    Uniform s ∧ ∀ owner owner' list list' position position',
      s.positions.lookup owner = some list → position ∈ list →
      s.positions.lookup owner' = some list' → position' ∈ list' →
      position.held.Perm position'.held → position.creditAmount = position'.creditAmount →
      SameVerdict s position position' := by
  have hstart : Uniform created := by
    rw [Uniform, (instantiate_fresh instantiated).positions]
    exact KeyMap.all_empty
  have hkeeps : ∀ s t s', Uniform s → KeepsLimits s t → transactionStep s t s' → Uniform s' :=
    fun _ _ _ uniform allowed step => step_uniform uniform allowed step
  have huniform := RunWhere.keeps hkeeps run hstart
  refine ⟨huniform, ?_⟩
  intro owner owner' list list' position position' stored mem stored' mem' held credit deps env
    price creditPrice maxBorrow verdict avg reads reads' done
  rw [← credit]
  exact insolvencyCheck_perm (huniform.stakes_perm stored mem stored' mem' held) reads reads' done

/-! ## On a sample chain -/

def secondDeposit (user : Addr) (positionId : Option Nat) (amount : Nat) (positive : 0 < amount) :
    Call :=
  ⟨atPar, atTime 0, MessageInfo.oneCoin user ⟨"uosmo", amount⟩ positive, .deposit positionId none⟩

/-- Two users with the same collateral, deposited in different orders, and the same
    debt. -/
def twoBorrowers : List Call :=
  [openBasket, addSecond,
    sampleCall 0 "gov" (.editBasket {
      collateralSupplyCaps := some [⟨.nativeToken "uosmo", 0, 0, Decimal.one, false, none⟩] }),
    sampleDeposit 0 "user" none 20000000000 (by decide),
    secondDeposit "user" (some 1) 5000000000 (by decide),
    secondDeposit "other" none 5000000000 (by decide),
    sampleDeposit 0 "other" (some 2) 20000000000 (by decide),
    sampleCall 0 "user" (.increaseDebt 1 (some 1000000000) none none),
    sampleCall 0 "other" (.increaseDebt 2 (some 1000000000) none none)]

theorem limits_uniform_two_borrowers :
    ∃ s position position', afterGenesis 0 twoBorrowers = some s ∧
      s.positions.lookup "user" = some [position] ∧
      s.positions.lookup "other" = some [position'] ∧ Uniform s ∧
      SameVerdict s position position' := by
  have hpositions : (afterGenesis 0 twoBorrowers).map (fun s =>
      ((s.positions.lookup "user").map (·.map fun p => (p.held, p.creditAmount)),
        (s.positions.lookup "other").map (·.map fun p => (p.held, p.creditAmount)))) =
      some
        (some [([⟨.nativeToken "uatom", 20000000000⟩, ⟨.nativeToken "uosmo", 5000000000⟩],
          1000000000)],
        some [([⟨.nativeToken "uosmo", 5000000000⟩, ⟨.nativeToken "uatom", 20000000000⟩],
          1000000000)]) := by
    decide +kernel
  obtain ⟨s, hs, hpositions⟩ := Option.map_eq_some_iff.mp hpositions
  obtain ⟨huser, hother⟩ := Prod.mk.inj hpositions
  obtain ⟨list, stored, hlist⟩ := Option.map_eq_some_iff.mp huser
  obtain ⟨list', stored', hlist'⟩ := Option.map_eq_some_iff.mp hother
  obtain ⟨position, rfl, hposition⟩ := List.map_eq_singleton_iff.mp hlist
  obtain ⟨position', rfl, hposition'⟩ := List.map_eq_singleton_iff.mp hlist'
  obtain ⟨held, credit⟩ := Prod.mk.inj hposition
  obtain ⟨held', credit'⟩ := Prod.mk.inj hposition'
  obtain ⟨created, hnew, hrun⟩ := Option.bind_eq_some_iff.mp hs
  obtain ⟨response, hcreated⟩ := newContract_spec hnew
  have hcalls : RunWhere callStep (fun s call => KeepsLimits s (.call call)) created s := by
    refine execAll_run (fun _ _ _ => Call.exec_step) (fun call hcall s => ?_) hrun
    simp only [twoBorrowers, List.mem_cons, List.not_mem_nil, or_false] at hcall
    rcases hcall with rfl | rfl | rfl | rfl | rfl | rfl | rfl | rfl | rfl
    all_goals trivial
  obtain ⟨huniform, hverdict⟩ := limits_uniform hcreated (transactions_of_calls hcalls)
  have hperm : position.held.Perm position'.held := by
    rw [held, held']
    exact List.Perm.swap _ _ _
  exact ⟨s, position, position', hs, stored, stored', huniform,
    hverdict "user" "other" _ _ position position' stored (by simp) stored' (by simp) hperm
      (credit.trans credit'.symm)⟩

/-- Positions do not carry the basket's limits in every reachable state: a user has
    deposited, and governance lowers the limit of the asset. -/
theorem limits_not_uniform :
    ¬ ∀ calls s, (∀ call ∈ calls, DebtCall call.msg ∨ SetupCall call.msg) →
      afterGenesis 0 calls = some s → Uniform s := by
  intro claim
  have hlimits : (afterGenesis 0
      [openBasket, sampleDeposit 0 "user" none 1000000 (by decide), editLTVs "uatom"]).map (fun s =>
        ((limitsOf s.basket (.nativeToken "uatom")).map Prod.fst,
          (s.positions.lookup "user").map (·.map fun p =>
            p.collateralAssets.map fun cAsset => (cAsset.asset.info, cAsset.maxBorrowLTV)))) =
      some (some (Decimal.percent 30),
        some [[(.nativeToken "uatom", Decimal.percent 50)]]) := by
    decide +kernel
  obtain ⟨s, hs, hlimits⟩ := Option.map_eq_some_iff.mp hlimits
  obtain ⟨hbasket, hposition⟩ := Prod.mk.inj hlimits
  obtain ⟨list, stored, hlist⟩ := Option.map_eq_some_iff.mp hposition
  obtain ⟨position, rfl, hposition⟩ := List.map_eq_singleton_iff.mp hlist
  obtain ⟨cAsset, hassets, hcAsset⟩ := List.map_eq_singleton_iff.mp hposition
  obtain ⟨hinfo, hborrow⟩ := Prod.mk.inj hcAsset
  have huniform := claim _ s ?_ hs
  · have hcarries := huniform "user" _ stored position (by simp) cAsset (by simp [hassets])
    rw [Carries, hinfo] at hcarries
    simp only [hcarries, Option.map_some, hborrow, Option.some.injEq] at hbasket
    exact absurd hbasket (by decide)
  · intro call hcall
    simp only [List.mem_cons, List.not_mem_nil, or_false] at hcall
    rcases hcall with rfl | rfl | rfl
    · exact .inr trivial
    · exact .inl trivial
    · exact .inr trivial

end Membrane.Cdp
