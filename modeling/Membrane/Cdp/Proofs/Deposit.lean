import Membrane.Cdp.Proofs.OptIn
import Membrane.Cdp.Proofs.Store

/-!
# What a deposit and an accrual call write

A deposit to a new position stores it with the interest charged to it, which is
none. A deposit to a stored position stores it as it was before interest accrued,
while the basket books the interest. An accrual call stores both.
-/

namespace Membrane.Cdp

open Outcome

/-! ## Deposited collateral -/

/-- A position holds collateral, and `P` holds of each asset of it. -/
structure Holding (P : Asset → Prop) (position : Position) : Prop where
  nonempty : position.held ≠ []
  each : ∀ asset ∈ position.held, P asset

theorem Holding.congr {P : Asset → Prop} {position position' : Position}
    (holding : Holding P position) (same : position'.held = position.held) :
    Holding P position' :=
  ⟨same ▸ holding.nonempty, same ▸ holding.each⟩

section DepositAsset

variable {P : Asset → Prop}
  (grows : ∀ asset amount, P asset → asset.amount ≤ amount → P { asset with amount := amount })

include grows

theorem depositAsset_each {acc acc' : List CAsset × List Asset} {deposit : CAsset}
    (hold : ∀ cAsset ∈ acc.1, P cAsset.asset) (hnew : P deposit.asset)
    (done : depositAsset acc deposit = .ok acc') :
    acc'.1 ≠ [] ∧ ∀ cAsset ∈ acc'.1, P cAsset.asset := by
  unfold depositAsset at done
  split at done
  case h_1 i _ =>
    simp only [bind_eq_ok, pure_eq_ok, index_eq_ok, Uint128.add_eq_ok, setIndex_eq_ok] at done
    obtain ⟨cAsset, hget, amount, ⟨-, rfl⟩, assets, ⟨hlt, rfl⟩, rfl⟩ := done
    refine ⟨?_, ?_⟩
    · intro hempty
      have : acc.1.length = 0 := by simpa using congrArg List.length hempty
      omega
    · intro c hc
      rcases List.mem_or_eq_of_mem_set hc with hmem | rfl
      · exact hold c hmem
      · exact grows _ _ (hold cAsset (List.mem_of_getElem? hget)) (Nat.le_add_right _ _)
  case h_2 =>
    obtain rfl := pure_eq_ok.mp done
    refine ⟨by simp, ?_⟩
    intro c hc
    rcases List.mem_append.mp hc with hmem | hadded
    · exact hold c hmem
    · obtain rfl : c = deposit := by simpa using hadded
      exact hnew

theorem depositAssets_each {deposits : List CAsset} (hnew : ∀ deposit ∈ deposits, P deposit.asset) :
    ∀ {acc acc' : List CAsset × List Asset}, acc.1 ≠ [] → (∀ cAsset ∈ acc.1, P cAsset.asset) →
      deposits.foldlM depositAsset acc = .ok acc' →
      acc'.1 ≠ [] ∧ ∀ cAsset ∈ acc'.1, P cAsset.asset := by
  induction deposits with
  | nil =>
    intro acc acc' hne hold done
    simp only [List.foldlM_nil, pure_eq_ok] at done
    exact done ▸ ⟨hne, hold⟩
  | cons deposit rest ih =>
    intro acc acc' _ hold done
    simp only [List.foldlM_cons, bind_eq_ok] at done
    obtain ⟨mid, hstep, hrest⟩ := done
    obtain ⟨hne, hmid⟩ := depositAsset_each grows hold (hnew deposit List.mem_cons_self) hstep
    exact ih (fun d hd => hnew d (List.mem_cons_of_mem _ hd)) hne hmid hrest

end DepositAsset

/-! ## Deposit -/

/-- A deposit to the stored `position`, whose collateral becomes `assets`. What is
    stored is not what accrual left of the position. -/
structure DepositedInto (deps : Deps) (env : Env) (s s' : State) (owner : Addr) (id : Nat)
    (deposits : List CAsset) (position : Position) (assets : List CAsset) (out : Accrued) :
    Prop where
  target : ∃ i, getTargetPosition s owner id = .ok (i, position)
  grown : ∃ previous, deposits.foldlM depositAsset (position.collateralAssets, []) =
    .ok (assets, previous)
  accrued : accrue deps env s.config s.prices { position with collateralAssets := assets } s.basket
    owner true = .ok out
  write : Replaced s.positions s'.positions owner position
    { position with collateralAssets := assets }
  books : SameBooks out.basket s'.basket

structure DepositedNew (deps : Deps) (env : Env) (s s' : State) (owner : Addr)
    (deposits : List CAsset) (out : Accrued) : Prop where
  accrued : accrue deps env s.config s.prices ⟨s.basket.currentPositionId, deposits, 0⟩
    { s.basket with currentPositionId := s.basket.currentPositionId + 1 } owner true = .ok out
  write : Added s.positions s'.positions owner out.position
  room : ((s.positions.lookup owner).getD []).length < maxPositionsAmount
  books : SameBooks out.basket s'.basket

theorem depositToPosition_spec {deps : Deps} {env : Env} {owner : Addr} {s s' : State}
    {list : List Position} {id : Nat} {deposits : List CAsset} {previous : List Asset}
    (stored : s.positions.lookup owner = some list)
    (done : depositToPosition deps env owner list id deposits s = .ok (s', previous)) :
    ∃ position assets out,
      DepositedInto deps env s s' owner id deposits position assets out := by
  simp only [depositToPosition, bind_eq_ok, pure_eq_ok, ofOption_eq_ok, setIndex_eq_ok,
    liftStd_eq_ok, Prod.mk.injEq] at done
  obtain ⟨⟨i, position⟩, hfind, ⟨assets, prev⟩, hgrown, written, ⟨-, rfl⟩, out, haccrue,
    ⟨prices, basket⟩, htally, rfl, rfl⟩ := done
  obtain ⟨hget, -⟩ := findPosition_spec hfind
  refine ⟨position, assets, out, ?_, ⟨prev, hgrown⟩, haccrue, ?_, ?_⟩
  · exact ⟨i, getTargetPosition_eq_ok.mpr ⟨list, stored, hfind⟩⟩
  · exact ⟨rfl, list, i, stored, hget, rfl⟩
  · split at htally
    · exact updateBasketTally_sameBooks htally
    · obtain ⟨-, rfl⟩ := Prod.mk.inj (pure_eq_ok.mp htally)
      exact .refl _

theorem deposit_spec {deps : Deps} {env : Env} {info : MessageInfo} {positionOwner : Option String}
    {positionId : Option Nat} {deposits : List CAsset} {s s' : State} {response : Response OutMsg}
    (done : deposit deps env info positionOwner positionId deposits s = .ok (s', response)) :
    response = {} ∧ ∃ owner, validatePositionOwner deps info positionOwner = .ok owner ∧
      ((∃ id position assets out, positionId = some id ∧
          DepositedInto deps env s s' owner id deposits position assets out) ∨
        ∃ out, DepositedNew deps env s s' owner deposits out) := by
  simp only [deposit, bind_eq_ok, pure_eq_ok, liftStd_eq_ok, guardErr_eq_ok, Prod.mk.injEq] at done
  obtain ⟨owner, howner, _, _, ⟨s₁, previous, id⟩, hbranch, _, _, rfl, rfl⟩ := done
  refine ⟨rfl, owner, howner, ?_⟩
  split at hbranch
  case h_1 list id' stored =>
    simp only [bind_eq_ok, pure_eq_ok, Prod.mk.injEq] at hbranch
    obtain ⟨s₂, hforce, ⟨s₃, previous'⟩, hdeposit, rfl, rfl, rfl⟩ := hbranch
    obtain ⟨optIn, rfl⟩ := forceRedemption_onlyOptIn hforce
    obtain ⟨position, assets, out, into⟩ := depositToPosition_spec
      (s := { s with redemptionOptIn := optIn }) stored hdeposit
    exact .inl ⟨id', position, assets, out, rfl, into.target, into.grown, into.accrued, into.write,
      into.books⟩
  case h_2 =>
    simp only [bind_eq_ok, pure_eq_ok, Prod.mk.injEq, createPositionInDeposit, createPosition,
      Uint128.add_eq_ok, liftStd_eq_ok, guardErr_eq_ok] at hbranch
    obtain ⟨_, hroom, ⟨position, s₂⟩, ⟨⟨new, basket⟩, ⟨_, ⟨_, rfl⟩, rfl, rfl⟩, out, haccrue, rfl,
      rfl⟩, s₃, hforce, rfl, rfl, rfl⟩ := hbranch
    obtain ⟨optIn, rfl⟩ := forceRedemption_onlyOptIn hforce
    exact .inr ⟨out, haccrue, rfl, Nat.lt_of_not_le hroom, .refl _⟩

/-! ## Accrual by message -/

theorem accruePosition_spec {deps : Deps} {env : Env} {info : MessageInfo} {owner : Addr}
    {acc acc' : State × Basket} {id nextId : Nat} (sound : SoundIds nextId acc.1.positions)
    (done : accruePosition deps env info owner acc id = .ok acc') :
    ∃ position out, accrue deps env acc.1.config acc.1.prices position acc.2 info.sender false =
        .ok out ∧
      Replaced acc.1.positions acc'.1.positions owner position out.position ∧
      acc'.2 = out.basket := by
  simp only [accruePosition, bind_eq_ok, pure_eq_ok, liftStd_eq_ok] at done
  obtain ⟨⟨i, position⟩, htarget, out, haccrue, s', hupdate, rfl⟩ := done
  obtain ⟨list, stored, found, -⟩ := getTargetPosition_spec htarget
  obtain ⟨hreplaced, -⟩ := updatePosition_replaced (s := { acc.1 with prices := out.prices }) sound
    stored found (accrue_charged haccrue).positionId hupdate
  exact ⟨position, out, haccrue, hreplaced, rfl⟩

end Membrane.Cdp
