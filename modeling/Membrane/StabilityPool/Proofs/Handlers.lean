import Membrane.StabilityPool.Contract
import Membrane.StabilityPool.Proofs.Unstaking

/-!
# What the handlers do to incentives and times

Each handler leaves the total of incentives within its maximum, where it was, and accruals
in the past. A change of the configuration can lower the maximum below the total, and a
withdrawal can accrue a deposit after it began to unstake: the exact conditions are here.
-/

namespace Membrane.StabilityPool

open Outcome

/-- What has been accrued is within the maximum. -/
def State.Capped (s : State) : Prop := s.incentives ≤ s.config.maxIncentives

def State.Past (now : Nat) (s : State) : Prop :=
  ∀ deposit ∈ s.asset.deposits, StabilityPool.Past now deposit

/-- No deposit was accrued after it began to unstake. -/
def State.InTime (s : State) : Prop := ∀ deposit ∈ s.asset.deposits, StabilityPool.InTime deposit

theorem State.Past.later {now now' : Nat} {s : State} (past : s.Past now) (later : now ≤ now') :
    s.Past now' := fun deposit mem => (past deposit mem).later later

/-- A handler keeps the total capped and the times in the past and in order. -/
structure Keeps (blockTime : Nat) (s s' : State) : Prop where
  capped : s.Capped → s'.Capped
  past : s.Past blockTime → s'.Past blockTime
  inTime : s.InTime → s'.InTime

def SameTimes (deposit deposit' : Deposit) : Prop :=
  deposit'.lastAccrued = deposit.lastAccrued ∧ deposit'.unstakeTime = deposit.unstakeTime

theorem Keeps.of_sameTimes {blockTime : Nat} {s s' : State} (capped : s.Capped → s'.Capped)
    (same : ∀ deposit' ∈ s'.asset.deposits, ∃ deposit ∈ s.asset.deposits,
      SameTimes deposit deposit') : Keeps blockTime s s' := by
  refine ⟨capped, ?_, ?_⟩
  · intro past deposit' mem
    obtain ⟨deposit, hmem, haccrued, hunstake⟩ := same deposit' mem
    constructor
    · rw [haccrued]
      exact (past deposit hmem).accrued
    · rw [hunstake]
      exact (past deposit hmem).unstaking
  · intro inTime deposit' mem unstakeTime h
    obtain ⟨deposit, hmem, haccrued, hunstake⟩ := same deposit' mem
    rw [haccrued]
    exact inTime deposit hmem unstakeTime (hunstake.symm.trans h)

theorem Keeps.of_same_deposits {blockTime : Nat} {s s' : State} (capped : s.Capped → s'.Capped)
    (same : s'.asset.deposits = s.asset.deposits) : Keeps blockTime s s' := by
  refine .of_sameTimes capped ?_
  intro deposit mem
  rw [same] at mem
  exact ⟨deposit, mem, rfl, rfl⟩

section

variable {blockTime : Nat} {s s' : State} {info : MessageInfo} {addrValid : String → Bool}
  {msgs : List (CosmosMsg OutMsg)}

/-! ## Deposits -/

theorem executeDeposit_keeps {user : Option String}
    (done : executeDeposit addrValid blockTime info user s = .ok (s', msgs)) :
    Keeps blockTime s s' := by
  simp only [executeDeposit, deposit, bind_eq_ok, pure_eq_ok, Prod.mk.injEq] at done
  obtain ⟨_, -, _, -, -, -, asset, -, -, -, owner, -, amount, -, -, -, total, -, rfl, -⟩ := done
  refine ⟨id, ?_, ?_⟩
  · intro past
    refine List.forall_mem_append.mpr ⟨past, List.forall_mem_singleton.mpr ?_⟩
    exact ⟨Nat.le_refl _, fun _ h => absurd h (by simp)⟩
  · intro inTime
    refine List.forall_mem_append.mpr ⟨inTime, List.forall_mem_singleton.mpr ?_⟩
    intro _ h
    cases h

theorem withdraw_spec {amount : Nat} (past : s.Past blockTime)
    (done : withdraw blockTime info amount s = .ok (s', msgs)) :
    (s.Capped → s'.Capped) ∧ s'.Past blockTime ∧ (s.InTime → (s'.InTime ↔
      s.config.unstakingPeriod = 0 ∨
        clearsUnstaking blockTime s.config ⟨amount * Decimal.fractional⟩
          (s.asset.deposits.filter fun deposit => deposit.user = info.sender) = true)) := by
  simp only [withdraw, bind_eq_ok, liftStd_eq_ok] at done
  obtain ⟨total, -, asked, hasked, -, -, ⟨withdrawable, left⟩, htake, _, -, _, -, -, -, hrest⟩ :=
    done
  obtain rfl := Decimal.fromRatio_one hasked
  obtain rfl : left = s' := by
    split at hrest
    case isTrue => exact (Prod.mk.injEq _ _ _ _ ▸ pure_eq_ok.mp hrest).1
    case isFalse =>
      simp only [bind_eq_ok, pure_eq_ok, Prod.mk.injEq] at hrest
      obtain ⟨_, -, hsame, -⟩ := hrest
      exact hsame
  obtain ⟨hconfig, hcapped, hpast, hinTime⟩ := withdrawalFromState_spec past htake
  refine ⟨?_, hpast, ?_⟩
  · intro capped
    unfold State.Capped
    rw [hconfig]
    exact hcapped capped
  · intro inTime
    exact (hinTime inTime).trans (by rw [decide_eq_true_eq])

theorem repay_keeps {userInfo : UserInfo} {repayment : Asset} (past : s.Past blockTime)
    (done : repay addrValid blockTime info userInfo repayment s = .ok (s', msgs)) :
    Keeps blockTime s s' := by
  simp only [repay, bind_eq_ok, pure_eq_ok, liftStd_eq_ok, Prod.mk.injEq] at done
  obtain ⟨-, -, -, -, owner, -, total, -, asked, -, -, -, -, -, ⟨withdrawable, left⟩, htake, coin,
    -, rfl, -⟩ := done
  obtain ⟨hconfig, hcapped, hpast, hinTime⟩ := withdrawalFromState_spec past htake
  refine ⟨?_, fun _ => hpast, fun inTime => (hinTime inTime).mpr (.inl rfl)⟩
  intro capped
  show left.incentives ≤ left.config.maxIncentives
  rw [hconfig]
  exact hcapped capped

theorem restakeDeposit_spec {config : Config} {user : Addr} {acc acc' : Restake} {deposit : Deposit}
    (done : restakeDeposit blockTime config user acc deposit = .ok acc') :
    (acc.total ≤ config.maxIncentives → acc'.total ≤ config.maxIncentives) ∧
      ∃ deposit', acc'.deposits = acc.deposits ++ [deposit'] ∧ (deposit' = deposit ∨
        deposit'.lastAccrued = blockTime ∧ deposit'.unstakeTime = none) := by
  unfold restakeDeposit at done
  split at done
  case isFalse =>
    obtain rfl := pure_eq_ok.mp done
    exact ⟨id, deposit, rfl, .inl rfl⟩
  case isTrue =>
    simp only [bind_eq_ok, pure_eq_ok] at done
    obtain ⟨stake, -, asked, hasked, ⟨incentives, error, total, accrued⟩, hread, sum, -, rest, -,
      rfl⟩ := done
    cases asked with
    | error =>
      simp only [pure_eq_ok, Prod.mk.injEq] at hread
      obtain ⟨-, -, rfl, rfl⟩ := hread
      exact ⟨id, _, rfl, .inr ⟨rfl, rfl⟩⟩
    | ok result =>
      obtain ⟨haccrued, hcapped⟩ := accrueIncentives_spec (attempt_eq_ok_ok.mp hasked)
      simp only [pure_eq_ok, Prod.mk.injEq] at hread
      obtain ⟨-, -, rfl, rfl⟩ := hread
      refine ⟨fun _ => hcapped, _, rfl, .inr ⟨?_, rfl⟩⟩
      show result.2.1.lastAccrued = blockTime
      rw [haccrued]

theorem restake_keeps {restakeAmount : Decimal}
    (done : restake blockTime info restakeAmount s = .ok (s', msgs)) : Keeps blockTime s s' := by
  simp only [restake, bind_eq_ok, liftStd_eq_ok] at done
  obtain ⟨result, hloop, hrest⟩ := done
  have hrun := foldlM_keeps_mem (fun acc : Restake =>
    (s.Capped → acc.total ≤ s.config.maxIncentives) ∧ ∀ deposit' ∈ acc.deposits,
      deposit' ∈ s.asset.deposits ∨
        deposit'.lastAccrued = blockTime ∧ deposit'.unstakeTime = none) _ _ _
    (by
      rintro acc deposit acc' hmem ⟨hcapped, hall⟩ hround
      obtain ⟨hkeeps, deposit', happends, hsame⟩ := restakeDeposit_spec hround
      refine ⟨fun capped => hkeeps (hcapped capped), ?_⟩
      rw [happends, List.forall_mem_append, List.forall_mem_singleton]
      refine ⟨hall, hsame.imp_left ?_⟩
      rintro rfl
      exact hmem)
    ⟨id, List.forall_mem_nil _⟩ hloop
  obtain ⟨hcapped, hall⟩ := hrun
  cases herror : result.error with
  | some error =>
    rw [herror] at hrest
    cases hrest
  | none =>
    rw [herror] at hrest
    simp only [bind_eq_ok, pure_eq_ok, Prod.mk.injEq] at hrest
    obtain ⟨users, -, rfl, -⟩ := hrest
    refine ⟨hcapped, ?_, ?_⟩
    · intro past deposit hmem
      rcases hall deposit hmem with hold | ⟨haccrued, hunstake⟩
      · exact past deposit hold
      · refine ⟨haccrued.le, ?_⟩
        intro unstakeTime h
        cases hunstake.symm.trans h
    · intro inTime deposit hmem
      rcases hall deposit hmem with hold | ⟨-, hunstake⟩
      · exact inTime deposit hold
      · intro unstakeTime h
        cases hunstake.symm.trans h

/-! ## Liquidations -/

theorem liquidate_keeps {creditAmount : Decimal}
    (done : liquidate info creditAmount s = .ok (s', msgs)) : Keeps blockTime s s' := by
  simp only [liquidate, bind_eq_ok, pure_eq_ok, Prod.mk.injEq] at done
  obtain ⟨-, -, poolAmount, -, repay, -, repaidAmount, -, coin, -, amount, -, rfl, -⟩ := done
  exact .of_same_deposits id rfl

theorem accrueUsed_spec {config : Config} {stake : Nat} {deposit : Deposit}
    (done : accrueUsed blockTime config stake deposit s = .ok s') :
    s'.config = s.config ∧ (s.incentives ≤ config.maxIncentives →
      s'.incentives ≤ config.maxIncentives) := by
  unfold accrueUsed at done
  split at done
  case isTrue =>
    simp only [bind_eq_ok, pure_eq_ok] at done
    obtain ⟨result, haccrue, users, -, rfl⟩ := done
    exact ⟨rfl, fun _ => (accrueIncentives_spec haccrue).2⟩
  case isFalse =>
    obtain rfl := pure_eq_ok.mp done
    exact ⟨rfl, id⟩

theorem distributionList_spec {config : Config} {repaid : Decimal} {deposits : List Deposit} :
    ∀ {repayTotal : Decimal} {used used' : List Deposit} {s s' : State},
      distributionList blockTime config repaid deposits repayTotal used s = .ok (used', s') →
      s'.config = s.config ∧ (s.incentives ≤ config.maxIncentives →
        s'.incentives ≤ config.maxIncentives) := by
  induction deposits with
  | nil =>
    intro repayTotal used used' s s' done
    simp only [distributionList, pure_eq_ok, Prod.mk.injEq] at done
    obtain ⟨-, rfl⟩ := done
    exact ⟨rfl, id⟩
  | cons deposit rest ih =>
    intro repayTotal used used' s s' done
    rw [distributionList] at done
    split at done
    case isFalse =>
      simp only [pure_eq_ok, Prod.mk.injEq] at done
      obtain ⟨-, rfl⟩ := done
      exact ⟨rfl, id⟩
    case isTrue =>
      obtain ⟨sum, -, hround⟩ := bind_eq_ok.mp done
      split at hround
      case isTrue =>
        simp only [bind_eq_ok] at hround
        obtain ⟨_, -, _, -, _, -, _, -, mid, haccrue, hrest⟩ := hround
        obtain ⟨hconfig, hcapped⟩ := accrueUsed_spec haccrue
        obtain ⟨hconfig', hcapped'⟩ := ih hrest
        exact ⟨hconfig'.trans hconfig, fun capped => hcapped' (hcapped capped)⟩
      case isFalse =>
        simp only [bind_eq_ok] at hround
        obtain ⟨_, -, mid, haccrue, hrest⟩ := hround
        obtain ⟨hconfig, hcapped⟩ := accrueUsed_spec haccrue
        obtain ⟨hconfig', hcapped'⟩ := ih hrest
        exact ⟨hconfig'.trans hconfig, fun capped => hcapped' (hcapped capped)⟩

theorem editedDeposits_sameTimes {deposits used edited : List Deposit}
    (done : editedDeposits deposits used = .ok edited) :
    ∀ deposit' ∈ edited, ∃ deposit ∈ deposits, SameTimes deposit deposit' := by
  have hkept : ∀ deposit ∈ deposits.filter fun deposit => !deposit.equal used,
      ∃ deposit' ∈ deposits, SameTimes deposit' deposit := by
    intro deposit mem
    exact ⟨deposit, List.mem_of_mem_filter mem, rfl, rfl⟩
  unfold editedDeposits at done
  dsimp only at done
  split at done
  case isTrue =>
    simp only [bind_eq_ok, index_eq_ok, setIndex_eq_ok] at done
    obtain ⟨first, hfirst, last, -, left, -, -, rfl⟩ := done
    intro deposit mem
    rcases List.mem_or_eq_of_mem_set mem with hold | rfl
    · exact hkept deposit hold
    · exact hkept first (List.mem_of_getElem? hfirst)
  case isFalse =>
    obtain rfl := pure_eq_ok.mp done
    exact hkept

theorem distributeFunds_keeps {distributionAssets : List Asset}
    {distributionAssetRatios : List Decimal} {distributeFor : Nat}
    (done : distributeFunds blockTime info distributionAssets distributionAssetRatios distributeFor
      s = .ok (s', msgs)) : Keeps blockTime s s' := by
  simp only [distributeFunds, bind_eq_ok, pure_eq_ok, liftStd_eq_ok, Prod.mk.injEq] at done
  obtain ⟨-, -, repaid, -, ⟨used, mid⟩, hlist, edited, hedited, ratios, -, users, -, rfl, -⟩ := done
  obtain ⟨hconfig, hcapped⟩ := distributionList_spec hlist
  refine .of_sameTimes ?_ (editedDeposits_sameTimes hedited)
  intro capped
  show mid.incentives ≤ mid.config.maxIncentives
  rw [hconfig]
  exact hcapped capped

/-! ## Claims -/

theorem accruedDeposits_past {user : Addr} {deposits : List Deposit}
    (past : ∀ deposit ∈ deposits, Past blockTime deposit) :
    ∀ deposit ∈ accruedDeposits blockTime user deposits, Past blockTime deposit := by
  intro deposit' mem
  obtain ⟨deposit, hmem, rfl⟩ := List.mem_map.mp mem
  have hpast := past deposit hmem
  split
  · refine ⟨?_, hpast.unstaking⟩
    show deposit.unstakeTime.getD blockTime ≤ blockTime
    cases hunstake : deposit.unstakeTime with
    | none => exact Nat.le_refl _
    | some unstakeTime => exact hpast.unstaking unstakeTime hunstake
  · exact hpast

theorem accruedDeposits_inTime {user : Addr} {deposits : List Deposit}
    (inTime : ∀ deposit ∈ deposits, InTime deposit) :
    ∀ deposit ∈ accruedDeposits blockTime user deposits, InTime deposit := by
  intro deposit' mem
  obtain ⟨deposit, hmem, rfl⟩ := List.mem_map.mp mem
  split
  · intro unstakeTime hunstake
    show deposit.unstakeTime.getD blockTime ≤ unstakeTime
    have hsome : deposit.unstakeTime = some unstakeTime := hunstake
    rw [hsome]
    exact Nat.le_refl _
  · exact inTime deposit hmem

theorem claim_keeps (done : claim blockTime info s = .ok (s', msgs)) : Keeps blockTime s s' := by
  simp only [claim, userClaimsMsgs, bind_eq_ok, pure_eq_ok, liftStd_eq_ok] at done
  obtain ⟨⟨incentives, mid⟩, hget, users, -, claims, -, hrest⟩ := done
  obtain ⟨hmid, hcapped⟩ := getUserIncentives_spec hget
  rw [hmid] at hrest
  obtain ⟨rfl, -⟩ := Prod.mk.injEq _ _ _ _ ▸ hrest
  exact ⟨fun _ => hcapped, accruedDeposits_past, accruedDeposits_inTime⟩

/-! ## Configuration -/

theorem updateConfig_spec {update : UpdateConfig}
    (done : updateConfig addrValid info update s = .ok (s', msgs)) :
    s'.asset = s.asset ∧ s'.incentives = s.incentives ∧
      s'.config.maxIncentives = update.maxIncentives.getD s.config.maxIncentives := by
  simp only [updateConfig, bind_eq_ok, pure_eq_ok, Prod.mk.injEq] at done
  obtain ⟨owner, -, transfer, -, proxy, -, positions, -, oracle, -, rate, -, maxIncentives, hmax,
    period, -, rfl, -⟩ := done
  refine ⟨rfl, rfl, ?_⟩
  show maxIncentives = _
  unfold setInRange at hmax
  cases hupdate : update.maxIncentives with
  | none =>
    rw [hupdate] at hmax
    exact (pure_eq_ok.mp hmax).symm
  | some new =>
    rw [hupdate] at hmax
    simp only [bind_eq_ok, pure_eq_ok] at hmax
    obtain ⟨-, -, rfl⟩ := hmax
    rfl

end

end Membrane.StabilityPool
