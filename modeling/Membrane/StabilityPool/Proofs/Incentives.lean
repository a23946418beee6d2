import Membrane.StabilityPool.Incentives

/-!
# When incentives can be computed

With the total within its maximum and every time of accrual in order, no subtraction in
the computation of incentives fails: `accrue_incentives`, `get_user_incentives` and the
query succeed exactly when the incentives themselves can be computed and their sum fits.
-/

namespace Membrane.StabilityPool

open Outcome

section

variable {maxIncentives total earned : Nat}

theorem capIncentives_eq_ok (capped : total ≤ maxIncentives) {result : Nat × Nat} :
    capIncentives maxIncentives total earned = .ok result ↔ total + earned < Uint128.limit ∧
      result = (min (total + earned) maxIncentives - total,
        min (total + earned) maxIncentives) := by
  simp only [capIncentives, bind_eq_ok, Uint128.add_eq_ok]
  by_cases hover : maxIncentives < total + earned
  · rw [Nat.min_eq_right hover.le]
    constructor
    · rintro ⟨_, ⟨hfits, rfl⟩, hrest⟩
      rw [if_pos hover] at hrest
      simp only [bind_eq_ok, subUint_eq_ok, pure_eq_ok] at hrest
      obtain ⟨_, ⟨-, rfl⟩, rfl⟩ := hrest
      exact ⟨hfits, rfl⟩
    · rintro ⟨hfits, rfl⟩
      refine ⟨_, ⟨hfits, rfl⟩, ?_⟩
      rw [if_pos hover]
      simp only [bind_eq_ok, subUint_eq_ok, pure_eq_ok]
      exact ⟨_, ⟨capped, rfl⟩, rfl⟩
  · have hle : total + earned ≤ maxIncentives := Nat.le_of_not_lt hover
    rw [Nat.min_eq_left hle, Nat.add_sub_cancel_left]
    constructor
    · rintro ⟨_, ⟨hfits, rfl⟩, hrest⟩
      rw [if_neg hover] at hrest
      exact ⟨hfits, (pure_eq_ok.mp hrest).symm⟩
    · rintro ⟨hfits, rfl⟩
      refine ⟨_, ⟨hfits, rfl⟩, ?_⟩
      rw [if_neg hover]
      rfl

theorem capIncentives_over (exceeded : maxIncentives < total) (result : Nat × Nat) :
    capIncentives maxIncentives total earned ≠ .ok result := by
  intro done
  simp only [capIncentives, bind_eq_ok, Uint128.add_eq_ok] at done
  obtain ⟨_, ⟨-, rfl⟩, hrest⟩ := done
  rw [if_pos (by omega)] at hrest
  simp only [bind_eq_ok, subUint_eq_ok] at hrest
  obtain ⟨_, ⟨hle, -⟩, -⟩ := hrest
  omega

theorem capIncentives_capped {result : Nat × Nat}
    (done : capIncentives maxIncentives total earned = .ok result) : result.2 ≤ maxIncentives := by
  rcases Nat.lt_or_ge maxIncentives total with hover | hcapped
  · exact absurd done (capIncentives_over hover result)
  · obtain ⟨-, rfl⟩ := (capIncentives_eq_ok hcapped).mp done
    exact Nat.min_le_right _ _

end

/-! ## One deposit -/

/-- A deposit was accrued in the past, and began to unstake in the past. -/
structure Past (now : Nat) (deposit : Deposit) : Prop where
  accrued : deposit.lastAccrued ≤ now
  unstaking : ∀ unstakeTime, deposit.unstakeTime = some unstakeTime → unstakeTime ≤ now

/-- A deposit was not accrued after it began to unstake. -/
def InTime (deposit : Deposit) : Prop :=
  ∀ unstakeTime, deposit.unstakeTime = some unstakeTime → deposit.lastAccrued ≤ unstakeTime

theorem Past.later {now now' : Nat} {deposit : Deposit} (past : Past now deposit)
    (later : now ≤ now') : Past now' deposit := by
  constructor
  · exact Nat.le_trans past.accrued later
  · intro unstakeTime h
    exact Nat.le_trans (past.unstaking unstakeTime h) later

theorem InTime.le_earnsUntil {blockTime : Nat} {deposit : Deposit} (inTime : InTime deposit)
    (past : Past blockTime deposit) : deposit.lastAccrued ≤ earnsUntil blockTime deposit := by
  unfold earnsUntil
  cases hunstake : deposit.unstakeTime with
  | none => exact past.accrued
  | some unstakeTime => exact inTime unstakeTime hunstake

structure Timely (blockTime : Nat) (deposit : Deposit) : Prop where
  past : Past blockTime deposit
  inTime : InTime deposit

theorem Timely.elapsed {blockTime : Nat} {deposit : Deposit} (timely : Timely blockTime deposit) :
    (subUint (earnsUntil blockTime deposit) deposit.lastAccrued : Outcome StdError Nat) =
      .ok (earnsUntil blockTime deposit - deposit.lastAccrued) :=
  subUint_eq_ok.mpr ⟨timely.inTime.le_earnsUntil timely.past, rfl⟩

/-- The seconds that `accrue_incentives` counts for a deposit. -/
def accruedSeconds (blockTime : Nat) (deposit : Deposit) : Nat :=
  match deposit.unstakeTime with
  | some _ => 0
  | none => blockTime - deposit.lastAccrued

theorem accrueIncentives_spec {blockTime stake total : Nat} {config : Config} {deposit : Deposit}
    {result : Nat × Deposit × Nat}
    (done : accrueIncentives blockTime config stake deposit total = .ok result) :
    result.2.1 = { deposit with lastAccrued := blockTime } ∧ result.2.2 ≤ config.maxIncentives := by
  simp only [accrueIncentives, bind_eq_ok, pure_eq_ok] at done
  obtain ⟨_, -, _, -, capped, hcap, rfl⟩ := done
  exact ⟨rfl, capIncentives_capped hcap⟩

theorem accruedSeconds_read {blockTime : Nat} {deposit : Deposit} (past : Past blockTime deposit) :
    (match deposit.unstakeTime with
      | some _ => pure 0
      | none => subUint blockTime deposit.lastAccrued : Outcome StdError Nat) =
        .ok (accruedSeconds blockTime deposit) := by
  unfold accruedSeconds
  cases deposit.unstakeTime with
  | some _ => rfl
  | none => exact subUint_eq_ok.mpr ⟨past.accrued, rfl⟩

theorem accrueIncentives_over {blockTime : Nat} {config : Config} {stake total : Nat}
    {deposit : Deposit} (exceeded : config.maxIncentives < total) (result : Nat × Deposit × Nat) :
    accrueIncentives blockTime config stake deposit total ≠ .ok result := by
  intro done
  simp only [accrueIncentives, bind_eq_ok] at done
  obtain ⟨_, -, _, -, capped, hcap, -⟩ := done
  exact capIncentives_over exceeded capped hcap

theorem accrueIncentives_panics {blockTime stake total earned : Nat} {config : Config}
    {deposit : Deposit} (exceeded : config.maxIncentives < total) (past : Past blockTime deposit)
    (earns : accumulateInterest stake config.incentiveRate (accruedSeconds blockTime deposit) =
      .ok earned) :
    accrueIncentives blockTime config stake deposit total = .error .panic := by
  have herrorless : Errorless (capIncentives config.maxIncentives total earned) := by
    apply Errorless.bind (Uint128.add_errorless _ _)
    exact fun _ => .ite (.bind (subUint_errorless _ _) fun _ => .pure _) (.pure _)
  cases haccrue : accrueIncentives blockTime config stake deposit total with
  | ok result => exact absurd haccrue (accrueIncentives_over exceeded result)
  | error fault =>
    cases fault with
    | panic => rfl
    | err e =>
      rcases bind_eq_err.mp haccrue with hread | ⟨elapsed, hread, hrest⟩
      · cases (accruedSeconds_read past).symm.trans hread
      obtain rfl := Except.ok.inj ((accruedSeconds_read past).symm.trans hread)
      rcases bind_eq_err.mp hrest with hearned | ⟨earned', hearned, hrest⟩
      · cases earns.symm.trans hearned
      obtain rfl := Except.ok.inj (earns.symm.trans hearned)
      rcases bind_eq_err.mp hrest with hcap | ⟨capped, -, hdone⟩
      · exact absurd hcap (herrorless e)
      · cases hdone

theorem accrueIncentives_succeeds {blockTime stake total : Nat} {config : Config}
    {deposit : Deposit} (capped : total ≤ config.maxIncentives) (past : Past blockTime deposit) :
    (∃ result, accrueIncentives blockTime config stake deposit total = .ok result) ↔
      ∃ earned, accumulateInterest stake config.incentiveRate (accruedSeconds blockTime deposit) =
        .ok earned ∧ total + earned < Uint128.limit := by
  have helapsed := accruedSeconds_read past
  simp only [accrueIncentives, bind_eq_ok, pure_eq_ok, capIncentives_eq_ok capped]
  constructor
  · rintro ⟨_, elapsed, hread, earned, hearned, _, ⟨hfits, rfl⟩, rfl⟩
    obtain rfl := Except.ok.inj (helapsed.symm.trans hread)
    exact ⟨earned, hearned, hfits⟩
  · rintro ⟨earned, hearned, hfits⟩
    exact ⟨_, _, helapsed, earned, hearned, _, ⟨hfits, rfl⟩, rfl⟩

/-! ## All deposits of a user -/

def depositIncentives (blockTime : Nat) (rate : Decimal) (deposit : Deposit) :
    Outcome StdError Nat := do
  let stake ← Decimal.mulUint 1 deposit.amount
  accumulateInterest stake rate (earnsUntil blockTime deposit - deposit.lastAccrued)

/-- The incentives of a user's deposits can be computed, and with `total` they fit. -/
def Computable (blockTime : Nat) (user : Addr) (s : State) (total : Nat) : Prop :=
  ∃ earned, (s.asset.deposits.filter fun deposit => deposit.user = user).mapM
    (depositIncentives blockTime s.config.incentiveRate) = .ok earned ∧
      total + earned.sum < Uint128.limit

theorem accumulateInterest_zero (base : Nat) (rate : Decimal) :
    accumulateInterest base rate 0 = .ok 0 := by
  have hratio : (Decimal.fromRatio 0 secondsPerYear : Outcome StdError Decimal) = .ok ⟨0⟩ := by
    decide
  have happlied : Decimal.checkedMul rate ⟨0⟩ = .ok ⟨0⟩ := by
    have hfits : Decimal.fits 0 = some ⟨0⟩ := by decide
    rw [Decimal.checkedMul, Nat.mul_zero, Nat.zero_div, hfits]
    rfl
  have hearned : (Decimal.mulUint base ⟨0⟩ : Outcome StdError Nat) = .ok 0 := if_pos (.inr rfl)
  exact bind_eq_ok.mpr ⟨⟨0⟩, hratio, bind_eq_ok.mpr ⟨⟨0⟩, happlied, hearned⟩⟩

section

variable {blockTime : Nat} {user : Addr} {rate : Decimal}
  {acc acc' : Nat × Option StdError × List Deposit} {deposit : Deposit}

theorem addUserIncentives_iff (timely : Timely blockTime deposit) (mine : deposit.user = user)
    (fits : acc.1 < Uint128.limit) :
    (addUserIncentives blockTime user rate acc deposit = .ok acc' ∧ acc'.2.1 = none) ↔
      acc.2.1 = none ∧ ∃ earned, depositIncentives blockTime rate deposit = .ok earned ∧
        acc.1 + earned < Uint128.limit ∧ acc' = (acc.1 + earned, none,
          acc.2.2 ++ [{ deposit with lastAccrued := earnsUntil blockTime deposit }]) := by
  obtain ⟨total, error, deposits⟩ := acc
  have helapsed := timely.elapsed
  generalize hseconds : earnsUntil blockTime deposit - deposit.lastAccrued = seconds at helapsed
  simp only [addUserIncentives, if_pos mine, depositIncentives, hseconds, bind_eq_ok]
  constructor
  · rintro ⟨⟨_, hread, stake, hstake, hrest⟩, hnone⟩
    obtain rfl := Except.ok.inj (helapsed.symm.trans hread)
    by_cases hzero : seconds = 0
    · rw [if_neg (not_not.mpr hzero)] at hrest
      obtain rfl := pure_eq_ok.mp hrest
      refine ⟨hnone, 0, ⟨stake, hstake, ?_⟩, fits, ?_⟩
      · rw [hzero]
        exact accumulateInterest_zero stake rate
      · simp only at hnone
        rw [hnone, Nat.add_zero]
    · rw [if_pos hzero, bind_eq_ok] at hrest
      obtain ⟨asked, hasked, hrest⟩ := hrest
      cases asked with
      | ok incentives =>
        simp only [bind_eq_ok, Uint128.add_eq_ok, pure_eq_ok] at hrest
        obtain ⟨_, ⟨hsum, rfl⟩, rfl⟩ := hrest
        simp only at hnone
        exact ⟨hnone, incentives, ⟨stake, hstake, attempt_eq_ok_ok.mp hasked⟩, hsum, by rw [hnone]⟩
      | error =>
        obtain rfl := pure_eq_ok.mp hrest
        cases hnone
  · rintro ⟨hnone, earned, ⟨stake, hstake, hearned⟩, hsum, rfl⟩
    change error = none at hnone
    subst hnone
    refine ⟨⟨seconds, helapsed, stake, hstake, ?_⟩, rfl⟩
    by_cases hzero : seconds = 0
    · subst hzero
      obtain rfl := Except.ok.inj ((accumulateInterest_zero stake rate).symm.trans hearned)
      rfl
    · rw [if_pos hzero, bind_eq_ok]
      refine ⟨.ok earned, attempt_eq_ok_ok.mpr hearned, ?_⟩
      simp only [bind_eq_ok, Uint128.add_eq_ok, pure_eq_ok]
      exact ⟨_, ⟨hsum, rfl⟩, rfl⟩

theorem addUserIncentives_error
    (done : addUserIncentives blockTime user rate acc deposit = .ok acc')
    (clear : acc'.2.1 = none) :
    acc.2.1 = none := by
  unfold addUserIncentives at done
  split at done
  case isFalse =>
    obtain rfl := pure_eq_ok.mp done
    exact clear
  case isTrue =>
    simp only [bind_eq_ok] at done
    obtain ⟨_, -, stake, -, hrest⟩ := done
    split at hrest
    case isFalse =>
      obtain rfl := pure_eq_ok.mp hrest
      exact clear
    case isTrue =>
      obtain ⟨asked, -, hrest⟩ := bind_eq_ok.mp hrest
      cases asked with
      | ok incentives =>
        simp only [bind_eq_ok, pure_eq_ok] at hrest
        obtain ⟨_, -, rfl⟩ := hrest
        exact clear
      | error =>
        obtain rfl := pure_eq_ok.mp hrest
        cases clear

end

def accruedDeposits (blockTime : Nat) (user : Addr) (deposits : List Deposit) : List Deposit :=
  deposits.map fun deposit =>
    if deposit.user = user then { deposit with lastAccrued := earnsUntil blockTime deposit }
    else deposit

theorem foldlM_addUserIncentives_iff {blockTime : Nat} {user : Addr} {rate : Decimal} :
    ∀ {deposits : List Deposit} {acc result : Nat × Option StdError × List Deposit},
      (∀ deposit ∈ deposits, Timely blockTime deposit) → acc.1 < Uint128.limit →
      ((deposits.foldlM (addUserIncentives blockTime user rate) acc = .ok result ∧
          result.2.1 = none) ↔
        acc.2.1 = none ∧ ∃ earned, (deposits.filter fun deposit => deposit.user = user).mapM
          (depositIncentives blockTime rate) = .ok earned ∧
            acc.1 + earned.sum < Uint128.limit ∧ result = (acc.1 + earned.sum, none,
              acc.2.2 ++ accruedDeposits blockTime user deposits)) := by
  intro deposits
  induction deposits with
  | nil =>
    intro acc result _ fits
    simp only [List.foldlM_nil, pure_eq_ok, List.filter_nil, List.mapM_nil, accruedDeposits,
      List.map_nil, List.append_nil]
    constructor
    · rintro ⟨rfl, hnone⟩
      refine ⟨hnone, [], rfl, fits, ?_⟩
      rw [← hnone]
      rfl
    · rintro ⟨hnone, _, rfl, -, rfl⟩
      refine ⟨?_, rfl⟩
      rw [← hnone]
      rfl
  | cons deposit rest ih =>
    intro acc result timely fits
    have hhead := timely deposit List.mem_cons_self
    have hrest : ∀ other ∈ rest, Timely blockTime other :=
      fun other mem => timely other (List.mem_cons_of_mem _ mem)
    rw [List.foldlM_cons, bind_eq_ok]
    by_cases hmine : deposit.user = user
    · rw [List.filter_cons_of_pos (by simpa using hmine), List.mapM_cons]
      simp only [accruedDeposits, List.map_cons, if_pos hmine, bind_eq_ok, pure_eq_ok]
      constructor
      · rintro ⟨⟨mid, hstep, hrun⟩, hnone⟩
        have hclear : mid.2.1 = none := by
          refine foldlM_keeps (fun acc => acc.2.1 = none → mid.2.1 = none) ?_ rest mid result
            id hrun hnone
          intro acc other acc' keeps hround clear
          exact keeps (addUserIncentives_error hround clear)
        obtain ⟨hstart, earned, hearned, hsum, rfl⟩ :=
          (addUserIncentives_iff hhead hmine fits).mp ⟨hstep, hclear⟩
        obtain ⟨-, others, hothers, hall, rfl⟩ := (ih hrest hsum).mp ⟨hrun, hnone⟩
        refine ⟨hstart, earned :: others, ⟨earned, hearned, others, hothers, rfl⟩, ?_, ?_⟩
        · simp only [List.sum_cons] at hall ⊢
          omega
        · simp only [List.sum_cons, accruedDeposits, List.append_assoc, List.singleton_append,
            Nat.add_assoc]
      · rintro ⟨hstart, _, ⟨earned, hearned, others, hothers, rfl⟩, hall, rfl⟩
        simp only [List.sum_cons] at hall
        obtain ⟨hstep, hclear⟩ := (addUserIncentives_iff hhead hmine fits).mpr
          ⟨hstart, earned, hearned, by omega, rfl⟩
        have hmid : acc.1 + earned < Uint128.limit := by omega
        refine ⟨⟨_, hstep, ?_⟩, rfl⟩
        refine ((ih hrest hmid).mpr ⟨hclear, others, hothers, ?_, ?_⟩).1
        · show acc.1 + earned + others.sum < Uint128.limit
          omega
        · simp only [List.sum_cons, accruedDeposits, List.append_assoc, List.singleton_append,
            Nat.add_assoc]
    · rw [List.filter_cons_of_neg (by simpa using hmine)]
      have hstep : addUserIncentives blockTime user rate acc deposit =
          .ok (acc.1, acc.2.1, acc.2.2 ++ [deposit]) := by
        unfold addUserIncentives
        rw [if_neg hmine]
        rfl
      simp only [hstep, Except.ok.injEq, exists_eq_left', accruedDeposits, List.map_cons,
        if_neg hmine]
      have hmid : (acc.1, acc.2.1, acc.2.2 ++ [deposit]).1 < Uint128.limit := fits
      refine (ih hrest hmid).trans ?_
      simp only [accruedDeposits, List.append_assoc, List.singleton_append]

/-! ## The two functions -/

theorem getUserIncentives_succeeds {blockTime : Nat} {user : Addr} {s : State}
    (capped : s.incentives ≤ s.config.maxIncentives)
    (timely : ∀ deposit ∈ s.asset.deposits, Timely blockTime deposit) :
    (∃ result, getUserIncentives blockTime user s = .ok result) ↔
      Computable blockTime user s s.incentives := by
  have hstart : ((0, none, []) : Nat × Option StdError × List Deposit).1 < Uint128.limit := by
    decide
  simp only [getUserIncentives, bind_eq_ok, Computable]
  constructor
  · rintro ⟨result, ⟨loop, hrun, hrest⟩⟩
    obtain ⟨sum, error, deposits⟩ := loop
    cases error with
    | some error => cases hrest
    | none =>
      obtain ⟨-, earned, hearned, -, hsame⟩ :=
        (foldlM_addUserIncentives_iff timely hstart).mp ⟨hrun, rfl⟩
      simp only [Prod.mk.injEq, Nat.zero_add, true_and] at hsame
      obtain ⟨rfl, rfl⟩ := hsame
      simp only [bind_eq_ok, pure_eq_ok, capIncentives_eq_ok capped] at hrest
      obtain ⟨_, ⟨hfits, -⟩, -⟩ := hrest
      exact ⟨earned, hearned, hfits⟩
  · rintro ⟨earned, hearned, hfits⟩
    have hsum : 0 + earned.sum < Uint128.limit := by omega
    obtain ⟨hrun, -⟩ := (foldlM_addUserIncentives_iff timely hstart).mpr
      ⟨rfl, earned, hearned, hsum, rfl⟩
    refine ⟨(min (s.incentives + earned.sum) s.config.maxIncentives - s.incentives,
      { s with
        asset := { s.asset with deposits := [] ++ accruedDeposits blockTime user s.asset.deposits }
        incentives := min (s.incentives + earned.sum) s.config.maxIncentives }), _, hrun, ?_⟩
    simp only [bind_eq_ok, pure_eq_ok, capIncentives_eq_ok capped, Nat.zero_add]
    exact ⟨_, ⟨hfits, rfl⟩, rfl⟩

theorem addUserIncentives_appends {blockTime : Nat} {user : Addr} {rate : Decimal}
    {acc acc' : Nat × Option StdError × List Deposit} {deposit : Deposit}
    (done : addUserIncentives blockTime user rate acc deposit = .ok acc') :
    acc'.2.2 = acc.2.2 ++ [if deposit.user = user then
      { deposit with lastAccrued := earnsUntil blockTime deposit } else deposit] := by
  unfold addUserIncentives at done
  by_cases hmine : deposit.user = user
  · rw [if_pos hmine] at done ⊢
    simp only [bind_eq_ok] at done
    obtain ⟨_, -, stake, -, hrest⟩ := done
    split at hrest
    case isFalse => rw [← pure_eq_ok.mp hrest]
    case isTrue =>
      obtain ⟨asked, -, hrest⟩ := bind_eq_ok.mp hrest
      cases asked with
      | ok incentives =>
        simp only [bind_eq_ok, pure_eq_ok] at hrest
        obtain ⟨_, -, rfl⟩ := hrest
        rfl
      | error => rw [← pure_eq_ok.mp hrest]
  · rw [if_neg hmine] at done ⊢
    rw [← pure_eq_ok.mp done]

theorem getUserIncentives_spec {blockTime : Nat} {user : Addr} {s s' : State} {incentives : Nat}
    (done : getUserIncentives blockTime user s = .ok (incentives, s')) :
    s' = { s with
      asset := { s.asset with deposits := accruedDeposits blockTime user s.asset.deposits }
      incentives := s'.incentives } ∧ s'.incentives ≤ s.config.maxIncentives := by
  simp only [getUserIncentives, bind_eq_ok] at done
  obtain ⟨⟨_, error, deposits⟩, hloop, hrest⟩ := done
  have hdeposits := foldlM_appends (fun acc : Nat × Option StdError × List Deposit => acc.2.2)
    (fun deposit : Deposit => if deposit.user = user then
      { deposit with lastAccrued := earnsUntil blockTime deposit } else deposit)
    (fun _ _ _ round => addUserIncentives_appends round) _ _ _ hloop
  simp only [List.nil_append] at hdeposits
  cases error with
  | some error => cases hrest
  | none =>
    simp only [bind_eq_ok, pure_eq_ok, Prod.mk.injEq] at hrest
    obtain ⟨capped, hcap, rfl, rfl⟩ := hrest
    exact ⟨by rw [hdeposits]; rfl, capIncentives_capped hcap⟩

theorem queryUserIncentives_succeeds {blockTime : Nat} {user : Addr} {s : State}
    (timely : ∀ deposit ∈ s.asset.deposits, Timely blockTime deposit) :
    (∃ result, queryUserIncentives blockTime user s = .ok result) ↔
      Computable blockTime user s 0 := by
  unfold queryUserIncentives Computable
  generalize hmine : (s.asset.deposits.filter fun deposit => deposit.user = user) = mine
  have hall : ∀ deposit ∈ mine, Timely blockTime deposit := by
    intro deposit hmem
    rw [← hmine] at hmem
    exact timely deposit (List.mem_of_mem_filter hmem)
  clear hmine
  have hstart : 0 < Uint128.limit := by decide
  generalize 0 = total at hstart ⊢
  induction mine generalizing total with
  | nil =>
    simp only [List.foldlM_nil, List.mapM_nil, pure_eq_ok]
    exact ⟨fun _ => ⟨[], rfl, hstart⟩, fun _ => ⟨total, rfl⟩⟩
  | cons deposit rest ih =>
    have hhead := hall deposit List.mem_cons_self
    have hrest : ∀ other ∈ rest, Timely blockTime other :=
      fun other mem => hall other (List.mem_cons_of_mem _ mem)
    have helapsed := hhead.elapsed
    simp only [List.foldlM_cons, List.mapM_cons, bind_eq_ok, pure_eq_ok, helapsed,
      Except.ok.injEq, exists_eq_left', Uint128.add_eq_ok]
    constructor
    · rintro ⟨result, mid, ⟨stake, hstake, earned, hearned, hfits, rfl⟩, hrun⟩
      obtain ⟨others, hothers, hsum⟩ := (ih hrest (total + earned) hfits).mp ⟨result, hrun⟩
      refine ⟨earned :: others, ⟨earned, ?_, others, hothers, rfl⟩, ?_⟩
      · exact bind_eq_ok.mpr ⟨stake, hstake, hearned⟩
      · rw [List.sum_cons]
        omega
    · rintro ⟨_, ⟨earned, hdeposit, others, hothers, rfl⟩, hsum⟩
      rw [List.sum_cons] at hsum
      obtain ⟨stake, hstake, hearned⟩ := bind_eq_ok.mp hdeposit
      obtain ⟨result, hrun⟩ :=
        (ih hrest (total + earned) (by omega)).mpr ⟨others, hothers, by omega⟩
      exact ⟨result, total + earned, ⟨stake, hstake, earned, hearned, by omega, rfl⟩, hrun⟩

end Membrane.StabilityPool
