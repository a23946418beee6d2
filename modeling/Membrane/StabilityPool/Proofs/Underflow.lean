import Membrane.StabilityPool.Proofs.Runs

/-!
# When incentives underflow

The two conditions on runs, and what a call that breaks one of them does: lowering the
maximum below what has been accrued stops every accrual, and a withdrawal that leaves an
unstaking deposit stops the claims of its user.
-/

namespace Membrane.StabilityPool

open Outcome

/-! ## A sample pool -/

def sampleMsg : InstantiateMsg :=
  ⟨none, ⟨⟨.nativeToken "ucdt", 0⟩, ⟨0⟩, []⟩, none, none, 10, "proxy", "positions",
    "oracle", "umbrn"⟩

def sampleCall (sender : Addr) (time : Nat) (msg : ExecuteMsg) : Call :=
  ⟨fun _ => true, ⟨time, "pool"⟩, MessageInfo.noFunds sender, msg⟩

def sampleDeposit (time amount : Nat) (positive : 0 < amount) : Call :=
  ⟨fun _ => true, ⟨time, "pool"⟩, MessageInfo.oneCoin "user" ⟨"ucdt", amount⟩ positive,
    .deposit none⟩

def sampleAfter (allowed : Ledger → Call → Prop) [∀ l call, Decidable (allowed l call)]
    (calls : List Call) : Option Ledger :=
  match instantiate (fun _ => true) (MessageInfo.noFunds "owner") sampleMsg with
  | .ok s => execAll (execWhere Ledger.exec allowed) calls ⟨s, 0⟩
  | .error _ => none

theorem sampleAfter_reached {allowed : Ledger → Call → Prop}
    [∀ l call, Decidable (allowed l call)] {calls : List Call} {l : Ledger}
    (done : sampleAfter allowed calls = some l) : Reached allowed l := by
  unfold sampleAfter at done
  split at done
  case h_1 s hinstantiate =>
    exact ⟨_, _, _, s, 0, hinstantiate, execWhere_run (fun _ _ _ h => h) done⟩
  case h_2 => cases done

/-! ## The maximum -/

/-- As long as no change of the configuration lowers the maximum below what has been
    accrued, the total stays within the maximum, and a deposit can be accrued exactly when its
    incentives can be computed and added. When also each withdrawal clears the deposits that
    are unstaking, the incentives of a user can be claimed exactly when they can be computed
    and added. A call that lowers the maximum below the total stops both. -/
theorem incentives_capped_iff {l : Ledger} (reached : Reached KeepsCap l) :
    l.state.Capped ∧
    (∀ blockTime deposit stake total, l.now ≤ blockTime → deposit ∈ l.state.asset.deposits →
      total ≤ l.state.config.maxIncentives →
      ((∃ result, accrueIncentives blockTime l.state.config stake deposit total = .ok result) ↔
        ∃ earned, accumulateInterest stake l.state.config.incentiveRate
          (accruedSeconds blockTime deposit) = .ok earned ∧ total + earned < Uint128.limit)) ∧
    (Reached (fun l call => KeepsCap l call ∧ ClearsUnstaking l call) l →
      ∀ blockTime user, l.now ≤ blockTime →
        ((∃ result, getUserIncentives blockTime user l.state = .ok result) ↔
          Computable blockTime user l.state l.state.incentives)) ∧
    ∀ call l', l.step call l' → (l'.state.Capped ↔ KeepsCap l call) ∧
      (¬ KeepsCap l call → ∀ blockTime,
        (∀ deposit stake result, accrueIncentives blockTime l'.state.config stake deposit
          l'.state.incentives ≠ .ok result) ∧
        ∀ user result, getUserIncentives blockTime user l'.state ≠ .ok result) := by
  have hcapped : l.state.Capped := reached.capped fun _ _ h => h
  refine ⟨hcapped, ?_, ?_, ?_⟩
  · intro blockTime deposit stake total later mem within
    exact accrueIncentives_succeeds within ((reached.past deposit mem).later later)
  · intro both blockTime user later
    have hinTime : l.state.InTime := both.inTime fun _ _ h => h.2
    refine getUserIncentives_succeeds hcapped ?_
    intro deposit mem
    exact ⟨(reached.past deposit mem).later later, hinTime deposit mem⟩
  · intro call l' hstep
    have hiff := (step_called reached.past hstep).capped hcapped
    refine ⟨hiff, ?_⟩
    intro hnot blockTime
    have hover : l'.state.config.maxIncentives < l'.state.incentives :=
      Nat.lt_of_not_le fun hle => hnot (hiff.mp hle)
    constructor
    · intro deposit stake result
      exact accrueIncentives_over hover result
    · intro user result
      exact getUserIncentives_over hover result

def yearClaimed : List Call :=
  [sampleDeposit 0 1000000000000 (by decide), sampleCall "user" 31536000 .claimRewards]

/-- After a year 9 percent have been accrued, within the maximum. -/
theorem incentives_capped_year :
    ∃ l, Reached KeepsCap l ∧ l.state.incentives = 90000000000 ∧ l.state.Capped := by
  have hread : (sampleAfter KeepsCap yearClaimed).any
      (fun l => decide (l.state.incentives = 90000000000)) = true := by
    decide +kernel
  obtain ⟨l, hl, htotal⟩ := (Option.any_eq_true _ _).mp hread
  have hreached := sampleAfter_reached hl
  exact ⟨l, hreached, of_decide_eq_true htotal, (incentives_capped_iff hreached).1⟩

def lowerMaximum (time maxIncentives : Nat) : Call :=
  sampleCall "owner" time (.updateConfig
    ⟨none, none, some maxIncentives, none, none, none, none, none, none⟩)

/-- The highest maximum that can be set is less than what a year accrued. Once it is, a claim
    underflows, also of a user who has nothing to compute. -/
theorem not_incentives_capped :
    ¬ ∀ l, Reached (fun _ _ => True) l → ∀ blockTime user, l.now ≤ blockTime →
      Computable blockTime user l.state l.state.incentives →
        ∃ result, getUserIncentives blockTime user l.state = .ok result := by
  intro claim
  have hread : (sampleAfter (fun _ _ => True)
      (yearClaimed ++ [lowerMaximum 31536000 10000000])).any
        (fun l => decide (l.state.incentives = 90000000000 ∧
          l.state.config.maxIncentives = 10000000 ∧ l.state.asset.deposits =
            [⟨"user", ⟨1000000000000 * Decimal.fractional⟩, 0, 31536000, none⟩])) = true := by
    decide +kernel
  obtain ⟨l, hl, hread⟩ := (Option.any_eq_true _ _).mp hread
  obtain ⟨htotal, hmax, hdeposits⟩ := of_decide_eq_true hread
  have hcomputable : Computable l.now "other" l.state l.state.incentives := by
    refine ⟨[], ?_, ?_⟩
    · rw [hdeposits]
      rfl
    · rw [htotal]
      decide
  obtain ⟨result, hdone⟩ :=
    claim l (sampleAfter_reached hl) l.now "other" (Nat.le_refl _) hcomputable
  refine getUserIncentives_over ?_ result hdone
  rw [htotal, hmax]
  decide

/-! ## Unstaking -/

/-- As long as each withdrawal clears the deposits that are unstaking, no deposit is accrued
    after it began to unstake; the query of a user's incentives, and their claim while the
    total is within its maximum, succeed exactly when the incentives can be computed and
    added. A withdrawal that leaves one stops the claims and the queries of its user. -/
theorem unstaking_in_time_iff {l : Ledger} (reached : Reached ClearsUnstaking l) :
    l.state.InTime ∧
    (∀ blockTime user, l.now ≤ blockTime →
      ((∃ total, queryUserIncentives blockTime user l.state = .ok total) ↔
        Computable blockTime user l.state 0) ∧
      (l.state.Capped → ((∃ result, getUserIncentives blockTime user l.state = .ok result) ↔
        Computable blockTime user l.state l.state.incentives))) ∧
    ∀ call l', l.step call l' → (l'.state.InTime ↔ ClearsUnstaking l call) ∧
      (¬ ClearsUnstaking l call → ∃ deposit ∈ l'.state.asset.deposits, ∀ blockTime,
        (∀ result, getUserIncentives blockTime deposit.user l'.state ≠ .ok result) ∧
        ∀ total, queryUserIncentives blockTime deposit.user l'.state ≠ .ok total) := by
  have hinTime : l.state.InTime := reached.inTime fun _ _ h => h
  refine ⟨hinTime, ?_, ?_⟩
  · intro blockTime user later
    have htimely : ∀ deposit ∈ l.state.asset.deposits, Timely blockTime deposit := by
      intro deposit mem
      exact ⟨(reached.past deposit mem).later later, hinTime deposit mem⟩
    exact ⟨queryUserIncentives_succeeds htimely,
      fun capped => getUserIncentives_succeeds capped htimely⟩
  · intro call l' hstep
    have hiff := (step_called reached.past hstep).inTime hinTime
    refine ⟨hiff, ?_⟩
    intro hnot
    have hlate : ¬ ∀ deposit ∈ l'.state.asset.deposits, InTime deposit :=
      fun inTime => hnot (hiff.mp inTime)
    simp only [not_forall] at hlate
    obtain ⟨deposit, mem, hlate⟩ := hlate
    exact ⟨deposit, mem, fun blockTime => late_fails mem hlate⟩

def halfUnstaked : List Call :=
  [sampleDeposit 0 200 (by decide), sampleCall "user" 10 (.withdraw 100)]

/-- A day later that half is withdrawn, and the other half is in time. -/
theorem unstaking_in_time_day :
    ∃ l, Reached ClearsUnstaking l ∧
      l.state.asset.deposits = [⟨"user", ⟨100 * Decimal.fractional⟩, 0, 86410, none⟩] ∧
      l.state.InTime := by
  have hread : (sampleAfter ClearsUnstaking
      (halfUnstaked ++ [sampleCall "user" 86410 (.withdraw 100)])).any
        (fun l => decide (l.state.asset.deposits =
          [⟨"user", ⟨100 * Decimal.fractional⟩, 0, 86410, none⟩])) = true := by
    decide +kernel
  obtain ⟨l, hl, hdeposits⟩ := (Option.any_eq_true _ _).mp hread
  have hreached := sampleAfter_reached hl
  exact ⟨l, hreached, of_decide_eq_true hdeposits, (unstaking_in_time_iff hreached).1⟩

/-- A deposit does not stay in time: an hour after half of it began to unstake, the other
    half does, and the first is accrued. Its user can then neither claim nor query. -/
theorem not_unstaking_in_time :
    ¬ ∀ l, Reached (fun _ _ => True) l → ∀ deposit ∈ l.state.asset.deposits,
      InTime deposit ∨ (∃ result, getUserIncentives l.now deposit.user l.state = .ok result) ∧
        ∃ total, queryUserIncentives l.now deposit.user l.state = .ok total := by
  intro claim
  have hread : (sampleAfter (fun _ _ => True)
      (halfUnstaked ++ [sampleCall "user" 3610 (.withdraw 100)])).any
        (fun l => decide (l.state.asset.deposits =
          [⟨"user", ⟨100 * Decimal.fractional⟩, 0, 3610, some 10⟩,
            ⟨"user", ⟨100 * Decimal.fractional⟩, 0, 3610, some 3610⟩])) = true := by
    decide +kernel
  obtain ⟨l, hl, hdeposits⟩ := (Option.any_eq_true _ _).mp hread
  have hmem : (⟨"user", ⟨100 * Decimal.fractional⟩, 0, 3610, some 10⟩ : Deposit) ∈
      l.state.asset.deposits := by
    rw [of_decide_eq_true hdeposits]
    exact List.mem_cons_self
  have hlate : ¬ InTime ⟨"user", ⟨100 * Decimal.fractional⟩, 0, 3610, some 10⟩ := by
    intro inTime
    exact absurd (inTime 10 rfl) (by decide)
  rcases claim l (sampleAfter_reached hl) _ hmem with hinTime | ⟨⟨result, hdone⟩, -⟩
  · exact hlate hinTime
  · exact (late_fails hmem hlate).1 result hdone

end Membrane.StabilityPool
