import Mathlib.Algebra.BigOperators.Ring.List
import Membrane.Lib.Safely
import Membrane.Lib.Shares
import Membrane.StabilityPool.Proofs.Running

/-!
# A withdrawal conserves the deposits

What `withdrawal_from_state` takes out of the user's deposits is what it returns, out of
deposits that have matured, and no other deposit changes: where no deposit falls short of
the minimum in its turn and all that is paid are whole tokens. Over whole runs nothing else
lowers what a user's deposits hold but repayments for the user and distributions.
-/

namespace Membrane.StabilityPool

open Outcome

/-- The amounts and times of a pool are in range for a withdrawal of a user: the times are in
    the past, the user's deposits can be accrued and summed up, and the incentives fit next to
    what the user can claim. -/
structure InRange (blockTime : Nat) (user : Addr) (s : State) : Prop where
  period : s.config.unstakingPeriod * secondsPerDay < Uint64.limit
  max : s.config.maxIncentives < Uint128.limit
  accruable : ∀ deposit ∈ depositsOf user s.asset.deposits, Accruable blockTime s.config deposit
  total : heldIn (depositsOf user s.asset.deposits) < Uint128.limit
  claims : ∀ coin ∈ (s.users.lookup user).getD [],
    coin.amount + s.config.maxIncentives < Uint128.limit

/-- What a withdrawal promises of its result. -/
structure Withdrawn (blockTime : Nat) (user : Addr) (skipUnstaking : Bool) (s : State)
    (result : Result (Nat × State)) : Prop where
  noPanic : result ≠ .error .panic
  conserved : ∀ paid s', result = .ok (paid, s') → heldIn (depositsOf user s.asset.deposits) =
    heldIn (depositsOf user s'.asset.deposits) + paid * Decimal.fractional
  others : ∀ paid s', result = .ok (paid, s') →
    othersDeposits user s'.asset.deposits = othersDeposits user s.asset.deposits
  matured : ∀ paid s', result = .ok (paid, s') → ∃ parts : List Nat, paid = parts.sum ∧
    List.Forall₂ (fun deposit part => part * Decimal.fractional ≤ held deposit ∧
      (part ≠ 0 → Matured blockTime s.config skipUnstaking deposit = true))
      (depositsOf user s.asset.deposits) parts
  waiting : ∀ paid s', result = .ok (paid, s') → ∀ deposit ∈ depositsOf user s.asset.deposits,
    Matured blockTime s.config skipUnstaking deposit = false → deposit.unstakeTime ≠ none →
      held deposit ≠ 0 → { deposit with lastAccrued := blockTime } ∈
        depositsOf user s'.asset.deposits

/-- When a withdrawal keeps its promise: the incentives are within their maximum where the user
    has deposits, no deposit falls short in its turn, and where all that is asked for is found,
    the pool holds what is paid, matured deposits pay whole tokens, and every deposit of another
    user holds something. -/
structure KeepsDeposits (blockTime : Nat) (user : Addr) (skipUnstaking : Bool) (asked : Nat)
    (s : State) : Prop where
  capped : depositsOf user s.asset.deposits ≠ [] → s.incentives ≤ s.config.maxIncentives
  enough : ∀ entry ∈ turns blockTime s.config skipUnstaking asked
    (depositsOf user s.asset.deposits), ¬ FallsShort s.config skipUnstaking entry.1 entry.2
  found : askedAfter blockTime s.config skipUnstaking asked (depositsOf user s.asset.deposits) = 0 →
    paidIn blockTime s.config skipUnstaking (turns blockTime s.config skipUnstaking asked
        (depositsOf user s.asset.deposits)) ≤ s.asset.creditAsset.amount ∧
      (∀ entry ∈ turns blockTime s.config skipUnstaking asked (depositsOf user s.asset.deposits),
        Matured blockTime s.config skipUnstaking entry.1 = true →
          PaysWhole s.config.minimumDepositAmount (held entry.1) entry.2) ∧
      ∀ deposit ∈ othersDeposits user s.asset.deposits, deposit.amount ≠ Decimal.zero

/-! ## Claims -/

theorem addCoin_runs (coin : Coin) : ∀ {coins : List Coin},
    (∀ other ∈ coins, other.amount + coin.amount < Uint128.limit) →
      ∃ coins', addCoin coin coins = .ok coins' := by
  intro coins
  induction coins with
  | nil => exact fun _ => ⟨_, rfl⟩
  | cons head rest ih =>
    intro fits
    unfold addCoin
    split
    case isTrue =>
      rw [if_pos (fits head List.mem_cons_self)]
      exact ⟨_, rfl⟩
    case isFalse =>
      split
      case isTrue => exact ⟨_, rfl⟩
      case isFalse =>
        obtain ⟨rest', hrest⟩ := ih fun other mem => fits other (List.mem_cons_of_mem _ mem)
        exact bind_succeeds hrest ⟨_, rfl⟩

section

variable {blockTime : Nat} {config : Config} {user : Addr} {skipUnstaking : Bool} {s : State}

theorem claimIncentives_runs (config : Config) {mbrnIncentives : Nat} {isUser : Bool}
    {users : KeyMap Addr (List Coin)}
    (mine : mbrnIncentives ≠ 0 → isUser = true)
    (fits : ∀ coin ∈ (users.lookup user).getD [], coin.amount + mbrnIncentives < Uint128.limit) :
    ∃ users', claimIncentives config user mbrnIncentives isUser users = .ok users' := by
  unfold claimIncentives
  split
  case isTrue => exact ⟨_, rfl⟩
  case isFalse hsome =>
    have hguard : (guardErr (users.lookup user = none ∧ isUser = false)
        (.customError "Invalid user") : Result PUnit) = .ok ⟨⟩ :=
      if_neg fun h => Bool.false_ne_true (h.2.symm.trans (mine hsome))
    apply bind_succeeds hguard
    obtain ⟨claims, hclaims⟩ := addCoin_runs ⟨config.mbrnDenom, mbrnIncentives⟩ fits
    refine ⟨_, liftStd_eq_ok.mpr (bind_eq_ok.mpr ⟨claims, hclaims, rfl⟩)⟩

/-! ## The call -/

structure Withdrawal.Accrued (config : Config) (acc : Withdrawal) : Prop where
  error : acc.error = none
  within : acc.mbrnIncentives ≤ config.maxIncentives
  isUser : acc.mbrnIncentives ≠ 0 → acc.isUser = true

theorem withdrawalLoop_runs {asked : Decimal} (range : InRange blockTime user s)
    (capped : depositsOf user s.asset.deposits ≠ [] → s.incentives ≤ s.config.maxIncentives)
    (enough : ∀ entry ∈ turns blockTime s.config skipUnstaking asked.atomics
      (depositsOf user s.asset.deposits), ¬ FallsShort s.config skipUnstaking entry.1 entry.2) :
    ∃ acc, s.asset.deposits.foldlM (withdrawFromDeposit blockTime s.config user skipUnstaking)
      ⟨s.incentives, 0, none, false, asked, 0, none, []⟩ = .ok acc ∧ acc.Accrued s.config := by
  by_cases hnone : depositsOf user s.asset.deposits = []
  · exact ⟨_, foldlM_withdrawFromDeposit_idle _ hnone, rfl, Nat.zero_le _, fun h => absurd rfl h⟩
  · have hfine : (⟨s.incentives, 0, none, false, asked, 0, none, []⟩ : Withdrawal).Fine s.config :=
      ⟨rfl, capped hnone, Nat.zero_le _, fun h => absurd rfl h⟩
    have hfits : 0 * Decimal.fractional + heldIn (depositsOf user s.asset.deposits) <
        Uint128.limit := by
      rw [Nat.zero_mul, Nat.zero_add]
      exact range.total
    obtain ⟨acc, hrun, hfine⟩ := foldlM_withdrawFromDeposit_runs range.period range.max
      range.accruable hfine hfits enough
    exact ⟨acc, hrun, hfine.error, Nat.le_trans hfine.incentives hfine.capped, hfine.isUser⟩

/-- In range, the call panics where a deposit falls short or the pool does not hold what is
    paid. It is refused where not all that is asked for is found, and succeeds elsewhere. -/
theorem withdrawalFromState_runs {asked : Decimal} (range : InRange blockTime user s)
    (capped : depositsOf user s.asset.deposits ≠ [] → s.incentives ≤ s.config.maxIncentives)
    (enough : ∀ entry ∈ turns blockTime s.config skipUnstaking asked.atomics
      (depositsOf user s.asset.deposits), ¬ FallsShort s.config skipUnstaking entry.1 entry.2) :
    (askedAfter blockTime s.config skipUnstaking asked.atomics
        (depositsOf user s.asset.deposits) ≠ 0 ∧
      withdrawalFromState blockTime user asked skipUnstaking s =
        .error (.err .invalidWithdrawal)) ∨
    (askedAfter blockTime s.config skipUnstaking asked.atomics
        (depositsOf user s.asset.deposits) = 0 ∧
      (s.asset.creditAsset.amount < paidIn blockTime s.config skipUnstaking
          (turns blockTime s.config skipUnstaking asked.atomics
            (depositsOf user s.asset.deposits)) ∧
        withdrawalFromState blockTime user asked skipUnstaking s = .error .panic ∨
      paidIn blockTime s.config skipUnstaking (turns blockTime s.config skipUnstaking asked.atomics
          (depositsOf user s.asset.deposits)) ≤ s.asset.creditAsset.amount ∧
        ∃ result, withdrawalFromState blockTime user asked skipUnstaking s = .ok result)) := by
  obtain ⟨acc, hrun, haccrued⟩ := withdrawalLoop_runs range capped enough
  have hturns := foldlM_withdrawFromDeposit hrun (fun h => absurd rfl h)
  have hasked : acc.asked = askedAfter blockTime s.config skipUnstaking asked.atomics
    (depositsOf user s.asset.deposits) := hturns.asked
  have hpaid : acc.withdrawableAmount = paidIn blockTime s.config skipUnstaking
      (turns blockTime s.config skipUnstaking asked.atomics (depositsOf user s.asset.deposits)) :=
    hturns.paid.trans (Nat.zero_add _)
  rw [← hasked, ← hpaid]
  have hloop : liftStd (s.asset.deposits.foldlM
      (withdrawFromDeposit blockTime s.config user skipUnstaking)
      ⟨s.incentives, 0, none, false, asked, 0, none, []⟩) = .ok acc := liftStd_eq_ok.mpr hrun
  unfold withdrawalFromState
  rw [hloop]
  by_cases hnothing : acc.withdrawalAmount ≠ Decimal.zero
  · refine .inl ⟨ne_zero_iff.mp hnothing, ?_⟩
    have hguard :
        (guardErr (acc.withdrawalAmount ≠ Decimal.zero) .invalidWithdrawal : Result PUnit) =
      .error (.err .invalidWithdrawal) := if_pos hnothing
    show (guardErr (acc.withdrawalAmount ≠ Decimal.zero) _ >>= _) = _
    rw [hguard]
    rfl
  · have hzero : acc.asked = 0 := congrArg Decimal.atomics (not_not.mp hnothing)
    refine .inr ⟨hzero, ?_⟩
    have hguard :
        (guardErr (acc.withdrawalAmount ≠ Decimal.zero) .invalidWithdrawal : Result PUnit) =
      .ok ⟨⟩ := if_neg hnothing
    show (_ ∧ (guardErr (acc.withdrawalAmount ≠ Decimal.zero) _ >>= _) = _) ∨
      (_ ∧ ∃ result, (guardErr (acc.withdrawalAmount ≠ Decimal.zero) _ >>= _) = .ok result)
    rw [hguard]
    by_cases hcovered : acc.withdrawableAmount ≤ s.asset.creditAsset.amount
    · refine .inr ⟨hcovered, ?_⟩
      have hcredit : (Outcome.unwrap (Uint128.checkedSub s.asset.creditAsset.amount
          acc.withdrawableAmount) : Result Nat) =
            .ok (s.asset.creditAsset.amount - acc.withdrawableAmount) :=
        unwrap_eq_ok.mpr (if_pos hcovered)
      apply bind_succeeds (a := PUnit.unit) rfl
      apply bind_succeeds hcredit
      rw [haccrued.error]
      obtain ⟨users, husers⟩ := claimIncentives_runs s.config haccrued.isUser fun coin mem =>
          Nat.lt_of_le_of_lt (Nat.add_le_add_left haccrued.within _) (range.claims coin mem)
      exact bind_succeeds husers ⟨_, rfl⟩
    · refine .inl ⟨Nat.lt_of_not_le hcovered, ?_⟩
      have hcredit : (Outcome.unwrap (Uint128.checkedSub s.asset.creditAsset.amount
          acc.withdrawableAmount) : Result Nat) = .error .panic := by
        rw [Uint128.checkedSub, if_neg hcovered]
        rfl
      show (Outcome.unwrap (Uint128.checkedSub s.asset.creditAsset.amount
          acc.withdrawableAmount) >>= _) = _
      rw [hcredit]
      rfl

theorem withdrawalFromState_loop {asked : Decimal}
    (safe : withdrawalFromState blockTime user asked skipUnstaking s ≠ .error .panic) :
    ∃ acc, s.asset.deposits.foldlM (withdrawFromDeposit blockTime s.config user skipUnstaking)
      ⟨s.incentives, 0, none, false, asked, 0, none, []⟩ = .ok acc := by
  cases hrun : s.asset.deposits.foldlM (withdrawFromDeposit blockTime s.config user skipUnstaking)
      ⟨s.incentives, 0, none, false, asked, 0, none, []⟩ with
  | ok acc => exact ⟨acc, rfl⟩
  | error fault =>
    have herrorless : Errorless (s.asset.deposits.foldlM
        (withdrawFromDeposit blockTime s.config user skipUnstaking)
        ⟨s.incentives, 0, none, false, asked, 0, none, []⟩) :=
      .foldlM withdrawFromDeposit_errorless _ _
    cases fault with
    | err e => exact absurd hrun (herrorless e)
    | panic =>
      exfalso
      apply safe
      rw [withdrawalFromState, hrun]
      rfl

/-! ## What is left -/

theorem turnOf_unmatured {deposit : Deposit} (asked : Nat)
    (waits : Matured blockTime config skipUnstaking deposit = false) :
    (turnOf blockTime config skipUnstaking deposit asked).paid = 0 := by
  rw [turnOf, waits, if_neg Bool.false_ne_true]
  unfold unstakeTurn idleTurn
  split
  case isTrue => rfl
  case isFalse =>
    split
    case isTrue => rfl
    case isFalse => split <;> rfl

theorem turnOf_keeps (blockTime : Nat) {deposit : Deposit} {asked : Nat}
    (enough : ¬ FallsShort config skipUnstaking deposit asked) :
    (turnOf blockTime config skipUnstaking deposit asked).left +
        (turnOf blockTime config skipUnstaking deposit asked).paid * Decimal.fractional ≤
          held deposit ∧
      ((turnOf blockTime config skipUnstaking deposit asked).left +
          (turnOf blockTime config skipUnstaking deposit asked).paid * Decimal.fractional =
            held deposit ↔
        (Matured blockTime config skipUnstaking deposit = true →
          PaysWhole config.minimumDepositAmount (held deposit) asked)) := by
  cases hmatured : Matured blockTime config skipUnstaking deposit with
  | true =>
    rw [imp_iff_right rfl, turnOf, if_pos hmatured]
    exact payTurn_spec _ _ _
  | false =>
    have hpaid := turnOf_unmatured asked hmatured
    have hkept : (turnOf blockTime config skipUnstaking deposit asked).left = held deposit := by
      rw [turnOf, if_neg (by rw [hmatured]; exact Bool.false_ne_true)]
      split
      case isTrue => rfl
      case isFalse hstaked =>
        refine (unstakeTurn_left fun hasked hless hshort => ?_).1
        apply Nat.le_of_not_lt
        intro hsmall
        have hskip : skipUnstaking = false := by
          cases skipUnstaking with
          | true => cases hmatured
          | false => rfl
        exact enough ⟨hskip, Option.not_isSome_iff_eq_none.mp hstaked, hasked, hless,
          hshort, hsmall⟩
    rw [hpaid, hkept, Nat.zero_mul, Nat.add_zero]
    exact ⟨Nat.le_refl _, fun _ h => absurd h Bool.false_ne_true, fun _ => rfl⟩

theorem turns_conserve {entries : List (Deposit × Nat)}
    (enough : ∀ entry ∈ entries, ¬ FallsShort config skipUnstaking entry.1 entry.2) :
    (entries.map fun entry => held entry.1).sum =
        (entries.map fun entry =>
          (turnOf blockTime config skipUnstaking entry.1 entry.2).left).sum +
        paidIn blockTime config skipUnstaking entries * Decimal.fractional ↔
      ∀ entry ∈ entries, Matured blockTime config skipUnstaking entry.1 = true →
        PaysWhole config.minimumDepositAmount (held entry.1) entry.2 := by
  have hsums := (sum_map_le fun entry mem =>
    (turnOf_keeps blockTime (enough entry mem)).1).2
  rw [List.sum_map_add, List.sum_map_mul_right] at hsums
  rw [paidIn, eq_comm]
  refine hsums.trans (forall₂_congr fun entry mem => ?_)
  exact (turnOf_keeps blockTime (enough entry mem)).2

theorem left_held (entries : List (Deposit × Nat)) :
    heldIn (entries.map (fun entry => keptDeposit blockTime config skipUnstaking entry.1 entry.2) ++
        entries.filterMap fun entry =>
          returnedDeposit blockTime config skipUnstaking entry.1 entry.2) =
      (entries.map fun entry =>
        (turnOf blockTime config skipUnstaking entry.1 entry.2).left).sum := by
  rw [heldIn, List.map_append, List.sum_append]
  induction entries with
  | nil => rfl
  | cons entry rest ih =>
    have hreturned : (((entry :: rest).filterMap fun entry =>
        returnedDeposit blockTime config skipUnstaking entry.1 entry.2).map held).sum =
          (turnOf blockTime config skipUnstaking entry.1 entry.2).returning.getD 0 +
            ((rest.filterMap fun entry =>
              returnedDeposit blockTime config skipUnstaking entry.1 entry.2).map held).sum := by
      rw [List.filterMap_cons, returnedDeposit]
      cases (turnOf blockTime config skipUnstaking entry.1 entry.2).returning with
      | none => exact (Nat.zero_add _).symm
      | some left => rfl
    rw [hreturned, List.map_cons, List.map_cons, List.sum_cons, List.map_cons, List.sum_cons, ← ih,
      Turn.left]
    show (turnOf blockTime config skipUnstaking entry.1 entry.2).kept + _ + _ = _
    omega

theorem turns_parts : ∀ (deposits : List Deposit) (asked : Nat),
    List.Forall₂ (fun deposit part => part * Decimal.fractional ≤ held deposit ∧
        (part ≠ 0 → Matured blockTime config skipUnstaking deposit = true)) deposits
      ((turns blockTime config skipUnstaking asked deposits).map fun entry =>
        (turnOf blockTime config skipUnstaking entry.1 entry.2).paid) := by
  intro deposits
  induction deposits with
  | nil => exact fun _ => .nil
  | cons deposit rest ih =>
    intro asked
    refine .cons ⟨turnOf_paid_le _ _ _ _ _, ?_⟩ (ih _)
    intro hpaid
    by_contra hwaits
    exact hpaid (turnOf_unmatured asked (Bool.eq_false_iff.mpr hwaits))

theorem mem_turns (blockTime : Nat) (config : Config) (skipUnstaking : Bool) {deposit : Deposit} :
    ∀ {deposits : List Deposit} (asked : Nat), deposit ∈ deposits →
      ∃ entry ∈ turns blockTime config skipUnstaking asked deposits, entry.1 = deposit := by
  intro deposits
  induction deposits with
  | nil => exact fun _ mem => (List.not_mem_nil mem).elim
  | cons head rest ih =>
    intro asked mem
    rcases List.mem_cons.mp mem with rfl | mem
    · exact ⟨_, List.mem_cons_self, rfl⟩
    · obtain ⟨entry, hmem, hentry⟩ := ih _ mem
      exact ⟨entry, List.mem_cons_of_mem _ hmem, hentry⟩

theorem Withdrew.waiting {s' : State} {paid asked : Nat} {deposit : Deposit}
    (withdrew : Withdrew blockTime user skipUnstaking s s' paid
      (turns blockTime s.config skipUnstaking asked (depositsOf user s.asset.deposits)))
    (mem : deposit ∈ depositsOf user s.asset.deposits)
    (waits : Matured blockTime s.config skipUnstaking deposit = false)
    (unstaking : deposit.unstakeTime ≠ none) (holds : held deposit ≠ 0) :
    { deposit with lastAccrued := blockTime } ∈ depositsOf user s'.asset.deposits := by
  obtain ⟨entry, hmem, rfl⟩ := mem_turns blockTime s.config skipUnstaking asked mem
  have hskip : skipUnstaking = false := by
    cases skipUnstaking with
    | true => cases waits
    | false => rfl
  have hkept : keptDeposit blockTime s.config skipUnstaking entry.1 entry.2 =
      { entry.1 with lastAccrued := blockTime } := by
    rw [keptDeposit, turnOf, waits, if_neg Bool.false_ne_true,
      if_pos (Option.isSome_iff_ne_none.mpr unstaking), unstakesAt, hskip,
        if_neg Bool.false_ne_true,
      if_neg (fun h => unstaking h.1)]
    rfl
  rw [withdrew.mine, standing, List.mem_filter, ← hkept]
  refine ⟨List.mem_append_left _ (List.mem_map_of_mem hmem), ?_⟩
  rw [hkept]
  exact decide_eq_true (ne_zero_iff.mpr holds)

/-- In range, a withdrawal keeps its promise exactly when the incentives are within their maximum
    where the user has deposits, no deposit of the user that begins to unstake is below the
    minimum while less than that is asked of it, and, where all that is asked for is found, the
    pool holds what is paid, the matured deposits that pay do so in whole tokens, and no other
    user has a deposit of nothing. -/
theorem withdrawn_iff {asked : Decimal} (range : InRange blockTime user s) :
    Withdrawn blockTime user skipUnstaking s
        (withdrawalFromState blockTime user asked skipUnstaking s) ↔
      KeepsDeposits blockTime user skipUnstaking asked.atomics s := by
  -- a successful withdrawal conserves the deposits where the matured ones pay whole tokens
  have hconserves : ∀ {paid s'}, Withdrew blockTime user skipUnstaking s s' paid
      (turns blockTime s.config skipUnstaking asked.atomics (depositsOf user s.asset.deposits)) →
      (∀ entry ∈ turns blockTime s.config skipUnstaking asked.atomics
        (depositsOf user s.asset.deposits), ¬ FallsShort s.config skipUnstaking entry.1 entry.2) →
      (heldIn (depositsOf user s.asset.deposits) =
          heldIn (depositsOf user s'.asset.deposits) + paid * Decimal.fractional ↔
        ∀ entry ∈ turns blockTime s.config skipUnstaking asked.atomics
          (depositsOf user s.asset.deposits),
          Matured blockTime s.config skipUnstaking entry.1 = true →
            PaysWhole s.config.minimumDepositAmount (held entry.1) entry.2) := by
    intro paid s' withdrew enough
    rw [withdrew.mine, heldIn_standing, left_held, withdrew.paid,
      ← turns_held blockTime s.config skipUnstaking _ asked.atomics]
    exact turns_conserve enough
  constructor
  · intro promise
    obtain ⟨acc, hloop⟩ := withdrawalFromState_loop promise.noPanic
    have henough := foldlM_withdrawFromDeposit_enough hloop
    have hcapped :
        depositsOf user s.asset.deposits ≠ [] → s.incentives ≤ s.config.maxIncentives := by
      intro some
      apply Nat.le_of_not_lt
      intro exceeded
      exact foldlM_withdrawFromDeposit_over range.accruable exceeded some acc hloop
    refine ⟨hcapped, henough, fun hfound => ?_⟩
    rcases withdrawalFromState_runs range hcapped henough with
      ⟨hnot, -⟩ | ⟨-, ⟨-, hpanic⟩ | hpays⟩
    · exact absurd hfound hnot
    · exact absurd hpanic promise.noPanic
    · obtain ⟨hcovered, ⟨paid, s'⟩, hdone⟩ := hpays
      obtain ⟨-, -, hwithdrew⟩ := withdrawalFromState_turns hdone
      refine ⟨hcovered, ?_, ?_⟩
      · exact (hconserves hwithdrew henough).mp (promise.conserved paid s' hdone)
      · have hothers := promise.others paid s' hdone
        rw [hwithdrew.others, standing, List.filter_eq_self] at hothers
        exact fun deposit mem => of_decide_eq_true (hothers deposit mem)
  · intro keeps
    have hfound : ∀ {paid s'}, withdrawalFromState blockTime user asked skipUnstaking s =
        .ok (paid, s') → _ := fun done => keeps.found (withdrawalFromState_turns done).1
    constructor
    · rcases withdrawalFromState_runs range keeps.capped keeps.enough with
        ⟨-, hrefused⟩ | ⟨hfound, ⟨huncovered, -⟩ | ⟨-, result, hdone⟩⟩
      · rw [hrefused]
        intro h
        cases h
      · exact absurd (keeps.found hfound).1 (Nat.not_le_of_lt huncovered)
      · rw [hdone]
        intro h
        cases h
    · intro paid s' done
      exact (hconserves (withdrawalFromState_turns done).2.2 keeps.enough).mpr (hfound done).2.1
    · intro paid s' done
      rw [(withdrawalFromState_turns done).2.2.others, standing, List.filter_eq_self]
      exact fun deposit mem => decide_eq_true ((hfound done).2.2 deposit mem)
    · intro paid s' done
      exact ⟨_, (withdrawalFromState_turns done).2.2.paid, turns_parts _ _⟩
    · intro paid s' done deposit mem waits unstaking holds
      exact (withdrawalFromState_turns done).2.2.waiting mem waits unstaking holds

end

/-! ## On a sample pool -/

/-- A deposit of 100 that is all unstaking. -/
def allUnstaked : List Call :=
  [sampleDeposit 0 100 hundred_positive, sampleCall "user" 10 (.withdraw 100)]

/-- After the period, 60 are withdrawn and 40 are left. -/
theorem withdrawn_matured : ∃ l, sampleAfter (fun _ _ => True) allUnstaked = some l ∧
    Withdrawn 86410 "user" false l.state
      (withdrawalFromState 86410 "user" ⟨60 * Decimal.fractional⟩ false l.state) := by
  have hread : (sampleAfter (fun _ _ => True) allUnstaked).map (fun l => (l.state.config,
      l.state.asset, l.state.incentives, (l.state.users.lookup "user").getD [])) =
        some (⟨"owner", Decimal.percent 9, 10000000000000, 1, 10, "umbrn", "proxy", "positions",
            "oracle"⟩,
          ⟨⟨.nativeToken "ucdt", 100⟩, ⟨0⟩,
            [⟨"user", ⟨100 * Decimal.fractional⟩, 0, 10, some 10⟩]⟩, 0, []) := by
    decide +kernel
  obtain ⟨l, hl, hstate⟩ := Option.map_eq_some_iff.mp hread
  simp only [Prod.mk.injEq] at hstate
  obtain ⟨hconfig, hasset, hincentives, hclaims⟩ := hstate
  refine ⟨l, hl, (withdrawn_iff ?_).mpr ⟨fun _ => ?_, ?_, fun _ => ⟨?_, ?_, ?_⟩⟩⟩
  · constructor
    · rw [hconfig]
      decide
    · rw [hconfig]
      decide
    · rw [hconfig, hasset]
      intro deposit mem
      obtain rfl := List.mem_singleton.mp mem
      refine ⟨⟨by decide, fun _ h => ?_⟩, 0, accumulateInterest_zero _ _, by decide⟩
      obtain rfl := Option.some.inj h
      decide
    · rw [hasset]
      decide +kernel
    · rw [hclaims]
      exact fun _ mem => (List.not_mem_nil mem).elim
  · rw [hconfig, hincentives]
    decide
  · rw [hconfig, hasset]
    decide +kernel
  · rw [hconfig, hasset]
    decide +kernel
  · rw [hconfig, hasset]
    decide +kernel
  · rw [hasset]
    decide +kernel

/-- A deposit of 14 of which a liquidation used 10. The minimum is 10. -/
def partlyLiquidated : List Call :=
  [sampleDeposit 0 14 (by decide), sampleCall "positions" 20 (.liquidate ⟨10 * Decimal.fractional⟩),
    sampleCall "positions" 20 (.distribute [⟨.nativeToken "uatom", 10⟩] [Decimal.one] 10)]

/-- The withdrawal of 2 from what is left panics. -/
theorem not_withdrawn : ¬ ∀ l, sampleAfter (fun _ _ => True) partlyLiquidated = some l →
    Withdrawn 30 "user" false l.state
      (withdrawalFromState 30 "user" ⟨2 * Decimal.fractional⟩ false l.state) := by
  intro claim
  have hread : (sampleAfter (fun _ _ => True) partlyLiquidated).any (fun l =>
      panicked (withdrawalFromState 30 "user" ⟨2 * Decimal.fractional⟩ false l.state)) = true := by
    decide +kernel
  obtain ⟨l, hl, hpanics⟩ := (Option.any_eq_true _ _).mp hread
  exact (claim l hl).noPanic (panicked_iff.mp hpanics)

/-! ## Deposits over runs -/

section

variable {user : Addr} {deposits deposits' : List Deposit}

def stakeOf (deposit : Deposit) : Addr × Nat := (deposit.user, held deposit)

theorem heldIn_depositsOf (user : Addr) (deposits : List Deposit) :
    heldIn (depositsOf user deposits) =
      ((deposits.map stakeOf).map fun stake => if stake.1 = user then stake.2 else 0).sum := by
  induction deposits with
  | nil => rfl
  | cons deposit rest ih =>
    rw [List.map_cons, List.map_cons, List.sum_cons, ← ih]
    unfold depositsOf
    by_cases hmine : deposit.user = user
    · rw [List.filter_cons_of_pos (by simpa using hmine), stakeOf, if_pos hmine]
      rfl
    · rw [List.filter_cons_of_neg (by simpa using hmine), stakeOf, if_neg hmine, Nat.zero_add]

theorem heldIn_of_stakes (same : deposits'.map stakeOf = deposits.map stakeOf) (user : Addr) :
    heldIn (depositsOf user deposits') = heldIn (depositsOf user deposits) := by
  rw [heldIn_depositsOf, heldIn_depositsOf, same]

theorem heldIn_of_others {other : Addr} (ne : other ≠ user)
    (others : othersDeposits other deposits' = standing (othersDeposits other deposits)) :
    heldIn (depositsOf user deposits') = heldIn (depositsOf user deposits) := by
  have hmine : ∀ deposits : List Deposit,
      depositsOf user (othersDeposits other deposits) = depositsOf user deposits := by
    intro deposits
    unfold depositsOf othersDeposits
    rw [List.filter_filter]
    refine List.filter_congr fun deposit _ => ?_
    by_cases huser : deposit.user = user
    · simp [huser, Ne.symm ne]
    · simp [huser]
  rw [← hmine deposits', others, depositsOf_standing, heldIn_standing, hmine]

end

/-- Whether a call can take from the deposits of a user: a withdrawal of the user's, or a repayment
    for the user or a distribution by the position contract. -/
def Call.takesFrom (s : State) (call : Call) (user : Addr) : Bool :=
  match call.msg with
  | .withdraw _ => decide (call.info.sender = user)
  | .repay userInfo _ => decide (call.info.sender = s.config.positionsContract) &&
      decide (userInfo.positionOwner = user)
  | .distribute .. => decide (call.info.sender = s.config.positionsContract)
  | _ => false

def Call.depositsFor (call : Call) (user : Addr) : Nat :=
  match call.msg with
  | .deposit owner =>
    if owner.getD call.info.sender = user then
      call.info.funds.head?.elim 0 fun coin => coin.amount * Decimal.fractional
    else 0
  | _ => 0

section

variable {blockTime : Nat} {user : Addr} {s s' : State} {info : MessageInfo}
  {addrValid : String → Bool} {msgs : List (CosmosMsg OutMsg)}

theorem validateAssets_head {head : Coin} {rest : List Coin} {assets : List Asset} {asset : Asset}
    (funds : info.funds = head :: rest) (done : validateAssets s head.denom info = .ok assets)
    (mem : asset ∈ assets) : asset.amount = head.amount := by
  unfold validateAssets at done
  split at done
  case isFalse =>
    obtain rfl := pure_eq_ok.mp done
    exact (List.not_mem_nil mem).elim
  case isTrue =>
    have hsent : assertSentNativeTokenBalance head.denom info =
        if 0 < head.amount then pure ⟨.nativeToken head.denom, head.amount⟩
        else Outcome.fail (.genericErr "You gave me nothing to deposit") := by
      rw [assertSentNativeTokenBalance, funds, List.find?_cons_of_pos (by simp)]
    rw [hsent] at done
    split at done
    case isTrue =>
      have hassets : [⟨.nativeToken head.denom, head.amount⟩] = assets := pure_eq_ok.mp done
      rw [← hassets] at mem
      obtain rfl := List.mem_singleton.mp mem
      rfl
    case isFalse =>
      have hassets : [] = assets := pure_eq_ok.mp done
      rw [← hassets] at mem
      exact (List.not_mem_nil mem).elim

theorem executeDeposit_held {owner : Option String}
    (done : executeDeposit addrValid blockTime info owner s = .ok (s', msgs)) :
    heldIn (depositsOf user s'.asset.deposits) = heldIn (depositsOf user s.asset.deposits) +
      if owner.getD info.sender = user then
        info.funds.head?.elim 0 fun coin => coin.amount * Decimal.fractional
      else 0 := by
  simp only [executeDeposit, deposit, bind_eq_ok, liftStd_eq_ok, index_eq_ok] at done
  obtain ⟨sent, hsent, assets, hassets, _, -, asset, hasset, _, -, validOwner, howner, amount,
    hamount, _, -, _, -, hstate⟩ := done
  cases pure_eq_ok.mp hstate
  obtain rfl := Decimal.fromRatio_one hamount
  have hhead : ∃ rest, info.funds = sent :: rest := by
    cases hfunds : info.funds with
    | nil =>
      rw [hfunds] at hsent
      cases hsent
    | cons head rest =>
      rw [hfunds] at hsent
      obtain rfl := Option.some.inj hsent
      exact ⟨rest, rfl⟩
  obtain ⟨rest, hfunds⟩ := hhead
  have hsame : asset.amount = sent.amount :=
    validateAssets_head hfunds hassets (List.mem_of_getElem? hasset)
  have howns : owner.getD info.sender = validOwner := by
    unfold setAddr at howner
    cases owner with
    | none => exact pure_eq_ok.mp howner
    | some text => exact (addrValidate_eq_ok.mp (liftStd_eq_ok.mp howner)).2
  rw [heldIn_depositsOf, heldIn_depositsOf, howns, hfunds]
  simp only [List.map_append, List.map_cons, List.map_nil, List.sum_append, List.sum_cons,
    List.sum_nil, Nat.add_zero, hsame]
  rfl

theorem withdraw_held {amount : Nat} (other : info.sender ≠ user)
    (done : withdraw blockTime info amount s = .ok (s', msgs)) :
    heldIn (depositsOf user s'.asset.deposits) = heldIn (depositsOf user s.asset.deposits) := by
  simp only [withdraw, bind_eq_ok] at done
  obtain ⟨_, -, _, -, _, -, ⟨withdrawable, left⟩, htake, _, -, _, -, _, -, hrest⟩ := done
  have hheld := heldIn_of_others other (withdrawalFromState_turns htake).2.2.others
  split at hrest
  case isTrue =>
    cases pure_eq_ok.mp hrest
    exact hheld
  case isFalse =>
    obtain ⟨_, -, hstate⟩ := bind_eq_ok.mp hrest
    cases pure_eq_ok.mp hstate
    exact hheld

theorem repay_held {userInfo : UserInfo} {repayment : Asset} (other : userInfo.positionOwner ≠ user)
    (done : repay addrValid blockTime info userInfo repayment s = .ok (s', msgs)) :
    heldIn (depositsOf user s'.asset.deposits) = heldIn (depositsOf user s.asset.deposits) := by
  simp only [repay, bind_eq_ok, liftStd_eq_ok, addrValidate_eq_ok] at done
  obtain ⟨_, -, _, -, owner, ⟨-, rfl⟩, _, -, _, -, _, -, _, -, ⟨withdrawable, left⟩, htake, _, -,
    hstate⟩ := done
  cases pure_eq_ok.mp hstate
  exact heldIn_of_others other (withdrawalFromState_turns htake).2.2.others

theorem restakeDeposit_stake {config : Config} {sender : Addr} {acc acc' : Restake}
    {deposit : Deposit} (done : restakeDeposit blockTime config sender acc deposit = .ok acc') :
    acc'.deposits.map stakeOf = acc.deposits.map stakeOf ++ [stakeOf deposit] := by
  unfold restakeDeposit at done
  split at done
  case isFalse =>
    obtain rfl := pure_eq_ok.mp done
    rw [List.map_append]
    rfl
  case isTrue =>
    simp only [bind_eq_ok] at done
    obtain ⟨stake, -, asked, hasked, ⟨incentives, error, total, accrued⟩, hread, _, -, _, -,
      hstate⟩ := done
    obtain rfl := pure_eq_ok.mp hstate
    have haccrued : accrued = { deposit with lastAccrued := blockTime } := by
      cases asked with
      | error =>
        cases pure_eq_ok.mp hread
        rfl
      | ok result =>
        have hresult := (accrueIncentives_spec (attempt_eq_ok_ok.mp hasked)).1
        cases pure_eq_ok.mp hread
        exact hresult
    rw [List.map_append, haccrued]
    rfl

theorem restake_held {restakeAmount : Decimal}
    (done : restake blockTime info restakeAmount s = .ok (s', msgs)) (user : Addr) :
    heldIn (depositsOf user s'.asset.deposits) = heldIn (depositsOf user s.asset.deposits) := by
  simp only [restake, bind_eq_ok, liftStd_eq_ok] at done
  obtain ⟨result, hloop, hrest⟩ := done
  have hstakes : result.deposits.map stakeOf = s.asset.deposits.map stakeOf :=
    foldlM_appends (fun acc : Restake => acc.deposits.map stakeOf) stakeOf
      (fun _ _ _ hround => restakeDeposit_stake hround) _ _ _ hloop
  split at hrest
  case h_1 => cases hrest
  case h_2 =>
    obtain ⟨users, -, hstate⟩ := bind_eq_ok.mp hrest
    cases pure_eq_ok.mp hstate
    exact heldIn_of_stakes hstakes user

theorem claim_held (done : claim blockTime info s = .ok (s', msgs)) (user : Addr) :
    heldIn (depositsOf user s'.asset.deposits) = heldIn (depositsOf user s.asset.deposits) := by
  simp only [claim, userClaimsMsgs, bind_eq_ok, liftStd_eq_ok] at done
  obtain ⟨⟨incentives, mid⟩, hget, users, -, claims, -, hrest⟩ := done
  obtain ⟨hmid, -⟩ := getUserIncentives_spec hget
  rw [hmid] at hrest
  cases pure_eq_ok.mp hrest
  refine heldIn_of_stakes ?_ user
  show (accruedDeposits blockTime info.sender s.asset.deposits).map stakeOf = _
  rw [accruedDeposits, List.map_map]
  refine List.map_congr_left fun deposit _ => ?_
  show stakeOf (if deposit.user = info.sender then _ else deposit) = stakeOf deposit
  split <;> rfl

end

theorem step_held {l l' : Ledger} {call : Call} {user : Addr}
    (kept : call.takesFrom l.state user = false) (step : l.step call l') :
    heldIn (depositsOf user l'.state.asset.deposits) =
      heldIn (depositsOf user l.state.asset.deposits) + call.depositsFor user := by
  obtain ⟨-, -, msgs, hexecute⟩ := step_spec step
  unfold Call.depositsFor
  unfold Call.takesFrom at kept
  cases hmsg : call.msg with
  | updateConfig update =>
    rw [hmsg] at hexecute
    rw [(updateConfig_spec hexecute).1]
    rfl
  | deposit owner =>
    rw [hmsg] at hexecute
    exact executeDeposit_held hexecute
  | withdraw amount =>
    rw [hmsg] at hexecute kept
    exact withdraw_held (of_decide_eq_false kept) hexecute
  | restake restakeAmount =>
    rw [hmsg] at hexecute
    exact restake_held hexecute user
  | claimRewards =>
    rw [hmsg] at hexecute
    exact claim_held hexecute user
  | liquidate liqAmount =>
    rw [hmsg] at hexecute
    simp only [execute, liquidate, bind_eq_ok] at hexecute
    obtain ⟨_, -, _, -, _, -, _, -, _, -, _, -, hstate⟩ := hexecute
    injection (pure_eq_ok.mp hstate) with hleft
    rw [← hleft]
    rfl
  | distribute assets ratios distributeFor =>
    rw [hmsg] at hexecute kept
    simp only [execute, distributeFunds, bind_eq_ok, guardErr_eq_ok] at hexecute
    obtain ⟨_, hauthority, -⟩ := hexecute
    exact absurd (of_decide_eq_false kept) hauthority
  | repay userInfo repayment =>
    rw [hmsg] at hexecute kept
    refine repay_held (fun owner => ?_) hexecute
    simp only [execute, repay, bind_eq_ok, guardErr_eq_ok] at hexecute
    obtain ⟨_, hauthority, -⟩ := hexecute
    simp [not_not.mp hauthority, owner] at kept

/-- The pool in time, with what was deposited for each user, in atomics. -/
structure Savings where
  ledger : Ledger
  deposited : Addr → Nat

def Savings.exec (v : Savings) (call : Call) : Option Savings :=
  (v.ledger.exec call).map fun ledger =>
    ⟨ledger, fun user => v.deposited user + call.depositsFor user⟩

def Savings.step (v : Savings) (call : Call) (v' : Savings) : Prop := v.exec call = some v'

/-- What the deposits of a user hold. -/
def Savings.heldBy (v : Savings) (user : Addr) : Nat :=
  heldIn (depositsOf user v.ledger.state.asset.deposits)

/-- From any state of the pool, over any calls none of which takes from a user's deposits, these
    hold what they held and what was deposited for the user. Only the user's withdrawals, and the
    position contract's repayments for the user and distributions, take from them: liquidations,
    claims, restakes, changes of the configuration and other users' withdrawals do not. -/
theorem deposits_kept {v v' : Savings} {user : Addr}
    (run : RunWhere Savings.step (fun v call => call.takesFrom v.ledger.state user = false) v v') :
    v'.heldBy user + v.deposited user = v.heldBy user + v'.deposited user := by
  have hkeeps : ∀ (mid : Savings) (call : Call) (next : Savings),
      mid.heldBy user + v.deposited user = v.heldBy user + mid.deposited user →
      call.takesFrom mid.ledger.state user = false → mid.step call next →
      next.heldBy user + v.deposited user = v.heldBy user + next.deposited user := by
    intro mid call next balanced kept step
    obtain ⟨ledger, hledger, rfl⟩ := Option.map_eq_some_iff.mp step
    have hheld := step_held kept hledger
    show heldIn (depositsOf user ledger.state.asset.deposits) + v.deposited user =
      v.heldBy user + (mid.deposited user + call.depositsFor user)
    unfold Savings.heldBy at balanced ⊢
    omega
  exact RunWhere.keeps hkeeps run rfl

theorem forty_positive : 0 < 40 := by decide

theorem two_hundred_positive : 0 < 200 := by decide

/-- Another deposit of the user's, one that the user makes for a friend, who unstakes a part of it,
    a liquidation, a repayment for the friend, and a claim. -/
def sampleShared : List Call := [
  sampleDeposit 2 40 forty_positive,
  { sampleDeposit 3 200 two_hundred_positive with msg := .deposit (some "friend") },
  sampleCall "friend" 4 (.withdraw 50),
  sampleCall "positions" 5 (.liquidate ⟨100 * Decimal.fractional⟩),
  sampleCall "positions" 6 (.repay ⟨1, "friend"⟩ ⟨.nativeToken "ucdt", 60⟩),
  sampleCall "user" 31536000 .claimRewards]

theorem deposits_kept_shared : ∃ l v',
    sampleAfter (fun _ _ => True) [sampleDeposit 1 100 hundred_positive] = some l ∧
    execAll (execWhere Savings.exec fun v call => call.takesFrom v.ledger.state "user" = false)
      sampleShared ⟨l, fun _ => 0⟩ = some v' ∧
    v'.heldBy "user" = 140 * Decimal.fractional ∧ v'.heldBy "friend" = 140 * Decimal.fractional ∧
    v'.heldBy "user" + 0 = heldIn (depositsOf "user" l.state.asset.deposits) +
      v'.deposited "user" := by
  have hreads : ((sampleAfter (fun _ _ => True) [sampleDeposit 1 100 hundred_positive]).bind
      fun l => (execAll (execWhere Savings.exec fun v call =>
        call.takesFrom v.ledger.state "user" = false) sampleShared ⟨l, fun _ => 0⟩).map
          fun v' => (v'.heldBy "user", v'.heldBy "friend")) =
            some (140 * Decimal.fractional, 140 * Decimal.fractional) := by
    decide +kernel
  obtain ⟨l, hl, hreads⟩ := Option.bind_eq_some_iff.mp hreads
  obtain ⟨v', hrun, hheld⟩ := Option.map_eq_some_iff.mp hreads
  obtain ⟨hmine, hfriend⟩ := Prod.mk.inj hheld
  exact ⟨l, v', hl, hrun, hmine, hfriend, deposits_kept (execWhere_run (fun _ _ _ h => h) hrun)⟩

end Membrane.StabilityPool
