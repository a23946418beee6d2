import Membrane.StabilityPool.Proofs.Turns
import Membrane.StabilityPool.Proofs.Unstaking

/-!
# A withdrawal takes turns

Each round of `withdrawal_from_state` that runs does to the amounts what the turn of its
deposit says. A whole run therefore keeps what the turns of the user's deposits keep, and
does not touch the others.
-/

namespace Membrane.StabilityPool

open Outcome

section

variable {blockTime : Nat} {config : Config} {acc acc' : Withdrawal} {deposit deposit' : Deposit}

/-- What is still to withdraw, in atomics. -/
def Withdrawal.asked (acc : Withdrawal) : Nat := acc.withdrawalAmount.atomics

theorem ne_zero_iff {a : Decimal} : a ≠ Decimal.zero ↔ a.atomics ≠ 0 := by
  refine not_congr ⟨fun h => congrArg Decimal.atomics h, fun h => ?_⟩
  exact congrArg Decimal.mk h

theorem accrueInLoop_frame {stake : Nat}
    (done : accrueInLoop blockTime config stake deposit acc = .ok (deposit', acc')) :
    deposit' = { deposit with lastAccrued := blockTime } ∧ acc' = { acc with
      total := acc'.total, mbrnIncentives := acc'.mbrnIncentives, error := acc'.error } := by
  obtain ⟨result, hresult, hrest⟩ := bind_eq_ok.mp done
  cases result with
  | error =>
    obtain ⟨rfl, rfl⟩ := Prod.mk.injEq _ _ _ _ ▸ pure_eq_ok.mp hrest
    exact ⟨rfl, rfl⟩
  | ok result =>
    have haccrued := (accrueIncentives_spec (attempt_eq_ok_ok.mp hresult)).1
    simp only [bind_eq_ok, pure_eq_ok, Prod.mk.injEq] at hrest
    obtain ⟨_, -, rfl, rfl⟩ := hrest
    exact ⟨haccrued, rfl⟩

theorem unstakeAmount_spec {amount : Decimal}
    (done : unstakeAmount config deposit acc.withdrawalAmount = .ok amount) :
    amount.atomics = unstakePart config.minimumDepositAmount (held deposit) acc.asked := by
  simp only [unstakeAmount, bind_eq_ok] at done
  obtain ⟨asked, hasked, hrest⟩ := done
  have hfloor := Decimal.mulUint_eq_ok hasked
  rw [Nat.one_mul] at hfloor
  subst hfloor
  unfold unstakePart
  by_cases short : tokens acc.asked < config.minimumDepositAmount
  · rw [if_pos short]
    rw [if_pos (show acc.withdrawalAmount.atomics / Decimal.fractional <
      config.minimumDepositAmount from short)] at hrest
    simp only [bind_eq_ok, Decimal.sub_eq_ok, pure_eq_ok] at hrest
    obtain ⟨minimum, hminimum, left, ⟨-, rfl⟩, rfl⟩ := hrest
    obtain rfl := Decimal.fromRatio_one hminimum
    exact apply_ite Decimal.atomics _ _ _
  · rw [if_neg short]
    rw [if_neg (show ¬ acc.withdrawalAmount.atomics / Decimal.fractional <
      config.minimumDepositAmount from short)] at hrest
    rw [← pure_eq_ok.mp hrest]
    rfl

theorem beginUnstaking_turn
    (done : beginUnstaking blockTime config deposit acc = .ok (deposit', acc')) :
    deposit' = { deposit with
        amount := ⟨(unstakeTurn config.minimumDepositAmount (held deposit) acc.asked).kept⟩
        unstakeTime := if acc.asked = 0 then deposit.unstakeTime else some blockTime } ∧
      acc' = { acc with
        withdrawalAmount :=
          ⟨(unstakeTurn config.minimumDepositAmount (held deposit) acc.asked).rest⟩
        returningDeposit :=
          ((unstakeTurn config.minimumDepositAmount (held deposit) acc.asked).returning.map
            fun left =>
            { deposit with amount := ⟨left⟩ }) <|> acc.returningDeposit } := by
  unfold beginUnstaking at done
  unfold unstakeTurn
  by_cases nothing : acc.asked = 0
  · have hnot : ¬ acc.withdrawalAmount ≠ Decimal.zero := fun h => ne_zero_iff.mp h nothing
    rw [if_neg (fun h => hnot h.2), if_neg hnot] at done
    simp only [pure_eq_ok, Prod.mk.injEq] at done
    obtain ⟨rfl, rfl⟩ := done
    rw [if_pos nothing, if_pos nothing]
    refine ⟨rfl, ?_⟩
    rw [← nothing]
    rfl
  · have hsome : acc.withdrawalAmount ≠ Decimal.zero := ne_zero_iff.mpr nothing
    rw [if_neg nothing, if_neg nothing]
    by_cases less : acc.asked < held deposit
    · rw [if_pos ⟨less, hsome⟩] at done
      rw [if_pos less]
      simp only [bind_eq_ok, Decimal.sub_eq_ok, pure_eq_ok, Prod.mk.injEq] at done
      obtain ⟨amount, hamount, left, ⟨-, rfl⟩, rfl, rfl⟩ := done
      rw [← unstakeAmount_spec hamount]
      exact ⟨rfl, rfl⟩
    · rw [if_neg (fun h => less h.1), if_pos hsome] at done
      rw [if_neg less]
      simp only [bind_eq_ok, Decimal.sub_eq_ok, pure_eq_ok, Prod.mk.injEq] at done
      obtain ⟨rest, ⟨-, rfl⟩, rfl, rfl⟩ := done
      exact ⟨rfl, rfl⟩

theorem payOut_idle (blockTime : Nat) (config : Config) (deposit : Deposit) (acc : Withdrawal) :
    payOut blockTime config false deposit acc = .ok (deposit, acc) := by
  rw [payOut, if_neg (fun h => Bool.false_ne_true h.2.2),
    if_neg (fun h => Bool.false_ne_true h.2.2)]
  rfl

theorem payOut_turn (accrued : deposit.lastAccrued = blockTime)
    (done : payOut blockTime config true deposit acc = .ok (deposit', acc')) :
    deposit' = { deposit with
        amount := ⟨(payTurn config.minimumDepositAmount (held deposit) acc.asked).kept⟩ } ∧
      acc' = { acc with
        total := acc'.total, mbrnIncentives := acc'.mbrnIncentives, error := acc'.error
        withdrawalAmount := ⟨(payTurn config.minimumDepositAmount (held deposit) acc.asked).rest⟩
        withdrawableAmount := acc.withdrawableAmount +
          (payTurn config.minimumDepositAmount (held deposit) acc.asked).paid } := by
  unfold payOut at done
  unfold payTurn
  by_cases nothing : acc.asked = 0
  · have hnot : ¬ acc.withdrawalAmount ≠ Decimal.zero := fun h => ne_zero_iff.mp h nothing
    rw [if_neg (fun h => hnot h.1), if_neg (fun h => hnot h.1)] at done
    simp only [pure_eq_ok, Prod.mk.injEq] at done
    obtain ⟨rfl, rfl⟩ := done
    rw [if_pos nothing]
    refine ⟨rfl, ?_⟩
    rw [← nothing]
    rfl
  · have hsome : acc.withdrawalAmount ≠ Decimal.zero := ne_zero_iff.mpr nothing
    rw [if_neg nothing]
    by_cases less : acc.asked < held deposit
    · rw [if_pos ⟨hsome, less, rfl⟩] at done
      rw [if_pos less]
      simp only [bind_eq_ok, pure_eq_ok, Uint128.add_eq_ok, Decimal.sub_eq_ok,
        Prod.mk.injEq] at done
      obtain ⟨asked, hasked, _, ⟨-, rfl⟩, _, ⟨-, rfl⟩, leftover, hleftover, ⟨kept, paid⟩, hkept,
        ⟨mid, accMid⟩, haccrue, rfl, rfl⟩ := done
      obtain ⟨rfl, hframe⟩ := accrueInLoop_frame haccrue
      have hasked' := Decimal.mulUint_eq_ok hasked
      have hleftover' := Decimal.mulUint_eq_ok hleftover
      rw [Nat.one_mul] at hasked' hleftover'
      subst hasked' hleftover'
      dsimp only at hframe hkept
      rw [hframe]
      have hshort : (deposit.amount.atomics - acc.withdrawalAmount.atomics) / Decimal.fractional <
          config.minimumDepositAmount ↔
            tokens (held deposit - acc.asked) < config.minimumDepositAmount := Iff.rfl
      by_cases short : tokens (held deposit - acc.asked) < config.minimumDepositAmount
      · rw [if_pos (hshort.mpr short)] at hkept
        rw [if_pos short]
        simp only [bind_eq_ok, pure_eq_ok, Uint128.add_eq_ok, Prod.mk.injEq] at hkept
        obtain ⟨_, ⟨-, rfl⟩, rfl, rfl⟩ := hkept
        refine ⟨?_, ?_⟩
        · rw [← accrued]
          rfl
        · rw [Nat.add_assoc]
          rfl
      · rw [if_neg (fun h => short (hshort.mp h))] at hkept
        rw [if_neg short]
        simp only [pure_eq_ok, Prod.mk.injEq] at hkept
        obtain ⟨rfl, rfl⟩ := hkept
        refine ⟨?_, rfl⟩
        rw [← accrued]
        rfl
    · have hle : deposit.amount ≤ acc.withdrawalAmount := Nat.le_of_not_lt less
      rw [if_neg (fun h => less h.2.1), if_pos ⟨hsome, hle, rfl⟩] at done
      rw [if_neg less]
      simp only [bind_eq_ok, pure_eq_ok, Uint128.add_eq_ok, Decimal.sub_eq_ok,
        Prod.mk.injEq] at done
      obtain ⟨rest, ⟨-, rfl⟩, amount, hamount, _, ⟨-, rfl⟩, rfl, rfl⟩ := done
      have hamount' := Decimal.mulUint_eq_ok hamount
      rw [Nat.one_mul] at hamount'
      subst hamount'
      exact ⟨rfl, rfl⟩

variable {skipUnstaking : Bool}

structure TakesTurn (blockTime : Nat) (config : Config) (skipUnstaking : Bool)
    (acc acc' : Withdrawal) (deposit : Deposit) : Prop where
  asked : acc'.asked = acc.asked - counted blockTime config skipUnstaking deposit
  paid : acc'.withdrawableAmount = acc.withdrawableAmount +
    (turnOf blockTime config skipUnstaking deposit acc.asked).paid
  keeps : acc'.deposits =
    acc.deposits ++ [keptDeposit blockTime config skipUnstaking deposit acc.asked]
  returns : acc'.returningDeposit =
    (returnedDeposit blockTime config skipUnstaking deposit acc.asked <|> acc.returningDeposit)

theorem payTurn_returning (minimum amount asked : Nat) :
    (payTurn minimum amount asked).returning = none := by
  unfold payTurn idleTurn
  split
  case isTrue => rfl
  case isFalse =>
    split
    case isTrue => split <;> rfl
    case isFalse => rfl

theorem TakesTurn.of_payOut {accrued : Deposit} {mid accPaid : Withdrawal}
    (matured : Matured blockTime config skipUnstaking deposit = true)
    (same : accrued = { deposit with
      lastAccrued := blockTime, unstakeTime :=
        unstakesAt blockTime skipUnstaking deposit acc.asked })
    (frame : mid = { acc with
      total := mid.total, mbrnIncentives := mid.mbrnIncentives, error :=
        mid.error, isUser := true })
    (done : payOut blockTime config true accrued mid = .ok (deposit', accPaid)) :
    TakesTurn blockTime config skipUnstaking acc
      { accPaid with deposits := accPaid.deposits ++ [deposit'] } deposit := by
  have haccrued : accrued.lastAccrued = blockTime := by rw [same]
  obtain ⟨hkept, hpaid⟩ := payOut_turn haccrued done
  have hheld : held accrued = held deposit := by rw [same]; rfl
  have hasked : mid.asked = acc.asked := by rw [frame]; rfl
  have hturn : turnOf blockTime config skipUnstaking deposit acc.asked =
      payTurn config.minimumDepositAmount (held accrued) mid.asked := by
    rw [turnOf, if_pos matured, hheld, hasked]
  constructor
  · rw [← turnOf_rest, hturn]
    show accPaid.withdrawalAmount.atomics = _
    rw [hpaid]
  · rw [hturn]
    show accPaid.withdrawableAmount = _
    rw [hpaid, frame]
  · show accPaid.deposits ++ [deposit'] = _
    rw [hkept, hpaid, frame, keptDeposit, hturn, same, frame]
  · show accPaid.returningDeposit = _
    rw [hpaid, frame, returnedDeposit, hturn, payTurn_returning]
    rfl

theorem withdrawFromDeposit_turn {user : Addr} (mine : deposit.user = user)
    (done : withdrawFromDeposit blockTime config user skipUnstaking acc deposit = .ok acc') :
    TakesTurn blockTime config skipUnstaking acc acc' deposit := by
  rw [withdrawFromDeposit, if_pos mine] at done
  simp only [bind_eq_ok, pure_eq_ok] at done
  obtain ⟨stake, -, ⟨accrued, acc₁⟩, haccrue, ⟨withdrawable, begun, acc₂⟩, hunstake,
    ⟨paid, acc₃⟩, hpay, rfl⟩ := done
  obtain ⟨rfl, hframe⟩ := accrueInLoop_frame haccrue
  dsimp only at hunstake hpay hframe
  cases hskip : skipUnstaking with
  | true =>
    rw [hskip] at hunstake
    simp only [unstake, if_true, pure_eq_ok, Prod.mk.injEq] at hunstake
    obtain ⟨rfl, rfl, rfl⟩ := hunstake
    exact .of_payOut rfl rfl hframe hpay
  | false =>
    rw [hskip] at hunstake
    cases hunstaking : deposit.unstakeTime with
    | some unstakeTime =>
      obtain ⟨-, rfl, rfl, rfl⟩ := unstake_unstaking hunstake hunstaking
      have hmatured : Matured blockTime config false deposit =
          periodPassed blockTime config unstakeTime := by
        rw [Matured, hunstaking]
        rfl
      have htime : unstakesAt blockTime false deposit acc.asked = deposit.unstakeTime := by
        rw [unstakesAt, if_neg Bool.false_ne_true, if_neg]
        rw [hunstaking]
        exact fun h => Option.some_ne_none _ h.1
      cases hpassed : periodPassed blockTime config unstakeTime with
      | true =>
        rw [hpassed] at hpay
        exact .of_payOut (hmatured.trans hpassed) (by rw [htime]) hframe hpay
      | false =>
        rw [hpassed] at hpay
        rw [payOut_idle, Except.ok.injEq, Prod.mk.injEq] at hpay
        obtain ⟨rfl, rfl⟩ := hpay
        have hturn : turnOf blockTime config false deposit acc.asked =
            idleTurn (held deposit) acc.asked := by
          rw [turnOf, hmatured, hpassed, hunstaking]
          rfl
        constructor
        · rw [← turnOf_rest, hturn]
          show acc₂.withdrawalAmount.atomics = _
          rw [hframe]
          rfl
        · rw [hturn]
          show acc₂.withdrawableAmount = _
          rw [hframe]
          rfl
        · show acc₂.deposits ++ _ = _
          rw [keptDeposit, hturn, htime, hframe]
          rfl
        · show acc₂.returningDeposit = _
          rw [returnedDeposit, hturn, hframe]
          rfl
    | none =>
      obtain ⟨rfl, hbegin⟩ := unstake_staked hunstake hunstaking
      rw [payOut_idle, Except.ok.injEq, Prod.mk.injEq] at hpay
      obtain ⟨rfl, rfl⟩ := hpay
      obtain ⟨hkept, hbegun⟩ := beginUnstaking_turn hbegin
      have hasked : acc₁.asked = acc.asked := by rw [hframe]; rfl
      have hturn : turnOf blockTime config false deposit acc.asked =
          unstakeTurn config.minimumDepositAmount (held deposit) acc₁.asked := by
        rw [turnOf, Matured, hunstaking, hasked]
        rfl
      have htime : unstakesAt blockTime false deposit acc.asked =
          if acc₁.asked = 0 then deposit.unstakeTime else some blockTime := by
        rw [unstakesAt, if_neg Bool.false_ne_true, hasked]
        by_cases nothing : acc.asked = 0
        · rw [if_pos nothing, if_neg (fun h => h.2 nothing)]
        · rw [if_neg nothing, if_pos ⟨hunstaking, nothing⟩]
      constructor
      · rw [← turnOf_rest, hturn]
        show acc₂.withdrawalAmount.atomics = _
        rw [hbegun]
        rfl
      · have hnothing : (turnOf blockTime config false deposit acc.asked).paid = 0 := by
          rw [hturn, unstakeTurn, idleTurn]
          split
          case isTrue => rfl
          case isFalse => split <;> rfl
        rw [hnothing]
        show acc₂.withdrawableAmount = _
        rw [hbegun, hframe]
        rfl
      · show acc₂.deposits ++ [begun] = _
        rw [hkept, hbegun, keptDeposit, hturn, htime, hframe]
        rfl
      · show acc₂.returningDeposit = _
        rw [hbegun, returnedDeposit, hturn, hframe]
        rfl

end

/-! ## The whole run -/

/-- The deposits of a user. -/
def depositsOf (user : Addr) (deposits : List Deposit) : List Deposit :=
  deposits.filter fun deposit => deposit.user = user

def othersDeposits (user : Addr) (deposits : List Deposit) : List Deposit :=
  deposits.filter fun deposit => deposit.user ≠ user

@[simp]
theorem depositsOf_append (user : Addr) (deposits deposits' : List Deposit) :
    depositsOf user (deposits ++ deposits') =
      depositsOf user deposits ++ depositsOf user deposits' := List.filter_append ..

@[simp]
theorem othersDeposits_append (user : Addr) (deposits deposits' : List Deposit) :
    othersDeposits user (deposits ++ deposits') =
      othersDeposits user deposits ++ othersDeposits user deposits' := List.filter_append ..

theorem depositsOf_mine {user : Addr} {deposits : List Deposit}
    (mine : ∀ deposit ∈ deposits, deposit.user = user) : depositsOf user deposits = deposits := by
  rw [depositsOf, List.filter_eq_self]
  intro deposit mem
  exact decide_eq_true (mine deposit mem)

theorem othersDeposits_mine {user : Addr} {deposits : List Deposit}
    (mine : ∀ deposit ∈ deposits, deposit.user = user) : othersDeposits user deposits = [] := by
  rw [othersDeposits, List.filter_eq_nil_iff]
  intro deposit mem
  simpa using mine deposit mem

section

variable {blockTime : Nat} {config : Config} {user : Addr} {skipUnstaking : Bool}

def paidIn (blockTime : Nat) (config : Config) (skipUnstaking : Bool)
    (entries : List (Deposit × Nat)) : Nat :=
  (entries.map fun entry => (turnOf blockTime config skipUnstaking entry.1 entry.2).paid).sum

structure TakesTurns (blockTime : Nat) (config : Config) (user : Addr) (skipUnstaking : Bool)
    (acc acc' : Withdrawal) (deposits : List Deposit) (entries : List (Deposit × Nat)) : Prop where
  asked : acc'.asked = askedAfter blockTime config skipUnstaking acc.asked
    (depositsOf user deposits)
  paid : acc'.withdrawableAmount =
    acc.withdrawableAmount + paidIn blockTime config skipUnstaking entries
  kept : depositsOf user acc'.deposits = depositsOf user acc.deposits ++ entries.map fun entry =>
    keptDeposit blockTime config skipUnstaking entry.1 entry.2
  others : othersDeposits user acc'.deposits =
    othersDeposits user acc.deposits ++ othersDeposits user deposits
  returned : acc'.returningDeposit.toList = acc.returningDeposit.toList ++ entries.filterMap
    fun entry => returnedDeposit blockTime config skipUnstaking entry.1 entry.2

theorem returnedDeposit_last {deposit returned : Deposit} {asked : Nat}
    (returns : returnedDeposit blockTime config skipUnstaking deposit asked = some returned) :
    asked ≠ 0 ∧ asked - counted blockTime config skipUnstaking deposit = 0 ∧
      returned.user = deposit.user := by
  obtain ⟨left, hleft, rfl⟩ := Option.map_eq_some_iff.mp returns
  rw [← turnOf_rest]
  unfold turnOf at hleft ⊢
  cases hmatured : Matured blockTime config skipUnstaking deposit with
  | true =>
    rw [hmatured, if_pos rfl, payTurn_returning] at hleft
    cases hleft
  | false =>
    rw [hmatured, if_neg Bool.false_ne_true] at hleft
    cases hunstake : deposit.unstakeTime with
    | some unstakeTime =>
      rw [hunstake] at hleft
      cases hleft
    | none =>
      rw [hunstake, Option.isSome_none, if_neg Bool.false_ne_true] at hleft
      show asked ≠ 0 ∧ (unstakeTurn config.minimumDepositAmount (held deposit) asked).rest = 0 ∧ _
      unfold unstakeTurn at hleft ⊢
      by_cases nothing : asked = 0
      · rw [if_pos nothing] at hleft
        cases hleft
      · rw [if_neg nothing] at hleft ⊢
        by_cases less : asked < held deposit
        · rw [if_pos less]
          exact ⟨nothing, rfl, rfl⟩
        · rw [if_neg less] at hleft
          cases hleft

theorem foldlM_withdrawFromDeposit : ∀ {deposits : List Deposit} {acc acc' : Withdrawal},
    deposits.foldlM (withdrawFromDeposit blockTime config user skipUnstaking) acc = .ok acc' →
    (acc.returningDeposit ≠ none → acc.asked = 0) →
    TakesTurns blockTime config user skipUnstaking acc acc' deposits
      (turns blockTime config skipUnstaking acc.asked (depositsOf user deposits)) := by
  intro deposits
  induction deposits with
  | nil =>
    intro acc acc' done _
    obtain rfl := pure_eq_ok.mp done
    constructor
    · rfl
    · rfl
    · exact (List.append_nil _).symm
    · exact (List.append_nil _).symm
    · exact (List.append_nil _).symm
  | cons deposit rest ih =>
    intro acc acc' done single
    rw [List.foldlM_cons] at done
    obtain ⟨mid, hround, hrun⟩ := bind_eq_ok.mp done
    by_cases hmine : deposit.user = user
    · have hturn := withdrawFromDeposit_turn hmine hround
      have hhead : depositsOf user (deposit :: rest) = deposit :: depositsOf user rest :=
        List.filter_cons_of_pos (by simpa using hmine)
      have hothers : othersDeposits user (deposit :: rest) = othersDeposits user rest :=
        List.filter_cons_of_neg (by simpa using hmine)
      have hsingle : mid.returningDeposit ≠ none → mid.asked = 0 := by
        intro hsome
        rw [hturn.returns] at hsome
        rw [hturn.asked]
        cases hreturned : returnedDeposit blockTime config skipUnstaking deposit acc.asked with
        | some returned => exact (returnedDeposit_last hreturned).2.1
        | none =>
          rw [hreturned] at hsome
          rw [single hsome, Nat.zero_sub]
      have hrest := ih hrun hsingle
      have hkeptMine : depositsOf user [keptDeposit blockTime config skipUnstaking deposit
          acc.asked] = [keptDeposit blockTime config skipUnstaking deposit acc.asked] :=
        depositsOf_mine fun _ mem => (List.mem_singleton.mp mem ▸ hmine)
      have hkeptOther : othersDeposits user [keptDeposit blockTime config skipUnstaking deposit
          acc.asked] = [] :=
        othersDeposits_mine fun _ mem => (List.mem_singleton.mp mem ▸ hmine)
      rw [hhead, turns, ← hturn.asked]
      constructor
      · rw [hrest.asked, hturn.asked, askedAfter, askedAfter, hhead, List.map_cons, List.sum_cons,
          Nat.sub_sub]
      · rw [hrest.paid, hturn.paid, paidIn, paidIn, List.map_cons, List.sum_cons, Nat.add_assoc]
      · rw [hrest.kept, hturn.keeps, depositsOf_append, hkeptMine, List.map_cons,
          List.append_assoc, List.singleton_append]
      · rw [hrest.others, hturn.keeps, othersDeposits_append, hkeptOther, List.append_nil, hothers]
      · rw [hrest.returned, hturn.returns]
        cases hreturned : returnedDeposit blockTime config skipUnstaking deposit acc.asked with
        | none =>
          rw [List.filterMap_cons, hreturned]
          rfl
        | some returned =>
          have hnone : acc.returningDeposit = none := by
            by_contra hsome
            exact (returnedDeposit_last hreturned).1 (single hsome)
          rw [List.filterMap_cons, hreturned, hnone]
          rfl
    · have hmid : mid = { acc with deposits := acc.deposits ++ [deposit] } := by
        rw [withdrawFromDeposit, if_neg hmine] at hround
        exact (pure_eq_ok.mp hround).symm
      have hhead : depositsOf user (deposit :: rest) = depositsOf user rest :=
        List.filter_cons_of_neg (by simpa using hmine)
      have hothers : othersDeposits user (deposit :: rest) = deposit :: othersDeposits user rest :=
        List.filter_cons_of_pos (by simpa using hmine)
      have hnone : depositsOf user [deposit] = [] := List.filter_cons_of_neg (by simpa using hmine)
      have hsome : othersDeposits user [deposit] = [deposit] :=
        List.filter_cons_of_pos (by simpa using hmine)
      subst hmid
      have hrest := ih hrun single
      rw [hhead]
      constructor
      · rw [hrest.asked, hhead]
        rfl
      · exact hrest.paid
      · rw [hrest.kept, depositsOf_append, hnone, List.append_nil]
        rfl
      · rw [hrest.others, othersDeposits_append, hsome, hothers, List.append_assoc,
          List.singleton_append]
      · exact hrest.returned

/-! ## What is left of the deposits -/

def standing (deposits : List Deposit) : List Deposit :=
  deposits.filter fun deposit => deposit.amount ≠ Decimal.zero

/-- The sum of what deposits hold. -/
def heldIn (deposits : List Deposit) : Nat := (deposits.map held).sum

theorem heldIn_standing (deposits : List Deposit) :
    heldIn (standing deposits) = heldIn deposits := by
  induction deposits with
  | nil => rfl
  | cons deposit rest ih =>
    unfold heldIn standing at ih ⊢
    by_cases hsome : deposit.amount ≠ Decimal.zero
    · rw [List.filter_cons_of_pos (by simpa using hsome), List.map_cons, List.map_cons,
        List.sum_cons, List.sum_cons, ih]
    · have hzero : held deposit = 0 := congrArg Decimal.atomics (not_not.mp hsome)
      rw [List.filter_cons_of_neg (by simpa using hsome), ih, List.map_cons, List.sum_cons, hzero,
        Nat.zero_add]

theorem standing_append (deposits deposits' : List Deposit) :
    standing (deposits ++ deposits') = standing deposits ++ standing deposits' :=
  List.filter_append ..

theorem depositsOf_standing (deposits : List Deposit) :
    depositsOf user (standing deposits) = standing (depositsOf user deposits) :=
  List.filter_comm ..

theorem othersDeposits_standing (deposits : List Deposit) :
    othersDeposits user (standing deposits) = standing (othersDeposits user deposits) :=
  List.filter_comm ..

theorem turns_held (blockTime : Nat) (config : Config) (skipUnstaking : Bool) :
    ∀ (deposits : List Deposit) (asked : Nat),
    ((turns blockTime config skipUnstaking asked deposits).map fun entry => held entry.1).sum =
      heldIn deposits := by
  intro deposits
  induction deposits with
  | nil => exact fun _ => rfl
  | cons deposit rest ih =>
    intro asked
    rw [turns, List.map_cons, List.sum_cons, ih]
    rfl

/-- A withdrawal that succeeds has taken the turns of the user's deposits. -/
structure Withdrew (blockTime : Nat) (user : Addr) (skipUnstaking : Bool) (s s' : State)
    (paid : Nat) (entries : List (Deposit × Nat)) : Prop where
  paid : paid = paidIn blockTime s.config skipUnstaking entries
  mine : depositsOf user s'.asset.deposits =
    standing (entries.map (fun entry =>
        keptDeposit blockTime s.config skipUnstaking entry.1 entry.2) ++
      entries.filterMap fun entry =>
        returnedDeposit blockTime s.config skipUnstaking entry.1 entry.2)
  others : othersDeposits user s'.asset.deposits = standing (othersDeposits user s.asset.deposits)

theorem turns_mine {asked : Nat} {deposits : List Deposit}
    (mine : ∀ deposit ∈ deposits, deposit.user = user) :
    ∀ entry ∈ turns blockTime config skipUnstaking asked deposits, entry.1.user = user := by
  induction deposits generalizing asked with
  | nil => exact fun entry mem => (List.not_mem_nil mem).elim
  | cons deposit rest ih =>
    intro entry mem
    rcases List.mem_cons.mp mem with rfl | mem
    · exact mine deposit List.mem_cons_self
    · exact ih (fun other hmem => mine other (List.mem_cons_of_mem _ hmem)) entry mem

theorem mem_depositsOf {deposits : List Deposit} {deposit : Deposit} :
    deposit ∈ depositsOf user deposits ↔ deposit ∈ deposits ∧ deposit.user = user := by
  rw [depositsOf, List.mem_filter, decide_eq_true_eq]

theorem withdrawalFromState_turns {s s' : State} {asked : Decimal} {paid : Nat}
    (done : withdrawalFromState blockTime user asked skipUnstaking s = .ok (paid, s')) :
    askedAfter blockTime s.config skipUnstaking asked.atomics (depositsOf user s.asset.deposits) =
      0 ∧
      paid ≤ s.asset.creditAsset.amount ∧ Withdrew blockTime user skipUnstaking s s' paid
        (turns blockTime s.config skipUnstaking asked.atomics
          (depositsOf user s.asset.deposits)) := by
  simp only [withdrawalFromState, bind_eq_ok, liftStd_eq_ok, guardErr_eq_ok, unwrap_eq_ok] at done
  obtain ⟨acc, hrun, _, hnothing, amount, hamount, hrest⟩ := done
  have hturns := foldlM_withdrawFromDeposit hrun (fun h => absurd rfl h)
  have hasked := hturns.asked
  rw [show acc.asked = 0 from congrArg Decimal.atomics (not_not.mp hnothing)] at hasked
  have hpaid : acc.withdrawableAmount = paidIn blockTime s.config skipUnstaking _ :=
    hturns.paid.trans (Nat.zero_add _)
  cases herror : acc.error with
  | some error =>
    rw [herror] at hrest
    cases hrest
  | none =>
    rw [herror] at hrest
    simp only [bind_eq_ok, pure_eq_ok, Prod.mk.injEq] at hrest
    obtain ⟨users, -, rfl, rfl⟩ := hrest
    have hle : acc.withdrawableAmount ≤ s.asset.creditAsset.amount := by
      unfold Uint128.checkedSub at hamount
      split at hamount
      case isTrue h => exact h
      case isFalse => cases hamount
    have hreturned : acc.returningDeposit.toList = _ := hturns.returned.trans (List.nil_append _)
    have hmine : ∀ deposit ∈ acc.returningDeposit.toList, deposit.user = user := by
      intro deposit hmem
      rw [hreturned] at hmem
      obtain ⟨entry, hentry, hsome⟩ := List.mem_filterMap.mp hmem
      rw [(returnedDeposit_last hsome).2.2]
      exact turns_mine (fun deposit mem => (mem_depositsOf.mp mem).2) entry hentry
    have hkept : depositsOf user acc.deposits = _ := hturns.kept.trans (List.nil_append _)
    have hothers : othersDeposits user acc.deposits = _ := hturns.others.trans (List.nil_append _)
    refine ⟨hasked.symm, hle, hpaid, ?_, ?_⟩
    · show depositsOf user (standing acc.deposits ++ standing acc.returningDeposit.toList) = _
      rw [standing_append, depositsOf_append, depositsOf_standing, depositsOf_standing, hkept,
        depositsOf_mine hmine, hreturned]
      rfl
    · show othersDeposits user (standing acc.deposits ++ standing acc.returningDeposit.toList) = _
      rw [othersDeposits_append, othersDeposits_standing, othersDeposits_standing, hothers,
        othersDeposits_mine hmine]
      exact List.append_nil _

end

end Membrane.StabilityPool
