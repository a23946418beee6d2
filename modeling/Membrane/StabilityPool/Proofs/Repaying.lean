import Mathlib.Algebra.BigOperators.Ring.List
import Membrane.Lib.Shares
import Membrane.StabilityPool.Proofs.Withdrawing

/-!
# Repayment for a user

The position contract has the pool repay a user's debt out of the deposits. The deposits
are lowered by `withdrawal_from_state`, which also takes out a rest below the minimum, while
the message carries no more than what was asked for.
-/

namespace Membrane.StabilityPool

open Outcome

def sentWith (messages : List (CosmosMsg OutMsg)) : Nat :=
  (messages.map fun message => match message with
    | .execute _ _ funds => (funds.map Coin.amount).sum
    | .bankSend _ coins => (coins.map Coin.amount).sum).sum

/-- What is taken out of a user's deposits is sent. -/
def Repaid (user : Addr) (s s' : State) (messages : List (CosmosMsg OutMsg)) : Prop :=
  heldIn (depositsOf user s.asset.deposits) =
    heldIn (depositsOf user s'.asset.deposits) + sentWith messages * Decimal.fractional

/-- A deposit repays what is asked of it: all of it, a whole number of tokens, or a whole
    number of tokens that leaves at least the minimum. -/
def RepaysExactly (minimum : Nat) (deposit : Deposit) (asked : Nat) : Prop :=
  asked ≠ 0 →
    if asked < held deposit then
      Decimal.fractional ∣ asked ∧ minimum ≤ tokens (held deposit - asked)
    else Decimal.fractional ∣ held deposit

instance (minimum : Nat) (deposit : Deposit) (asked : Nat) :
    Decidable (RepaysExactly minimum deposit asked) :=
  inferInstanceAs (Decidable (_ → _))

theorem tokens_mul_iff {amount : Nat} :
    tokens amount * Decimal.fractional = amount ↔ Decimal.fractional ∣ amount :=
  ⟨fun h => ⟨tokens amount, by rw [Nat.mul_comm]; exact h.symm⟩, Nat.div_mul_cancel⟩

theorem payTurn_repays (minimum : Nat) (deposit : Deposit) (asked : Nat) :
    (payTurn minimum (held deposit) asked).kept + min asked (held deposit) ≤ held deposit ∧
      (payTurn minimum (held deposit) asked).paid * Decimal.fractional +
        (payTurn minimum (held deposit) asked).kept ≤ held deposit ∧
      ((payTurn minimum (held deposit) asked).kept + min asked (held deposit) = held deposit ∧
          (payTurn minimum (held deposit) asked).paid * Decimal.fractional +
            (payTurn minimum (held deposit) asked).kept = held deposit ↔
        RepaysExactly minimum deposit asked) := by
  unfold payTurn RepaysExactly idleTurn
  generalize held deposit = amount
  by_cases nothing : asked = 0
  · rw [if_pos nothing]
    simp [nothing]
  rw [if_neg nothing, imp_iff_right nothing]
  by_cases less : asked < amount
  · rw [if_pos less, if_pos less, Nat.min_eq_left (Nat.le_of_lt less)]
    have hasked := tokens_mul_le asked
    have hleft := tokens_mul_le (amount - asked)
    by_cases short : tokens (amount - asked) < minimum
    · rw [if_pos short]
      simp only [Nat.add_mul]
      omega
    · rw [if_neg short, ← tokens_mul_iff]
      dsimp only
      omega
  · rw [if_neg less, if_neg less, Nat.min_eq_right (Nat.le_of_not_lt less), ← tokens_mul_iff]
    have hamount := tokens_mul_le amount
    dsimp only
    omega

theorem paid_out_iff {α : Type} (whole kept paid used : α → Nat) {list : List α} {wanted : Nat}
    (loses : ∀ x ∈ list, kept x + used x ≤ whole x)
    (pays : ∀ x ∈ list, paid x * Decimal.fractional + kept x ≤ whole x)
    (asked : (list.map used).sum = wanted * Decimal.fractional) :
    (list.map whole).sum =
        (list.map kept).sum + min (list.map paid).sum wanted * Decimal.fractional ↔
      ∀ x ∈ list, kept x + used x = whole x ∧ paid x * Decimal.fractional + kept x = whole x := by
  obtain ⟨hloses, hused⟩ := sum_map_le loses
  obtain ⟨hpays, hwhole⟩ := sum_map_le pays
  have hpositive : 0 < Decimal.fractional := by decide
  generalize Decimal.fractional = unit at *
  rw [forall₂_and, ← hused, ← hwhole]
  rw [List.sum_map_add, asked] at hloses ⊢
  rw [List.sum_map_add, List.sum_map_mul_right] at hpays ⊢
  have hleast : min (list.map paid).sum wanted * unit ≤ wanted * unit :=
    Nat.mul_le_mul_right _ (Nat.min_le_right _ _)
  constructor
  · intro sent
    have hmin : wanted * unit ≤ min (list.map paid).sum wanted * unit := by omega
    have hwanted : wanted ≤ (list.map paid).sum :=
      (Nat.le_of_mul_le_mul_right hmin hpositive).trans (Nat.min_le_left _ _)
    have hpaid := Nat.mul_le_mul_right unit hwanted
    omega
  · rintro ⟨hlost, hpaid⟩
    have hequal : (list.map paid).sum * unit = wanted * unit := by omega
    have hsame : (list.map paid).sum = wanted := Nat.eq_of_mul_eq_mul_right hpositive hequal
    rw [hsame, Nat.min_self]
    exact hlost.symm

section

variable (blockTime : Nat) (config : Config)

theorem counted_skipping (deposit : Deposit) :
    counted blockTime config true deposit = held deposit :=
  rfl

theorem turns_asked : ∀ (deposits : List Deposit) (asked : Nat),
    ((turns blockTime config true asked deposits).map fun entry => min entry.2 (held entry.1)).sum +
      askedAfter blockTime config true asked deposits = asked := by
  intro deposits
  induction deposits with
  | nil => exact fun asked => Nat.zero_add _
  | cons deposit rest ih =>
    intro asked
    have hrest := ih (asked - held deposit)
    rw [askedAfter] at hrest ⊢
    rw [turns, counted_skipping, List.map_cons, List.map_cons, List.sum_cons, List.sum_cons,
      counted_skipping, ← Nat.sub_sub]
    dsimp only
    omega

theorem returnedDeposit_skipping (deposit : Deposit) (asked : Nat) :
    returnedDeposit blockTime config true deposit asked = none := by
  have hnone : (turnOf blockTime config true deposit asked).returning = none :=
    payTurn_returning _ _ _
  rw [returnedDeposit, hnone]
  rfl

theorem Withdrew.left_skipping {blockTime : Nat} {user : Addr} {s s' : State} {paid : Nat}
    {entries : List (Deposit × Nat)} (withdrew : Withdrew blockTime user true s s' paid entries) :
    heldIn (depositsOf user s'.asset.deposits) = (entries.map fun entry =>
      (payTurn s.config.minimumDepositAmount (held entry.1) entry.2).kept).sum := by
  have hnone : (entries.filterMap fun entry =>
      returnedDeposit blockTime s.config true entry.1 entry.2) = [] := by
    simp only [returnedDeposit_skipping, List.filterMap_none]
  rw [withdrew.mine, heldIn_standing, hnone, List.append_nil, heldIn, List.map_map]
  rfl

end

/-- A repayment that succeeds sends what it takes out of the user's deposits exactly when
    each of them repays exactly: a deposit that is used up is a whole number of tokens, and
    one that is used in part still holds the minimum. -/
theorem repaid_iff {addrValid : String → Bool} {blockTime : Nat} {info : MessageInfo}
    {userInfo : UserInfo} {repayment : Asset} {s s' : State} {messages : List (CosmosMsg OutMsg)}
    (done : repay addrValid blockTime info userInfo repayment s = .ok (s', messages)) :
    Repaid userInfo.positionOwner s s' messages ↔
      ∀ entry ∈ turns blockTime s.config true (repayment.amount * Decimal.fractional)
        (depositsOf userInfo.positionOwner s.asset.deposits),
        RepaysExactly s.config.minimumDepositAmount entry.1 entry.2 := by
  simp only [repay, bind_eq_ok, liftStd_eq_ok, addrValidate_eq_ok, guardErr_eq_ok, pure_eq_ok,
    Prod.mk.injEq] at done
  obtain ⟨_, -, _, -, _, ⟨-, rfl⟩, _, -, asked, hasked, _, -, _, -, ⟨withdrawable, mid⟩, hwithdraw,
    coin, hcoin, rfl, rfl⟩ := done
  obtain rfl := Decimal.fromRatio_one hasked
  obtain ⟨hnothing, -, hwithdrew⟩ := withdrawalFromState_turns hwithdraw
  have hafter := hwithdrew.left_skipping
  have hpaid := hwithdrew.paid
  have hbefore := turns_held blockTime s.config true
    (depositsOf userInfo.positionOwner s.asset.deposits) (repayment.amount * Decimal.fractional)
  have hused := turns_asked blockTime s.config
    (depositsOf userInfo.positionOwner s.asset.deposits) (repayment.amount * Decimal.fractional)
  rw [hnothing, Nat.add_zero] at hused
  have hsent : sentWith [.execute s.config.positionsContract (.repay userInfo.positionId
      (some userInfo.positionOwner) (some userInfo.positionOwner)) [coin]] =
        min withdrawable repayment.amount := by
    unfold assetToCoin at hcoin
    split at hcoin
    case h_1 =>
      obtain rfl := pure_eq_ok.mp hcoin
      simp [sentWith]
    case h_2 => cases hcoin
  rw [Repaid, hsent, hafter, ← hbefore]
  dsimp only at hpaid hused ⊢
  generalize turns blockTime s.config true (repayment.amount * Decimal.fractional)
    (depositsOf userInfo.positionOwner s.asset.deposits) = entries at *
  have hiff := paid_out_iff (fun entry : Deposit × Nat => held entry.1)
    (fun entry => (payTurn s.config.minimumDepositAmount (held entry.1) entry.2).kept)
    (fun entry => (payTurn s.config.minimumDepositAmount (held entry.1) entry.2).paid)
    (fun entry => min entry.2 (held entry.1))
    (fun entry _ => (payTurn_repays s.config.minimumDepositAmount entry.1 entry.2).1)
    (fun entry _ => (payTurn_repays s.config.minimumDepositAmount entry.1 entry.2).2.1) hused
  rw [hpaid]
  refine hiff.trans (forall₂_congr fun entry _ => ?_)
  exact (payTurn_repays s.config.minimumDepositAmount entry.1 entry.2).2.2

/-! ## On a sample pool -/

/-- A repayment for the user out of the sample pool, in which 100 was deposited. -/
def sampleRepayment (amount : Nat) : Option (State × State × List (CosmosMsg OutMsg)) :=
  (sampleAfter (fun _ _ => True) [sampleDeposit 0 100 hundred_positive]).bind fun l =>
    match repay (fun _ => true) 10 (MessageInfo.noFunds "positions") ⟨1, "user"⟩
      ⟨.nativeToken "ucdt", amount⟩ l.state with
    | .ok (s', messages) => some (l.state, s', messages)
    | .error _ => none

theorem sampleRepayment_spec {amount : Nat} {s s' : State} {messages : List (CosmosMsg OutMsg)}
    (done : sampleRepayment amount = some (s, s', messages)) :
    repay (fun _ => true) 10 (MessageInfo.noFunds "positions") ⟨1, "user"⟩
      ⟨.nativeToken "ucdt", amount⟩ s = .ok (s', messages) := by
  obtain ⟨l, -, hcall⟩ := Option.bind_eq_some_iff.mp done
  split at hcall
  case h_1 hdone =>
    obtain ⟨rfl, rfl, rfl⟩ := by simpa only [Option.some.injEq, Prod.mk.injEq] using hcall
    exact hdone
  case h_2 => cases hcall

/-- Half of the deposit is repaid, and the other half is left. -/
theorem repaid_half : ∃ s s' messages, sampleRepayment 50 = some (s, s', messages) ∧
    Repaid "user" s s' messages := by
  have hread : (sampleRepayment 50).map
      (fun run => (run.1.asset.deposits, run.1.config.minimumDepositAmount)) =
        some ([⟨"user", ⟨100 * Decimal.fractional⟩, 0, 0, none⟩], 10) := by
    decide +kernel
  obtain ⟨⟨s, s', messages⟩, hrun, hdeposits⟩ := Option.map_eq_some_iff.mp hread
  simp only [Prod.mk.injEq] at hdeposits
  refine ⟨s, s', messages, hrun, (repaid_iff (sampleRepayment_spec hrun)).mpr ?_⟩
  rw [hdeposits.1, hdeposits.2]
  intro entry mem
  obtain rfl := List.mem_singleton.mp mem
  decide +kernel

/-- Of a repayment of 95, the 5 that would be left are below the minimum. They are taken out
    of the deposits and sent to nobody. -/
theorem not_repaid : ¬ ∀ s s' messages, sampleRepayment 95 = some (s, s', messages) →
    Repaid "user" s s' messages := by
  intro claim
  have hmine :
      (sampleRepayment 95).map (fun run => (heldIn (depositsOf "user" run.1.asset.deposits),
      heldIn (depositsOf "user" run.2.1.asset.deposits), sentWith run.2.2)) =
        some (100 * Decimal.fractional, 0, 95) := by
    decide +kernel
  obtain ⟨⟨s, s', messages⟩, hrun, hamounts⟩ := Option.map_eq_some_iff.mp hmine
  simp only [Prod.mk.injEq] at hamounts
  obtain ⟨hbefore, hafter, hsent⟩ := hamounts
  have hrepaid := claim s s' messages hrun
  rw [Repaid, hbefore, hafter, hsent] at hrepaid
  exact absurd hrepaid (by decide)

end Membrane.StabilityPool
