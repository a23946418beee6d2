import Membrane.StabilityPool.Proofs.InOrder

/-!
# The turns of a withdrawal

A withdrawal gives each deposit of the user a turn, in the order of the list. What the turn
does to the amounts depends on the deposit, the time and what is still asked for, and is
said here in atomics, apart from the loop that carries the rest of the state along.
-/

namespace Membrane.StabilityPool

open Outcome

/-- What a turn does to a deposit: the tokens that are paid out, what is kept in its place,
    what goes to the back of the line, and what is still asked for. -/
structure Turn where
  paid : Nat
  kept : Nat
  returning : Option Nat
  rest : Nat
  deriving DecidableEq, Repr

/-- The whole tokens in an amount. -/
def tokens (atomics : Nat) : Nat := atomics / Decimal.fractional

def idleTurn (amount asked : Nat) : Turn := ⟨0, amount, none, asked⟩

/-- A deposit that can be paid out: all of it, or what is asked for, with a rest below the
    minimum. -/
def payTurn (minimum amount asked : Nat) : Turn :=
  if asked = 0 then idleTurn amount 0
  else if asked < amount then
    if tokens (amount - asked) < minimum then
      ⟨tokens asked + tokens (amount - asked), 0, none, 0⟩
    else ⟨tokens asked, amount - asked, none, 0⟩
  else ⟨tokens amount, 0, none, asked - amount⟩

def unstakePart (minimum amount asked : Nat) : Nat :=
  if tokens asked < minimum then
    if amount - minimum * Decimal.fractional < minimum * Decimal.fractional then amount
    else minimum * Decimal.fractional
  else asked

def unstakeTurn (minimum amount asked : Nat) : Turn :=
  if asked = 0 then idleTurn amount 0
  else if asked < amount then
    ⟨0, unstakePart minimum amount asked, some (amount - unstakePart minimum amount asked), 0⟩
  else ⟨0, amount, none, asked - amount⟩

def Matured (blockTime : Nat) (config : Config) (skipUnstaking : Bool) (deposit : Deposit) : Bool :=
  skipUnstaking || deposit.unstakeTime.any (periodPassed blockTime config)

def turnOf (blockTime : Nat) (config : Config) (skipUnstaking : Bool) (deposit : Deposit)
    (asked : Nat) : Turn :=
  if Matured blockTime config skipUnstaking deposit then
    payTurn config.minimumDepositAmount (held deposit) asked
  else if deposit.unstakeTime.isSome then idleTurn (held deposit) asked
  else unstakeTurn config.minimumDepositAmount (held deposit) asked

/-- What a deposit counts for of what is asked for: nothing while it is unstaking. -/
def counted (blockTime : Nat) (config : Config) (skipUnstaking : Bool) (deposit : Deposit) : Nat :=
  if Matured blockTime config skipUnstaking deposit || deposit.unstakeTime.isNone then held deposit
  else 0

/-- The deposits that a withdrawal goes through, each with what is still asked for when its
    turn comes. -/
def turns (blockTime : Nat) (config : Config) (skipUnstaking : Bool) :
    Nat → List Deposit → List (Deposit × Nat)
  | _, [] => []
  | asked, deposit :: rest =>
    (deposit, asked) :: turns blockTime config skipUnstaking
      (asked - counted blockTime config skipUnstaking deposit) rest

def askedAfter (blockTime : Nat) (config : Config) (skipUnstaking : Bool) (asked : Nat)
    (deposits : List Deposit) : Nat :=
  asked - (deposits.map (counted blockTime config skipUnstaking)).sum

def unstakesAt (blockTime : Nat) (skipUnstaking : Bool) (deposit : Deposit) (asked : Nat) :
    Option Nat :=
  if skipUnstaking then some blockTime
  else if deposit.unstakeTime = none ∧ asked ≠ 0 then some blockTime
  else deposit.unstakeTime

def keptDeposit (blockTime : Nat) (config : Config) (skipUnstaking : Bool) (deposit : Deposit)
    (asked : Nat) : Deposit :=
  { deposit with
    amount := ⟨(turnOf blockTime config skipUnstaking deposit asked).kept⟩
    lastAccrued := blockTime
    unstakeTime := unstakesAt blockTime skipUnstaking deposit asked }

def returnedDeposit (blockTime : Nat) (config : Config) (skipUnstaking : Bool) (deposit : Deposit)
    (asked : Nat) : Option Deposit :=
  (turnOf blockTime config skipUnstaking deposit asked).returning.map fun left =>
    { deposit with amount := ⟨left⟩, lastAccrued := blockTime }

theorem payTurn_rest (minimum amount asked : Nat) :
    (payTurn minimum amount asked).rest = asked - amount := by
  unfold payTurn idleTurn
  split
  case isTrue nothing => rw [nothing, Nat.zero_sub]
  case isFalse =>
    split
    case isTrue less =>
      rw [Nat.sub_eq_zero_of_le (Nat.le_of_lt less)]
      split <;> rfl
    case isFalse => rfl

theorem unstakeTurn_rest (minimum amount asked : Nat) :
    (unstakeTurn minimum amount asked).rest = asked - amount := by
  unfold unstakeTurn idleTurn
  split
  case isTrue nothing => rw [nothing, Nat.zero_sub]
  case isFalse =>
    split
    case isTrue less => exact (Nat.sub_eq_zero_of_le (Nat.le_of_lt less)).symm
    case isFalse => rfl

theorem turnOf_rest (blockTime : Nat) (config : Config) (skipUnstaking : Bool) (deposit : Deposit)
    (asked : Nat) : (turnOf blockTime config skipUnstaking deposit asked).rest =
      asked - counted blockTime config skipUnstaking deposit := by
  unfold turnOf counted
  cases Matured blockTime config skipUnstaking deposit with
  | true => exact payTurn_rest _ _ _
  | false =>
    cases deposit.unstakeTime with
    | none => exact unstakeTurn_rest _ _ _
    | some unstakeTime => rfl

/-! ## What a turn keeps -/

def Turn.left (turn : Turn) : Nat := turn.kept + turn.returning.getD 0

theorem unstakePart_le {minimum amount asked : Nat} (less : asked < amount)
    (large : tokens asked < minimum → minimum * Decimal.fractional ≤ amount) :
    unstakePart minimum amount asked ≤ amount := by
  unfold unstakePart
  split
  case isTrue short =>
    split
    · exact Nat.le_refl _
    · exact large short
  case isFalse => exact Nat.le_of_lt less

theorem tokens_mul_le (amount : Nat) : tokens amount * Decimal.fractional ≤ amount :=
  Nat.div_mul_le_self _ _

def PaysWhole (minimum amount asked : Nat) : Prop :=
  asked ≠ 0 →
    if asked < amount then Decimal.fractional ∣ asked ∧
      (tokens (amount - asked) < minimum → Decimal.fractional ∣ amount)
    else Decimal.fractional ∣ amount

instance (minimum amount asked : Nat) : Decidable (PaysWhole minimum amount asked) :=
  inferInstanceAs (Decidable (_ → _))

theorem payTurn_spec (minimum amount asked : Nat) :
    (payTurn minimum amount asked).left +
        (payTurn minimum amount asked).paid * Decimal.fractional ≤ amount ∧
      ((payTurn minimum amount asked).left +
        (payTurn minimum amount asked).paid * Decimal.fractional = amount ↔
          PaysWhole minimum amount asked) := by
  unfold payTurn PaysWhole
  by_cases nothing : asked = 0
  · rw [if_pos nothing]
    simp [idleTurn, Turn.left, nothing]
  rw [if_neg nothing]
  by_cases less : asked < amount
  · rw [if_pos less, if_pos less]
    have hasked := tokens_mul_le asked
    have hleft := tokens_mul_le (amount - asked)
    by_cases short : tokens (amount - asked) < minimum
    · rw [if_pos short]
      simp only [Turn.left, Option.getD_none, Nat.zero_add, Nat.add_mul, Nat.add_zero]
      refine ⟨by omega, ?_⟩
      constructor
      · intro heq _
        have hwhole : tokens asked * Decimal.fractional = asked := by omega
        have hrest : tokens (amount - asked) * Decimal.fractional = amount - asked := by omega
        refine ⟨⟨tokens asked, by rw [Nat.mul_comm]; exact hwhole.symm⟩, fun _ => ?_⟩
        refine ⟨tokens asked + tokens (amount - asked), ?_⟩
        rw [Nat.mul_comm, Nat.add_mul]
        exact heq.symm
      · intro whole
        obtain ⟨hwhole, hrest⟩ := whole nothing
        have hdvd := (Nat.dvd_sub (hrest short) hwhole : Decimal.fractional ∣ amount - asked)
        have hasked' : tokens asked * Decimal.fractional = asked := Nat.div_mul_cancel hwhole
        have hleft' : tokens (amount - asked) * Decimal.fractional = amount - asked :=
          Nat.div_mul_cancel hdvd
        omega
    · rw [if_neg short]
      simp only [Turn.left, Option.getD_none, Nat.add_zero]
      refine ⟨by omega, ?_⟩
      constructor
      · intro heq _
        have hwhole : tokens asked * Decimal.fractional = asked := by omega
        exact ⟨⟨tokens asked, by rw [Nat.mul_comm]; exact hwhole.symm⟩, fun h => absurd h short⟩
      · intro whole
        have hwhole : tokens asked * Decimal.fractional = asked :=
          Nat.div_mul_cancel (whole nothing).1
        omega
  · rw [if_neg less, if_neg less]
    have hamount := tokens_mul_le amount
    simp only [Turn.left, Option.getD_none, Nat.add_zero, Nat.zero_add]
    refine ⟨hamount, ?_⟩
    constructor
    · intro heq _
      exact ⟨tokens amount, by rw [Nat.mul_comm]; exact heq.symm⟩
    · intro whole
      exact Nat.div_mul_cancel (whole nothing)

theorem unstakeTurn_left {minimum amount asked : Nat}
    (large : asked ≠ 0 → asked < amount → tokens asked < minimum →
      minimum * Decimal.fractional ≤ amount) :
    (unstakeTurn minimum amount asked).left = amount ∧
    (unstakeTurn minimum amount asked).paid = 0 := by
  unfold unstakeTurn
  by_cases nothing : asked = 0
  · rw [if_pos nothing]
    exact ⟨rfl, rfl⟩
  rw [if_neg nothing]
  by_cases less : asked < amount
  · rw [if_pos less]
    have hle := unstakePart_le less (large nothing less)
    exact ⟨Nat.add_sub_cancel' hle, rfl⟩
  · rw [if_neg less]
    exact ⟨rfl, rfl⟩

end Membrane.StabilityPool
