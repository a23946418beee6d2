import Membrane.Vesting.Proofs.Unlocking

/-!
# Withdrawing over time

What a sequence of calls unlocks in all, each on the allocation the one before left. Before
the end of the vesting period the sum telescopes. A call from the end on writes the whole
amount on top of what was withdrawn, so that at most two calls can be made then.
-/

namespace Membrane.Vesting

open Outcome

/-! ## What one call unlocks -/

namespace Allocation

def cliffSeconds (a : Allocation) : Nat := a.vestingPeriod.cliff * secondsInADay

def linearSeconds (a : Allocation) : Nat := a.vestingPeriod.linear * secondsInADay

/-- The allocation has begun, and the seconds of its periods fit where they are used. -/
structure Timed (a : Allocation) (time : Nat) : Prop where
  started : a.startTimeOfAllocation ≤ time
  cliff : a.cliffSeconds < Uint64.limit
  linear : a.cliffSeconds ≤ time - a.startTimeOfAllocation → a.linearSeconds < Uint64.limit

def rate (a : Allocation) (time : Nat) : Nat :=
  if time - a.startTimeOfAllocation < a.cliffSeconds then 0
  else if time - a.startTimeOfAllocation - a.cliffSeconds < a.linearSeconds then
    (time - a.startTimeOfAllocation - a.cliffSeconds) * Decimal.fractional / a.linearSeconds
  else Decimal.fractional

def unlockedBy (a : Allocation) (time : Nat) : Nat :=
  a.amount * a.rate time / Decimal.fractional

/-- What a call pays of an allocation at a time, and what it leaves. -/
inductive Pays (a : Allocation) (time : Nat) : Nat → Allocation → Prop where
  | idle (nothing : a.rate time = 0) : Pays a time 0 a
  | part (something : a.rate time ≠ 0) (before : ¬ a.Vested time)
      (covers : a.amountWithdrawn ≤ a.unlockedBy time) :
      Pays a time (a.unlockedBy time - a.amountWithdrawn)
        { a with amountWithdrawn := a.unlockedBy time }
  | whole (vested : a.Vested time) (covers : a.amountWithdrawn ≤ a.amount)
      (fits : a.amountWithdrawn + a.amount < Uint128.limit) :
      Pays a time (a.amount - a.amountWithdrawn)
        { a with amountWithdrawn := a.amountWithdrawn + a.amount }

section Rate

variable {a : Allocation} {time : Nat}

theorem vested_iff (a : Allocation) (time : Nat) :
    a.Vested time ↔ a.startTimeOfAllocation + a.cliffSeconds + a.linearSeconds ≤ time := .rfl

theorem timed_withdrawn {withdrawn : Nat} :
    ({ a with amountWithdrawn := withdrawn } : Allocation).Timed time ↔ a.Timed time :=
  ⟨fun timed => ⟨timed.started, timed.cliff, timed.linear⟩,
    fun timed => ⟨timed.started, timed.cliff, timed.linear⟩⟩

theorem rate_vested (vested : a.Vested time) : a.rate time = Decimal.fractional := by
  rw [vested_iff] at vested
  rw [rate, if_neg (by omega), if_neg (by omega)]

theorem rate_past {passed : Nat} (a : Allocation)
    (elapsed : passed = time - a.startTimeOfAllocation)
    (past : ¬ passed < a.cliffSeconds) (part : passed - a.cliffSeconds < a.linearSeconds) :
    a.rate time = (passed - a.cliffSeconds) * Decimal.fractional / a.linearSeconds := by
  subst elapsed
  rw [rate, if_neg past, if_pos part]

theorem rate_le_one (a : Allocation) (time : Nat) : a.rate time ≤ Decimal.fractional := by
  unfold rate
  split
  case isTrue => exact Nat.zero_le _
  case isFalse =>
    split
    case isTrue hpart => exact Nat.div_le_of_le_mul (Nat.mul_le_mul_right _ (Nat.le_of_lt hpart))
    case isFalse => exact Nat.le_refl _

theorem rate_mono (a : Allocation) {time later : Nat} (le : time ≤ later) :
    a.rate time ≤ a.rate later := by
  by_cases hbefore : time - a.startTimeOfAllocation < a.cliffSeconds
  · rw [rate, if_pos hbefore]
    exact Nat.zero_le _
  · by_cases hpart : later - a.startTimeOfAllocation - a.cliffSeconds < a.linearSeconds
    · rw [rate, rate, if_neg hbefore, if_pos (by omega), if_neg (by omega), if_pos hpart]
      exact Nat.div_le_div_right (Nat.mul_le_mul_right _ (by omega))
    · have hlater : a.rate later = Decimal.fractional := by
        rw [rate, if_neg (by omega), if_neg hpart]
      rw [hlater]
      exact a.rate_le_one time

theorem unlockedBy_mono (a : Allocation) {time later : Nat} (le : time ≤ later) :
    a.unlockedBy time ≤ a.unlockedBy later :=
  Nat.div_le_div_right (Nat.mul_le_mul_left _ (a.rate_mono le))

theorem unlockedBy_zero (nothing : a.rate time = 0) : a.unlockedBy time = 0 := by
  rw [unlockedBy, nothing, Nat.mul_zero, Nat.zero_div]

theorem unlockedBy_vested (vested : a.Vested time) : a.unlockedBy time = a.amount := by
  rw [unlockedBy, rate_vested vested]
  exact Nat.mul_div_cancel _ (by decide)

theorem unlockedBy_le (a : Allocation) (time : Nat) : a.unlockedBy time ≤ a.amount :=
  @mul_ratio_le a.amount ⟨a.rate time⟩ (a.rate_le_one time)

end Rate

end Allocation

theorem ratio_eq {passed linear : Nat} {ratio : Decimal} (part : passed < linear)
    (fits : linear < Uint64.limit) :
    (do decimalDivision (← Decimal.fromRatio passed 1) (← Decimal.fromRatio linear 1) :
      Outcome StdError Decimal) = .ok ratio ↔
      ratio = ⟨passed * Decimal.fractional / linear⟩ := by
  have hwhole : linear * Decimal.fractional < Uint128.limit := by
    calc linear * Decimal.fractional
        < Uint64.limit * Decimal.fractional := Nat.mul_lt_mul_of_pos_right fits (by decide)
      _ < Uint128.limit := by decide
  have hpart : passed * Decimal.fractional < Uint128.limit :=
    Nat.lt_of_le_of_lt (Nat.mul_le_mul_right _ (Nat.le_of_lt part)) hwhole
  have hfrom : ∀ n a, n * Decimal.fractional < Uint128.limit →
      ((Decimal.fromRatio n 1 : Outcome StdError Decimal) = .ok a ↔
        a = ⟨n * Decimal.fractional⟩) := by
    intro n a hn
    rw [Decimal.fromRatio_eq_ok, Nat.div_one]
    exact ⟨fun h => h.2.2, fun h => ⟨Nat.one_ne_zero, hn, h⟩⟩
  have hcancel : passed * Decimal.fractional * Decimal.fractional /
      (linear * Decimal.fractional) = passed * Decimal.fractional / linear :=
    Nat.mul_div_mul_right _ _ (by decide)
  have hle : passed * Decimal.fractional / linear ≤ Decimal.fractional :=
    Nat.div_le_of_le_mul (Nat.mul_le_mul_right _ (Nat.le_of_lt part))
  simp only [bind_eq_ok, hfrom _ _ hpart, hfrom _ _ hwhole, decimalDivision_eq_ok]
  constructor
  · rintro ⟨_, rfl, _, rfl, -, -, rfl⟩
    rw [hcancel]
  · rintro rfl
    refine ⟨_, rfl, _, rfl, ?_, ?_, ?_⟩
    · exact Nat.mul_ne_zero (by omega) (by decide)
    · rw [hcancel]
      exact Nat.lt_of_le_of_lt hle (by decide)
    · rw [hcancel]

theorem newlyUnlocked_eq {amount withdrawn newly : Nat} {ratio : Decimal}
    (fits : amount < Uint128.limit) (le_one : ratio.atomics ≤ Decimal.fractional) :
    (if ratio.isZero = false then do
        subUint (← Decimal.mulUint amount ratio) withdrawn
      else pure 0 : Outcome StdError Nat) = .ok newly ↔
      (ratio.atomics = 0 ∧ newly = 0) ∨
      (ratio.atomics ≠ 0 ∧ withdrawn ≤ amount * ratio.atomics / Decimal.fractional ∧
        newly = amount * ratio.atomics / Decimal.fractional - withdrawn) := by
  have hbound : amount * ratio.atomics / Decimal.fractional ≤ amount := mul_ratio_le le_one
  have hfits : amount * ratio.atomics / Decimal.fractional < Uint128.limit := by omega
  by_cases hzero : ratio.atomics = 0
  · have hisZero : ¬ ratio.isZero = false := by simp [Decimal.isZero, hzero]
    rw [if_neg hisZero, pure_eq_ok]
    simp only [hzero, true_and, ne_eq, not_true_eq_false, false_and, or_false]
    exact eq_comm
  · have hisZero : ratio.isZero = false := by simpa [Decimal.isZero] using hzero
    rw [if_pos hisZero]
    simp only [bind_eq_ok, Decimal.mulUint_ok_iff, subUint_eq_ok, hzero, false_and, false_or,
      ne_eq, not_false_eq_true, true_and]
    constructor
    · rintro ⟨_, ⟨-, rfl⟩, hle, rfl⟩
      exact ⟨hle, rfl⟩
    · rintro ⟨hle, rfl⟩
      exact ⟨_, ⟨hfits, rfl⟩, hle, rfl⟩

theorem getUnlockedAmount_iff {a after : Allocation} {time unlocked : Nat} (some : a.amount ≠ 0)
    (fits : a.amount < Uint128.limit) (fits' : a.amountWithdrawn < Uint128.limit) :
    getUnlockedAmount a time = .ok (unlocked, after) ↔
      a.Timed time ∧ a.Pays time unlocked after := by
  have hend : ∀ {passed}, passed = time - a.startTimeOfAllocation →
      a.startTimeOfAllocation ≤ time → ¬ passed < a.cliffSeconds →
      (a.Vested time ↔ ¬ passed - a.cliffSeconds < a.linearSeconds) := by
    intro passed hpassed hstarted hpast
    rw [a.vested_iff]
    omega
  unfold getUnlockedAmount
  simp only [if_neg some, bind_eq_ok, subUint_eq_ok, Uint64.mul_eq_ok]
  constructor
  · rintro ⟨passed, ⟨hstarted, hpassed⟩, cliff, ⟨hcliff, rfl⟩, done⟩
    change a.cliffSeconds < Uint64.limit at hcliff
    change (if passed < a.cliffSeconds then _ else _) = _ at done
    split at done
    case isTrue hbefore =>
      simp only [pure_eq_ok, Prod.mk.injEq] at done
      obtain ⟨rfl, rfl⟩ := done
      refine ⟨⟨hstarted, hcliff, fun hle => by omega⟩, .idle ?_⟩
      rw [Allocation.rate, if_pos (by omega)]
    case isFalse hpast =>
      simp only [bind_eq_ok, Uint64.mul_eq_ok] at done
      obtain ⟨linear, ⟨hlinear, rfl⟩, done⟩ := done
      change a.linearSeconds < Uint64.limit at hlinear
      change (if passed - a.cliffSeconds < a.linearSeconds then _ else _) = _ at done
      refine ⟨⟨hstarted, hcliff, fun _ => hlinear⟩, ?_⟩
      split at done
      case isTrue hpart =>
        simp only [bind_eq_ok, Uint128.add_eq_ok, pure_eq_ok, Prod.mk.injEq] at done
        obtain ⟨x, hx, y, hy, ratio, hdivided, newly, hnewly, _, ⟨-, rfl⟩, rfl, rfl⟩ := done
        obtain rfl := (ratio_eq hpart hlinear).mp
          (bind_eq_ok.mpr ⟨x, hx, bind_eq_ok.mpr ⟨y, hy, hdivided⟩⟩)
        have hrate := a.rate_past hpassed.symm hpast hpart
        rw [← hrate] at hnewly
        rcases (newlyUnlocked_eq fits (a.rate_le_one time)).mp hnewly with
          ⟨hzero, rfl⟩ | ⟨hsome, hcovers, rfl⟩
        · exact .idle hzero
        · have hwithdrawn : a.amountWithdrawn + (a.unlockedBy time - a.amountWithdrawn) =
              a.unlockedBy time := Nat.add_sub_cancel' hcovers
          have hbefore : ¬ a.Vested time := fun vested =>
            (hend hpassed.symm hstarted hpast).mp vested hpart
          change a.Pays time (a.unlockedBy time - a.amountWithdrawn)
            { a with amountWithdrawn :=
              a.amountWithdrawn + (a.unlockedBy time - a.amountWithdrawn) }
          rw [hwithdrawn]
          exact .part hsome hbefore hcovers
      case isFalse hwhole =>
        simp only [bind_eq_ok, ofOption_eq_ok, Uint128.checkedSub_eq_some,
          Uint128.add_eq_ok, pure_eq_ok, Prod.mk.injEq] at done
        obtain ⟨_, ⟨hle, rfl⟩, _, ⟨hsum, rfl⟩, rfl, rfl⟩ := done
        exact .whole ((hend hpassed.symm hstarted hpast).mpr hwhole) hle hsum
  · rintro ⟨timed, pays⟩
    refine ⟨_, ⟨timed.started, rfl⟩, _, ⟨timed.cliff, rfl⟩, ?_⟩
    change (if time - a.startTimeOfAllocation < a.cliffSeconds then _ else _) = _
    by_cases hcliff : time - a.startTimeOfAllocation < a.cliffSeconds
    · have hrate : a.rate time = 0 := by rw [Allocation.rate, if_pos hcliff]
      rw [if_pos hcliff]
      cases pays with
      | idle => rfl
      | part something => exact absurd hrate something
      | whole vested =>
        rw [a.vested_iff] at vested
        omega
    · have hlinear := timed.linear (by omega)
      rw [if_neg hcliff, bind_eq_ok]
      refine ⟨_, Uint64.mul_eq_ok.mpr ⟨hlinear, rfl⟩, ?_⟩
      change (if time - a.startTimeOfAllocation - a.cliffSeconds < a.linearSeconds
        then _ else _) = _
      by_cases hpart : time - a.startTimeOfAllocation - a.cliffSeconds < a.linearSeconds
      · have hrate := a.rate_past rfl hcliff hpart
        have hratio := (@ratio_eq _ _ ⟨a.rate time⟩ hpart hlinear).mpr (by rw [hrate])
        have hbefore : ¬ a.Vested time := fun vested =>
          (hend rfl timed.started hcliff).mp vested hpart
        obtain ⟨newly, hnewly, hsum, hafter⟩ : ∃ newly,
            ((a.rate time = 0 ∧ newly = 0) ∨ (a.rate time ≠ 0 ∧
              a.amountWithdrawn ≤ a.unlockedBy time ∧
              newly = a.unlockedBy time - a.amountWithdrawn)) ∧
            a.amountWithdrawn + newly < Uint128.limit ∧
            (newly, { a with amountWithdrawn := a.amountWithdrawn + newly }) =
              (unlocked, after) := by
          have hle := a.unlockedBy_le time
          cases pays with
          | idle nothing => exact ⟨0, .inl ⟨nothing, rfl⟩, fits', rfl⟩
          | part something before covers =>
            refine ⟨_, .inr ⟨something, covers, rfl⟩, by omega, ?_⟩
            rw [Nat.add_sub_cancel' covers]
          | whole vested => exact absurd vested hbefore
        obtain ⟨x, hx, hrest⟩ := bind_eq_ok.mp hratio
        obtain ⟨y, hy, hdivided⟩ := bind_eq_ok.mp hrest
        rw [if_pos hpart, ← hafter]
        refine bind_eq_ok.mpr ⟨x, hx, bind_eq_ok.mpr ⟨y, hy, bind_eq_ok.mpr
          ⟨⟨a.rate time⟩, hdivided, bind_eq_ok.mpr ⟨newly, ?_, ?_⟩⟩⟩⟩
        · exact (newlyUnlocked_eq fits (a.rate_le_one time)).mpr hnewly
        · exact bind_eq_ok.mpr ⟨_, Uint128.add_eq_ok.mpr ⟨hsum, rfl⟩, rfl⟩
      · have hvested := (hend rfl timed.started hcliff).mpr hpart
        have hrate := Allocation.rate_vested hvested
        rw [if_neg hpart, bind_eq_ok]
        cases pays with
        | idle nothing =>
          rw [nothing] at hrate
          exact absurd hrate (by decide)
        | part something before => exact absurd hvested before
        | whole _ covers fits =>
          exact ⟨_, ofOption_eq_ok.mpr (Uint128.checkedSub_eq_some.mpr ⟨covers, rfl⟩),
            bind_eq_ok.mpr ⟨_, Uint128.add_eq_ok.mpr ⟨fits, rfl⟩, rfl⟩⟩

/-! ## A sequence of calls -/

/-- Successive calls, each on the allocation the one before returned, with the sum of what
    they return. -/
def unlockAll (a : Allocation) : List Nat → Outcome StdError (Nat × Allocation)
  | [] => pure (0, a)
  | time :: rest => do
      let (unlocked, after) ← getUnlockedAmount a time
      let (others, last) ← unlockAll after rest
      pure (unlocked + others, last)

/-- The calls return, and together what one call at the last time returns from the start:
    nothing before the cliff, no more than the amount, and no more than at any later time. -/
def PathIndependent (a : Allocation) (times : List Nat) : Prop :=
  ∃ total after, unlockAll a times = .ok (total, after) ∧
    ∀ last, times.getLast? = some last →
      (∃ single, getUnlockedAmount a last = .ok (total, single)) ∧
      (last < a.startTimeOfAllocation + a.cliffSeconds → total = 0) ∧
      total ≤ a.amount ∧
      ∀ later more single, last ≤ later → getUnlockedAmount a later = .ok (more, single) →
        total ≤ more

def Allocation.paidBy (a : Allocation) (times : List Nat) : Nat :=
  times.foldr (fun time paid => max (a.unlockedBy time) paid) a.amountWithdrawn

/-- The times before the end of the vesting period. -/
def Allocation.early (a : Allocation) (times : List Nat) : List Nat :=
  times.filter fun time => ¬ a.Vested time

/-- The condition on the calls: the times can be computed, what was withdrawn is unlocked
    whenever something is, and from the end on there is one call at most, or there are two
    and nothing was withdrawn before them. -/
structure Unlockable (a : Allocation) (times : List Nat) : Prop where
  timed : ∀ time ∈ times, a.Timed time
  covered : ∀ time ∈ times, a.rate time ≠ 0 → a.amountWithdrawn ≤ a.unlockedBy time
  ends : times.countP (fun time => a.Vested time) = 0 ∨
    (times.countP (fun time => a.Vested time) = 1 ∧
      a.paidBy (a.early times) + a.amount < Uint128.limit) ∨
    (times.countP (fun time => a.Vested time) = 2 ∧ a.paidBy (a.early times) = 0 ∧
      a.amount + a.amount < Uint128.limit)

theorem unlockAll_append {a : Allocation} {times times' : List Nat}
    {result : Nat × Allocation} : unlockAll a (times ++ times') = .ok result ↔
      ∃ total mid total' after, unlockAll a times = .ok (total, mid) ∧
        unlockAll mid times' = .ok (total', after) ∧ result = (total + total', after) := by
  induction times generalizing a result with
  | nil =>
    simp only [List.nil_append, unlockAll, pure_eq_ok, Prod.mk.injEq]
    constructor
    · intro done
      exact ⟨0, a, _, _, ⟨rfl, rfl⟩, done, by rw [Nat.zero_add]⟩
    · rintro ⟨_, _, total', after, ⟨rfl, rfl⟩, done, rfl⟩
      rw [done, Nat.zero_add]
  | cons time rest ih =>
    simp only [List.cons_append, unlockAll, bind_eq_ok, pure_eq_ok]
    constructor
    · rintro ⟨⟨unlocked, first⟩, hfirst, ⟨others, last⟩, hrest, rfl⟩
      obtain ⟨total, mid, total', after, hmid, hafter, heq⟩ := ih.mp hrest
      obtain ⟨rfl, rfl⟩ := Prod.mk.inj heq
      exact ⟨_, mid, total', _, ⟨_, hfirst, _, hmid, rfl⟩, hafter, by rw [Nat.add_assoc]⟩
    · rintro ⟨_, mid, total', after, ⟨⟨unlocked, first⟩, hfirst, ⟨others, last⟩, hmid, heq⟩,
        hafter, rfl⟩
      obtain ⟨rfl, rfl⟩ := Prod.mk.inj heq
      exact ⟨_, hfirst, _, ih.mpr ⟨_, _, _, _, hmid, hafter, rfl⟩, by rw [Nat.add_assoc]⟩

section Runs

variable {a : Allocation} {times : List Nat}

theorem foldr_max (measure : Nat → Nat) (times : List Nat) {base base' : Nat}
    (le : base ≤ base') : times.foldr (fun time paid => max (measure time) paid) base' =
      max base' (times.foldr (fun time paid => max (measure time) paid) base) := by
  induction times with
  | nil => exact (Nat.max_eq_left le).symm
  | cons time rest ih =>
    rw [List.foldr_cons, List.foldr_cons, ih]
    omega

theorem Allocation.paidBy_ge (a : Allocation) (times : List Nat) :
    a.amountWithdrawn ≤ a.paidBy times := by
  induction times with
  | nil => exact Nat.le_refl _
  | cons time rest ih => exact Nat.le_trans ih (Nat.le_max_right _ _)

theorem getUnlockedAmount_early {time unlocked : Nat} {after : Allocation} (some : a.amount ≠ 0)
    (fits : a.amount < Uint128.limit) (fits' : a.amountWithdrawn < Uint128.limit)
    (early : ¬ a.Vested time) :
    getUnlockedAmount a time = .ok (unlocked, after) ↔
      (a.Timed time ∧ (a.rate time ≠ 0 → a.amountWithdrawn ≤ a.unlockedBy time)) ∧
      unlocked = max (a.unlockedBy time) a.amountWithdrawn - a.amountWithdrawn ∧
      after = { a with amountWithdrawn := max (a.unlockedBy time) a.amountWithdrawn } := by
  rw [getUnlockedAmount_iff some fits fits']
  constructor
  · rintro ⟨timed, pays⟩
    cases pays with
    | idle nothing =>
      rw [Allocation.unlockedBy_zero nothing, Nat.zero_max, Nat.sub_self]
      exact ⟨⟨timed, fun something => absurd nothing something⟩, rfl, rfl⟩
    | part something before covers =>
      rw [Nat.max_eq_left covers]
      exact ⟨⟨timed, fun _ => covers⟩, rfl, rfl⟩
    | whole vested => exact absurd vested early
  · rintro ⟨⟨timed, covered⟩, rfl, rfl⟩
    refine ⟨timed, ?_⟩
    by_cases hrate : a.rate time = 0
    · rw [Allocation.unlockedBy_zero hrate, Nat.zero_max, Nat.sub_self]
      exact .idle hrate
    · have hcovers := covered hrate
      rw [Nat.max_eq_left hcovers]
      exact .part hrate early hcovers

theorem unlockAll_early (some : a.amount ≠ 0) (fits : a.amount < Uint128.limit)
    (fits' : a.amountWithdrawn < Uint128.limit) (sorted : times.Pairwise (· ≤ ·))
    (early : ∀ time ∈ times, ¬ a.Vested time) {total : Nat} {after : Allocation} :
    unlockAll a times = .ok (total, after) ↔
      (∀ time ∈ times, a.Timed time ∧
        (a.rate time ≠ 0 → a.amountWithdrawn ≤ a.unlockedBy time)) ∧
      total = a.paidBy times - a.amountWithdrawn ∧
      after = { a with amountWithdrawn := a.paidBy times } := by
  induction times generalizing a total after with
  | nil =>
    simp only [unlockAll, pure_eq_ok, Prod.mk.injEq, Allocation.paidBy, List.foldr_nil,
      Nat.sub_self, List.not_mem_nil, false_implies, implies_true, true_and]
    exact and_congr eq_comm eq_comm
  | cons time rest ih =>
    rw [List.pairwise_cons] at sorted
    let paid : Allocation :=
      { a with amountWithdrawn := max (a.unlockedBy time) a.amountWithdrawn }
    have hle := a.unlockedBy_le time
    have hrest : ∀ {total after}, unlockAll paid rest = .ok (total, after) ↔
        (∀ later ∈ rest, paid.Timed later ∧
          (a.rate later ≠ 0 → paid.amountWithdrawn ≤ a.unlockedBy later)) ∧
        total = paid.paidBy rest - paid.amountWithdrawn ∧
        after = { a with amountWithdrawn := paid.paidBy rest } :=
      ih (a := paid) some fits (by show max _ _ < _; omega) sorted.2
        fun later hmem => early later (List.mem_cons_of_mem _ hmem)
    have hpaid : paid.paidBy rest = a.paidBy (time :: rest) := by
      have hmax := @foldr_max a.unlockedBy rest a.amountWithdrawn _
        (Nat.le_max_right (a.unlockedBy time) a.amountWithdrawn)
      have hge := a.paidBy_ge rest
      change paid.paidBy rest = max _ (a.paidBy rest) at hmax
      change _ = max (a.unlockedBy time) (a.paidBy rest)
      rw [hmax]
      omega
    have hge := paid.paidBy_ge rest
    rw [hpaid] at hrest hge
    simp only [unlockAll, bind_eq_ok, pure_eq_ok, List.forall_mem_cons]
    constructor
    · rintro ⟨⟨unlocked, first⟩, hfirst, ⟨others, last⟩, hlast, heq⟩
      obtain ⟨hhead, rfl, rfl⟩ :=
        (getUnlockedAmount_early some fits fits' (early time List.mem_cons_self)).mp hfirst
      obtain ⟨hothers, rfl, rfl⟩ := hrest.mp hlast
      obtain ⟨rfl, rfl⟩ := Prod.mk.inj heq
      refine ⟨⟨hhead, fun later hmem => ⟨Allocation.timed_withdrawn.mp (hothers later hmem).1,
        fun something => ?_⟩⟩, ?_, rfl⟩
      · exact Nat.le_trans (Nat.le_max_right _ _) ((hothers later hmem).2 something)
      · change max _ _ ≤ _ at hge
        change _ + (_ - max _ _) = _
        omega
    · rintro ⟨⟨hhead, hothers⟩, rfl, rfl⟩
      refine ⟨_, (getUnlockedAmount_early some fits fits' (early time List.mem_cons_self)).mpr
        ⟨hhead, rfl, rfl⟩, _, hrest.mpr ⟨fun later hmem =>
          ⟨Allocation.timed_withdrawn.mpr (hothers later hmem).1, fun something => ?_⟩, rfl, rfl⟩,
            Prod.ext ?_ rfl⟩
      · exact Nat.max_le.mpr
          ⟨a.unlockedBy_mono (sorted.1 later hmem), (hothers later hmem).2 something⟩
      · change max _ _ ≤ _ at hge
        change _ + (_ - max _ _) = _
        omega

theorem getUnlockedAmount_late {time unlocked : Nat} {after : Allocation} (some : a.amount ≠ 0)
    (fits : a.amount < Uint128.limit) (fits' : a.amountWithdrawn < Uint128.limit)
    (late : a.Vested time) :
    getUnlockedAmount a time = .ok (unlocked, after) ↔
      a.Timed time ∧ a.amountWithdrawn ≤ a.amount ∧
      a.amountWithdrawn + a.amount < Uint128.limit ∧
      unlocked = a.amount - a.amountWithdrawn ∧
      after = { a with amountWithdrawn := a.amountWithdrawn + a.amount } := by
  rw [getUnlockedAmount_iff some fits fits']
  refine and_congr_right fun _ => ⟨fun pays => ?_, ?_⟩
  · cases pays with
    | idle nothing =>
      rw [Allocation.rate_vested late] at nothing
      exact absurd nothing (by decide)
    | part something before => exact absurd late before
    | whole vested covers fits => exact ⟨covers, fits, rfl, rfl⟩
  · rintro ⟨covers, fits, rfl, rfl⟩
    exact .whole late covers fits

theorem unlockAll_late (some : a.amount ≠ 0) (fits : a.amount < Uint128.limit)
    (fits' : a.amountWithdrawn < Uint128.limit) (late : ∀ time ∈ times, a.Vested time)
    {total : Nat} : (∃ after, unlockAll a times = .ok (total, after)) ↔
      (∀ time ∈ times, a.Timed time) ∧
      ((times.length = 0 ∧ total = 0) ∨
        (times.length = 1 ∧ a.amountWithdrawn ≤ a.amount ∧
          a.amountWithdrawn + a.amount < Uint128.limit ∧ total = a.amount - a.amountWithdrawn) ∨
        (times.length = 2 ∧ a.amountWithdrawn = 0 ∧ a.amount + a.amount < Uint128.limit ∧
          total = a.amount)) := by
  have hstep : ∀ {withdrawn time : Nat} {result : Nat × Allocation}, time ∈ times →
      withdrawn < Uint128.limit →
      (getUnlockedAmount { a with amountWithdrawn := withdrawn } time = .ok result ↔
        a.Timed time ∧ withdrawn ≤ a.amount ∧ withdrawn + a.amount < Uint128.limit ∧
        result = (a.amount - withdrawn, { a with amountWithdrawn := withdrawn + a.amount })) := by
    intro withdrawn time result hmem hfits
    rw [show result = (result.1, result.2) from rfl,
      getUnlockedAmount_late (a := { a with amountWithdrawn := withdrawn }) some fits hfits
        (late time hmem), Allocation.timed_withdrawn, Prod.mk.injEq]
  match times with
  | [] =>
    simp only [unlockAll, pure_eq_ok, Prod.mk.injEq]
    constructor
    · rintro ⟨_, rfl, -⟩
      exact ⟨fun _ hmem => absurd hmem List.not_mem_nil, .inl ⟨rfl, rfl⟩⟩
    · rintro ⟨-, ⟨-, rfl⟩ | ⟨hlength, -⟩ | ⟨hlength, -⟩⟩
      · exact ⟨a, rfl, rfl⟩
      · cases hlength
      · cases hlength
  | [time] =>
    have hfirst := fun result => @hstep _ _ result List.mem_cons_self fits'
    simp only [unlockAll, bind_eq_ok, pure_eq_ok, List.forall_mem_singleton]
    constructor
    · rintro ⟨after, first, hdone, _, rfl, heq⟩
      obtain ⟨timed, covers, hsum, rfl⟩ := (hfirst first).mp hdone
      exact ⟨timed, .inr (.inl ⟨rfl, covers, hsum, (congrArg Prod.fst heq).symm⟩)⟩
    · rintro ⟨timed, ⟨hlength, -⟩ | ⟨-, covers, hsum, rfl⟩ | ⟨hlength, -⟩⟩
      · cases hlength
      · exact ⟨_, _, (hfirst _).mpr ⟨timed, covers, hsum, rfl⟩, _, rfl, rfl⟩
      · cases hlength
  | [time, time'] =>
    have hfirst := fun result => @hstep _ _ result List.mem_cons_self fits'
    simp only [unlockAll, bind_eq_ok, pure_eq_ok, List.forall_mem_cons]
    constructor
    · rintro ⟨after, first, hdone, _, ⟨second, hdone', _, rfl, rfl⟩, heq⟩
      obtain ⟨timed, covers, hsum, rfl⟩ := (hfirst first).mp hdone
      obtain ⟨timed', covers', hsum', rfl⟩ := (hstep (by simp) hsum).mp hdone'
      have hnothing : a.amountWithdrawn = 0 := by omega
      have htotal := congrArg Prod.fst heq
      simp only at htotal
      refine ⟨⟨timed, timed', fun _ hmem => absurd hmem List.not_mem_nil⟩,
        .inr (.inr ⟨rfl, hnothing, by omega, by omega⟩)⟩
    · rintro ⟨⟨timed, timed', -⟩, ⟨hlength, -⟩ | ⟨hlength, -⟩ | ⟨-, hnothing, hsum, rfl⟩⟩
      · cases hlength
      · cases hlength
      · refine ⟨_, _, (hfirst _).mpr ⟨timed, by omega, by omega, rfl⟩, _,
          ⟨_, (hstep (by simp) (by omega)).mpr ⟨timed', by omega, by omega, rfl⟩, _, rfl, rfl⟩,
          Prod.ext ?_ rfl⟩
        simp only
        omega
  | time :: time' :: time'' :: rest =>
    have hfirst := fun result => @hstep _ _ result List.mem_cons_self fits'
    simp only [unlockAll, bind_eq_ok, pure_eq_ok]
    constructor
    · rintro ⟨after, first, hdone, _, ⟨second, hdone', _, ⟨third, hdone'', -⟩, -⟩, -⟩
      obtain ⟨-, covers, hsum, rfl⟩ := (hfirst first).mp hdone
      obtain ⟨-, covers', hsum', rfl⟩ := (hstep (by simp) hsum).mp hdone'
      obtain ⟨-, covers'', -, -⟩ := (hstep (by simp) hsum').mp hdone''
      omega
    · rintro ⟨-, ⟨hlength, -⟩ | ⟨hlength, -⟩ | ⟨hlength, -⟩⟩
      · cases hlength
      · cases hlength
      · cases hlength

theorem early_append_late (a : Allocation) (sorted : times.Pairwise (· ≤ ·)) :
    a.early times ++ times.filter (fun time => a.Vested time) = times := by
  induction times with
  | nil => rfl
  | cons time rest ih =>
    rw [List.pairwise_cons] at sorted
    by_cases hvested : a.Vested time
    · have hall : ∀ later ∈ time :: rest, a.Vested later := by
        intro later hmem
        rcases List.mem_cons.mp hmem with rfl | hmem
        · exact hvested
        · exact Nat.le_trans hvested (sorted.1 later hmem)
      have hnone : a.early (time :: rest) = [] :=
        List.filter_eq_nil_iff.mpr fun later hmem => by simpa using hall later hmem
      rw [hnone, List.nil_append]
      exact List.filter_eq_self.mpr fun later hmem => by simpa using hall later hmem
    · have hrest := ih sorted.2
      simp only [Allocation.early] at hrest ⊢
      rw [List.filter_cons_of_pos (by simpa using hvested),
        List.filter_cons_of_neg (by simpa using hvested), List.cons_append, hrest]

theorem paidBy_last (a : Allocation) (sorted : times.Pairwise (· ≤ ·)) {last : Nat}
    (mem : times.getLast? = some last) :
    a.paidBy times = max (a.unlockedBy last) a.amountWithdrawn := by
  induction times with
  | nil => cases mem
  | cons time rest ih =>
    rw [List.pairwise_cons] at sorted
    cases rest with
    | nil =>
      obtain rfl : time = last := by simpa using mem
      rfl
    | cons next rest =>
      have hlast : (next :: rest).getLast? = some last := by
        rwa [List.getLast?_cons_cons] at mem
      have hle := a.unlockedBy_mono (sorted.1 last (List.mem_of_getLast? hlast))
      change max _ (a.paidBy (next :: rest)) = _
      rw [ih sorted.2 hlast]
      omega

theorem paidBy_le (a : Allocation) (times : List Nat) (covers : a.amountWithdrawn ≤ a.amount) :
    a.paidBy times ≤ a.amount := by
  induction times with
  | nil => exact covers
  | cons time rest ih => exact Nat.max_le.mpr ⟨a.unlockedBy_le time, ih⟩

theorem getUnlockedAmount_returns {time unlocked : Nat} {after : Allocation}
    (some : a.amount ≠ 0) (fits : a.amount < Uint128.limit)
    (fits' : a.amountWithdrawn < Uint128.limit)
    (done : getUnlockedAmount a time = .ok (unlocked, after)) :
    unlocked = max (a.unlockedBy time) a.amountWithdrawn - a.amountWithdrawn := by
  by_cases hvested : a.Vested time
  · obtain ⟨-, hcovers, -, rfl, -⟩ := (getUnlockedAmount_late some fits fits' hvested).mp done
    rw [Allocation.unlockedBy_vested hvested, Nat.max_eq_left hcovers]
  · exact ((getUnlockedAmount_early some fits fits' hvested).mp done).2.1

theorem paidBy_fits (a : Allocation) (times : List Nat) (fits : a.amount < Uint128.limit)
    (fits' : a.amountWithdrawn < Uint128.limit) : a.paidBy times < Uint128.limit := by
  induction times with
  | nil => exact fits'
  | cons time rest ih => exact Nat.max_lt.mpr ⟨Nat.lt_of_le_of_lt (a.unlockedBy_le time) fits, ih⟩

theorem unlockAll_spec (some : a.amount ≠ 0) (fits : a.amount < Uint128.limit)
    (fits' : a.amountWithdrawn < Uint128.limit) (sorted : times.Pairwise (· ≤ ·)) {total : Nat}
    {after : Allocation} (done : unlockAll a times = .ok (total, after)) :
    Unlockable a times ∧ ∀ last, times.getLast? = Option.some last →
      total = max (a.unlockedBy last) a.amountWithdrawn - a.amountWithdrawn := by
  have hsplit := early_append_late a sorted
  have hpaid := paidBy_fits a (a.early times) fits fits'
  have hge := a.paidBy_ge (a.early times)
  have hcount : times.countP (fun time => a.Vested time) =
      (times.filter fun time => a.Vested time).length := List.countP_eq_length_filter
  have hvested : ∀ time ∈ times.filter (fun time => a.Vested time), a.Vested time :=
    fun time hmem => by simpa using (List.mem_filter.mp hmem).2
  rw [← hsplit] at done
  obtain ⟨first, mid, rest, _, hearly, hlate, heq⟩ := unlockAll_append.mp done
  obtain ⟨rfl, -⟩ := Prod.mk.inj heq
  obtain ⟨hcovered, rfl, rfl⟩ := (unlockAll_early some fits fits'
    (show (a.early times).Pairwise (· ≤ ·) from sorted.filter _)
      fun time hmem => by simpa using (List.mem_filter.mp hmem).2).mp hearly
  obtain ⟨htimed, hends⟩ := (unlockAll_late
    (a := { a with amountWithdrawn := a.paidBy (a.early times) }) some fits hpaid hvested).mp
      ⟨_, hlate⟩
  simp only [Allocation.timed_withdrawn] at htimed
  simp only at hends
  have hmem : ∀ time ∈ times, ¬ a.Vested time → time ∈ a.early times :=
    fun time hmem hnot => List.mem_filter.mpr ⟨hmem, by simpa using hnot⟩
  have hmem' : ∀ time ∈ times, a.Vested time →
      time ∈ times.filter (fun time => a.Vested time) :=
    fun time hmem hend => List.mem_filter.mpr ⟨hmem, by simpa using hend⟩
  -- where a call is made from the end on, what was withdrawn is within the amount
  have hcovers : 0 < (times.filter fun time => a.Vested time).length →
      a.amountWithdrawn ≤ a.amount ∧
        a.paidBy (a.early times) - a.amountWithdrawn + rest = a.amount - a.amountWithdrawn := by
    rintro hsome
    rcases hends with ⟨hlength, -⟩ | ⟨-, hcovers, -, rfl⟩ | ⟨-, hnothing, -, rfl⟩
    · omega
    · omega
    · omega
  refine ⟨⟨fun time htime => ?_, fun time htime something => ?_, ?_⟩, fun last hlast => ?_⟩
  · by_cases hend : a.Vested time
    · exact htimed time (hmem' time htime hend)
    · exact (hcovered time (hmem time htime hend)).1
  · by_cases hend : a.Vested time
    · rw [Allocation.unlockedBy_vested hend]
      exact (hcovers (List.length_pos_of_mem (hmem' time htime hend))).1
    · exact (hcovered time (hmem time htime hend)).2 something
  · rw [hcount]
    rcases hends with ⟨hlength, -⟩ | ⟨hlength, -, hsum, -⟩ | ⟨hlength, hnothing, hsum, -⟩
    · exact .inl hlength
    · exact .inr (.inl ⟨hlength, hsum⟩)
    · exact .inr (.inr ⟨hlength, hnothing, hsum⟩)
  · by_cases hend : a.Vested last
    · obtain ⟨hle, htotal⟩ :=
        hcovers (List.length_pos_of_mem (hmem' last (List.mem_of_getLast? hlast) hend))
      rw [Allocation.unlockedBy_vested hend, Nat.max_eq_left hle]
      exact htotal
    · -- the last call is before the end, and so are all
      have hnone : (times.filter fun time => a.Vested time) = [] := by
        refine List.eq_nil_iff_forall_not_mem.mpr fun time htime => hend ?_
        obtain ⟨front, rfl⟩ := List.getLast?_eq_some_iff.mp hlast
        have hle := (List.pairwise_append.mp sorted).2.2 time
        rcases List.mem_append.mp (List.mem_filter.mp htime).1 with hfront | hfront
        · exact Nat.le_trans (hvested time htime) (hle hfront last (by simp))
        · obtain rfl : time = last := by simpa using hfront
          exact hvested time htime
      rw [hnone, List.append_nil] at hsplit
      have hzero : rest = 0 := by
        rcases hends with ⟨-, hzero⟩ | ⟨hlength, -⟩ | ⟨hlength, -⟩
        · exact hzero
        · rw [hnone] at hlength
          cases hlength
        · rw [hnone] at hlength
          cases hlength
      rw [hsplit, paidBy_last a sorted hlast, hzero, Nat.add_zero]

theorem unlockAll_runs (some : a.amount ≠ 0) (fits : a.amount < Uint128.limit)
    (fits' : a.amountWithdrawn < Uint128.limit) (sorted : times.Pairwise (· ≤ ·))
    (unlockable : Unlockable a times) :
    ∃ total after, unlockAll a times = .ok (total, after) := by
  have hpaid := paidBy_fits a (a.early times) fits fits'
  have hcount : times.countP (fun time => a.Vested time) =
      (times.filter fun time => a.Vested time).length := List.countP_eq_length_filter
  have hends := unlockable.ends
  rw [hcount] at hends
  have hearly := (unlockAll_early some fits fits'
    (show (a.early times).Pairwise (· ≤ ·) from sorted.filter _)
    fun time hmem => by simpa using (List.mem_filter.mp hmem).2).mpr
    ⟨fun time hmem => ⟨unlockable.timed time (List.mem_filter.mp hmem).1,
      unlockable.covered time (List.mem_filter.mp hmem).1⟩, rfl, rfl⟩
  obtain ⟨rest, after, hlate⟩ : ∃ rest after,
      unlockAll { a with amountWithdrawn := a.paidBy (a.early times) }
        (times.filter fun time => a.Vested time) = .ok (rest, after) := by
    have hvested : ∀ time ∈ times.filter (fun time => a.Vested time), a.Vested time :=
      fun time hmem => by simpa using (List.mem_filter.mp hmem).2
    have hiff := fun rest => @unlockAll_late
      { a with amountWithdrawn := a.paidBy (a.early times) } _ some fits hpaid hvested rest
    simp only [Allocation.timed_withdrawn] at hiff
    have htimed : ∀ time ∈ times.filter (fun time => a.Vested time), a.Timed time :=
      fun time hmem => unlockable.timed time (List.mem_filter.mp hmem).1
    rcases hends with hlength | ⟨hlength, hsum⟩ | ⟨hlength, hnothing, hsum⟩
    · exact ⟨_, (hiff 0).mpr ⟨htimed, .inl ⟨hlength, rfl⟩⟩⟩
    · obtain ⟨time, hmem⟩ :=
        List.exists_mem_of_length_pos (Nat.lt_of_lt_of_eq Nat.one_pos hlength.symm)
      have hvested : a.Vested time := by simpa using (List.mem_filter.mp hmem).2
      have hcovers := unlockable.covered time (List.mem_filter.mp hmem).1
        (by rw [Allocation.rate_vested hvested]; decide)
      rw [Allocation.unlockedBy_vested hvested] at hcovers
      exact ⟨_, (hiff _).mpr
        ⟨htimed, .inr (.inl ⟨hlength, paidBy_le a _ hcovers, hsum, rfl⟩)⟩⟩
    · exact ⟨_, (hiff _).mpr ⟨htimed, .inr (.inr ⟨hlength, hnothing, hsum, rfl⟩)⟩⟩
  rw [← early_append_late a sorted]
  exact ⟨_, _, unlockAll_append.mpr ⟨_, _, _, _, hearly, hlate, rfl⟩⟩

end Runs

theorem unlockAll_empty {a : Allocation} (empty : a.amount = 0) (times : List Nat) :
    unlockAll a times = .ok (0, a) := by
  induction times with
  | nil => rfl
  | cons time rest ih =>
    have hfirst : getUnlockedAmount a time = .ok (0, a) := if_pos empty
    simp only [unlockAll, bind_eq_ok]
    exact ⟨_, hfirst, _, ih, rfl⟩

/-- Sorted calls return what one call at the last time does exactly under the condition. -/
theorem pathIndependent_iff {a : Allocation} {times : List Nat} (fits : a.amount < Uint128.limit)
    (fits' : a.amountWithdrawn < Uint128.limit) (sorted : times.Pairwise (· ≤ ·)) :
    PathIndependent a times ↔ a.amount = 0 ∨ Unlockable a times := by
  by_cases hzero : a.amount = 0
  · exact ⟨fun _ => .inl hzero, fun _ => ⟨0, a, unlockAll_empty hzero times, fun last _ =>
      ⟨⟨a, if_pos hzero⟩, fun _ => rfl, Nat.zero_le _, fun _ _ _ _ _ => Nat.zero_le _⟩⟩⟩
  · rw [or_iff_right hzero]
    constructor
    · rintro ⟨total, after, done, -⟩
      exact (unlockAll_spec hzero fits fits' sorted done).1
    · intro unlockable
      obtain ⟨total, after, done⟩ := unlockAll_runs hzero fits fits' sorted unlockable
      refine ⟨total, after, done, fun last hlast => ?_⟩
      have hmem := List.mem_of_getLast? hlast
      obtain rfl := (unlockAll_spec hzero fits fits' sorted done).2 last hlast
      have hle := a.unlockedBy_le last
      refine ⟨?_, fun hcliff => ?_, by omega, fun later more single hlater hmore => ?_⟩
      · -- one call at the last time, instead of all of them, meets the condition as well
        have hone : Unlockable a [last] := by
          refine ⟨fun time htime => ?_, fun time htime => ?_, ?_⟩
          · exact unlockable.timed time (List.mem_singleton.mp htime ▸ hmem)
          · exact unlockable.covered time (List.mem_singleton.mp htime ▸ hmem)
          · by_cases hend : a.Vested last
            · refine .inr (.inl ⟨by simp [hend], ?_⟩)
              have hpaid : a.paidBy (a.early [last]) = a.amountWithdrawn := by
                simp [Allocation.early, hend, Allocation.paidBy]
              have hge := a.paidBy_ge (a.early times)
              rw [hpaid]
              rcases unlockable.ends with hnone | ⟨-, hsum⟩ | ⟨-, hnothing, -⟩
              · exact absurd hend (by simpa using List.countP_eq_zero.mp hnone last hmem)
              · omega
              · omega
            · exact .inl (by simp [hend])
        obtain ⟨single, after', hsingle⟩ :=
          unlockAll_runs hzero fits fits' (List.pairwise_singleton _ _) hone
        obtain rfl := (unlockAll_spec hzero fits fits' (List.pairwise_singleton _ _) hsingle).2
          last rfl
        simp only [unlockAll, bind_eq_ok, pure_eq_ok] at hsingle
        obtain ⟨⟨unlocked, left⟩, hdone, _, rfl, heq⟩ := hsingle
        obtain ⟨rfl, rfl⟩ := Prod.mk.inj heq
        exact ⟨_, hdone⟩
      · have hrate : a.rate last = 0 := by
          rw [Allocation.rate, if_pos]
          have hstarted := (unlockable.timed last hmem).started
          omega
        rw [Allocation.unlockedBy_zero hrate, Nat.zero_max, Nat.sub_self]
      · rw [getUnlockedAmount_returns hzero fits fits' hmore]
        have hmono := a.unlockedBy_mono hlater
        omega

/-! ## Calls on a sample allocation -/

/-- An allocation that unlocks over four days, after a day. -/
def fourDays : Allocation := ⟨1000, 0, 0, ⟨1, 4⟩⟩

theorem pathIndependent_fourDays :
    PathIndependent fourDays
      [secondsInADay / 2, 2 * secondsInADay, 3 * secondsInADay, 5 * secondsInADay] := by
  refine (pathIndependent_iff (by decide) (by decide) (by decide)).mpr (.inr ?_)
  refine ⟨?_, by decide +kernel, by decide +kernel⟩
  simp only [List.forall_mem_cons]
  refine ⟨?_, ?_, ?_, ?_, fun _ hmem => absurd hmem List.not_mem_nil⟩
  all_goals exact ⟨by decide +kernel, by decide +kernel, fun _ => by decide +kernel⟩

/-- A call in the middle, one at the end and another one later: the last one finds more
    withdrawn than there is. -/
theorem not_pathIndependent :
    ¬ ∀ a times, a.amount < Uint128.limit → a.amountWithdrawn < Uint128.limit →
      times.Pairwise (· ≤ ·) → PathIndependent a times := by
  intro claim
  have hfails : unlockAll fourDays [3 * secondsInADay, 5 * secondsInADay, 6 * secondsInADay] =
      .error (.err (.genericErr "Nothing left to unlock")) := by decide +kernel
  obtain ⟨total, after, done, -⟩ := claim fourDays
    [3 * secondsInADay, 5 * secondsInADay, 6 * secondsInADay] (by decide) (by decide) (by decide)
  rw [hfails] at done
  cases done

end Membrane.Vesting
