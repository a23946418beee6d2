import Mathlib.Tactic.Ring
import Membrane.StableEarn.Contract

/-!
# The buffer

How the vault tokens in the contract are split into a buffer and a deposit for the
position. Where there is more than the buffer asks for, the rest is sent on. Where there is
less, a part is sent on as well, unless there is less than half.
-/

namespace Membrane.StableEarn

open Outcome

def Config.desiredBuffer (config : Config) : Nat :=
  config.totalNonleveragedVaultTokens * config.withdrawalBuffer.atomics / Decimal.fractional

/-- The split of a balance succeeds, keeps the desired buffer as far as there is that much,
    and sends on what exceeds it. -/
def SplitsBuffer (deps : Deps) (config : Config) (contractAddress : Addr) (balance : Nat) : Prop :=
  ∃ amounts, getBufferAmounts deps config contractAddress = .ok amounts ∧
    amounts.vtKept + amounts.vtSentToCdp = balance ∧
    amounts.vtKept = min balance config.desiredBuffer ∧
    amounts.vtSentToCdp = balance - config.desiredBuffer

/-- The condition on a balance: the decimals of it and of the total fit, and it is at least
    the desired ratio of the total, or at most half of the desired buffer. -/
structure Splittable (config : Config) (balance : Nat) : Prop where
  balance_fits : balance * Decimal.fractional < Uint128.limit
  total_fits : max config.totalNonleveragedVaultTokens 1 * Decimal.fractional < Uint128.limit
  ample : config.withdrawalBuffer.atomics * max config.totalNonleveragedVaultTokens 1 ≤
      balance * Decimal.fractional ∨
    balance + balance ≤ config.desiredBuffer

section Split

variable {deps : Deps} {config : Config} {contractAddress : Addr} {balance : Nat}

theorem fromRatio_whole {n : Nat} {a : Decimal} :
    (Decimal.fromRatio n 1 : Outcome StdError Decimal) = .ok a ↔
      n * Decimal.fractional < Uint128.limit ∧ a = ⟨n * Decimal.fractional⟩ := by
  rw [Decimal.fromRatio_eq_ok, Nat.div_one]
  exact and_iff_right Nat.one_ne_zero

theorem split_below {ratio : Decimal} {desired : Nat} {amounts : BufferAmounts} :
    (do
      let tokensToFillRatio ← subUint desired balance
      if balance ≤ tokensToFillRatio then pure ⟨ratio, balance, balance, 0⟩
      else do
        let vtSentToCdp ← subUint balance tokensToFillRatio
        pure ⟨ratio, balance, tokensToFillRatio, vtSentToCdp⟩ : Outcome StdError BufferAmounts) =
      .ok amounts ↔
    balance ≤ desired ∧ amounts =
      ⟨ratio, balance, min balance (desired - balance), balance - (desired - balance)⟩ := by
  simp only [bind_eq_ok, subUint_eq_ok]
  by_cases hhalf : balance ≤ desired - balance
  · rw [Nat.min_eq_left hhalf, Nat.sub_eq_zero_of_le hhalf]
    constructor
    · rintro ⟨_, ⟨hle, rfl⟩, done⟩
      rw [if_pos hhalf, pure_eq_ok] at done
      exact ⟨hle, done.symm⟩
    · rintro ⟨hle, rfl⟩
      exact ⟨_, ⟨hle, rfl⟩, if_pos hhalf⟩
  · rw [Nat.min_eq_right (by omega)]
    constructor
    · rintro ⟨_, ⟨hle, rfl⟩, done⟩
      rw [if_neg hhalf] at done
      simp only [bind_eq_ok, subUint_eq_ok, pure_eq_ok] at done
      obtain ⟨_, ⟨-, rfl⟩, rfl⟩ := done
      exact ⟨hle, rfl⟩
    · rintro ⟨hle, rfl⟩
      refine ⟨_, ⟨hle, rfl⟩, ?_⟩
      rw [if_neg hhalf, bind_eq_ok]
      exact ⟨_, subUint_eq_ok.mpr ⟨by omega, rfl⟩, rfl⟩

theorem split_above {ratio : Decimal} {desired : Nat} {amounts : BufferAmounts} :
    (do
      let tokensToLowerRatio ← subUint balance desired
      if balance ≤ tokensToLowerRatio then pure ⟨ratio, balance, 0, balance⟩
      else do
        let vtKept ← subUint balance tokensToLowerRatio
        pure ⟨ratio, balance, vtKept, tokensToLowerRatio⟩ : Outcome StdError BufferAmounts) =
      .ok amounts ↔
    desired ≤ balance ∧ amounts = ⟨ratio, balance, desired, balance - desired⟩ := by
  simp only [bind_eq_ok, subUint_eq_ok]
  by_cases hall : balance ≤ balance - desired
  · constructor
    · rintro ⟨_, ⟨hle, rfl⟩, done⟩
      obtain rfl : desired = 0 := by omega
      rw [if_pos hall, pure_eq_ok] at done
      exact ⟨hle, done.symm⟩
    · rintro ⟨hle, rfl⟩
      obtain rfl : desired = 0 := by omega
      exact ⟨_, ⟨hle, rfl⟩, if_pos hall⟩
  · constructor
    · rintro ⟨_, ⟨hle, rfl⟩, done⟩
      rw [if_neg hall] at done
      simp only [bind_eq_ok, subUint_eq_ok, pure_eq_ok] at done
      obtain ⟨_, ⟨-, rfl⟩, rfl⟩ := done
      rw [Nat.sub_sub_self hle]
      exact ⟨hle, rfl⟩
    · rintro ⟨hle, rfl⟩
      refine ⟨_, ⟨hle, rfl⟩, ?_⟩
      rw [if_neg hall, bind_eq_ok]
      exact ⟨_, subUint_eq_ok.mpr ⟨Nat.sub_le _ _, Nat.sub_sub_self hle⟩, rfl⟩

theorem getBufferAmounts_eq (answers : deps.balance contractAddress config.depositToken.vaultToken =
      .ok balance) (le_one : config.withdrawalBuffer ≤ Decimal.one) {amounts : BufferAmounts} :
    getBufferAmounts deps config contractAddress = .ok amounts ↔
      balance * Decimal.fractional < Uint128.limit ∧
      max config.totalNonleveragedVaultTokens 1 * Decimal.fractional < Uint128.limit ∧
      if balance * Decimal.fractional / max config.totalNonleveragedVaultTokens 1 <
          config.withdrawalBuffer.atomics then
        balance ≤ config.desiredBuffer ∧ amounts =
          ⟨⟨balance * Decimal.fractional / max config.totalNonleveragedVaultTokens 1⟩, balance,
            min balance (config.desiredBuffer - balance),
            balance - (config.desiredBuffer - balance)⟩
      else
        config.desiredBuffer ≤ balance ∧ amounts =
          ⟨⟨balance * Decimal.fractional / max config.totalNonleveragedVaultTokens 1⟩, balance,
            config.desiredBuffer, balance - config.desiredBuffer⟩ := by
  have htotal : config.totalNonleveragedVaultTokens ≤ max config.totalNonleveragedVaultTokens 1 :=
    Nat.le_max_left _ _
  have hpos : 0 < max config.totalNonleveragedVaultTokens 1 :=
    Nat.lt_of_lt_of_le Nat.one_pos (Nat.le_max_right _ _)
  unfold getBufferAmounts Config.desiredBuffer
  simp only [answers, bind_eq_ok, ofExcept_eq_ok, fromRatio_whole, decimalDivision_eq_ok,
    decimalMultiplication_eq_ok]
  generalize config.totalNonleveragedVaultTokens = total at htotal hpos ⊢
  generalize max total 1 = divisor at htotal hpos ⊢
  have hratio : balance * Decimal.fractional * Decimal.fractional / (divisor * Decimal.fractional) =
      balance * Decimal.fractional / divisor := Nat.mul_div_mul_right _ _ (by decide)
  have hdesired : total * Decimal.fractional * config.withdrawalBuffer.atomics /
      Decimal.fractional = total * config.withdrawalBuffer.atomics := by
    rw [Nat.mul_right_comm]
    exact Nat.mul_div_cancel _ (by decide)
  have hbuffer : total * config.withdrawalBuffer.atomics ≤ divisor * Decimal.fractional :=
    Nat.mul_le_mul htotal le_one
  have hscaled : total * Decimal.fractional ≤ divisor * Decimal.fractional :=
    Nat.mul_le_mul_right _ htotal
  have hle : balance * Decimal.fractional / divisor ≤ balance * Decimal.fractional :=
    Nat.div_le_self _ _
  have hne : divisor * Decimal.fractional ≠ 0 := Nat.mul_ne_zero (by omega) (by decide)
  constructor
  · rintro ⟨_, heq, _, ⟨hbalance, rfl⟩, _, ⟨hdivisor, rfl⟩, _, ⟨-, -, rfl⟩, _, ⟨-, rfl⟩, _,
      ⟨-, rfl⟩, done⟩
    obtain rfl := Except.ok.inj heq
    rw [hratio, hdesired] at done
    refine ⟨hbalance, hdivisor, ?_⟩
    split at done
    case isTrue hbelow =>
      have hlt : balance * Decimal.fractional / divisor < config.withdrawalBuffer.atomics := hbelow
      rw [if_pos hlt]
      exact split_below.mp done
    case isFalse hbelow =>
      have hnot : ¬ balance * Decimal.fractional / divisor < config.withdrawalBuffer.atomics :=
        hbelow
      rw [if_neg hnot]
      exact split_above.mp done
  · rintro ⟨hbalance, hdivisor, hsplit⟩
    refine ⟨_, rfl, _, ⟨hbalance, rfl⟩, _, ⟨hdivisor, rfl⟩, _,
      ⟨hne, by rw [hratio]; omega, rfl⟩, _, ⟨by omega, rfl⟩, _, ⟨by rw [hdesired]; omega, rfl⟩, ?_⟩
    rw [hratio, hdesired]
    split at hsplit
    case isTrue hbelow => exact (if_pos hbelow).trans (split_below.mpr hsplit)
    case isFalse hbelow => exact (if_neg hbelow).trans (split_above.mpr hsplit)

theorem ratio_desiredBuffer :
    (balance * Decimal.fractional / max config.totalNonleveragedVaultTokens 1 <
        config.withdrawalBuffer.atomics → config.withdrawalBuffer ≤ Decimal.one →
      balance ≤ config.desiredBuffer) ∧
    (¬ balance * Decimal.fractional / max config.totalNonleveragedVaultTokens 1 <
        config.withdrawalBuffer.atomics → config.desiredBuffer ≤ balance) := by
  have htotal : config.totalNonleveragedVaultTokens ≤ max config.totalNonleveragedVaultTokens 1 :=
    Nat.le_max_left _ _
  have hpos : 0 < max config.totalNonleveragedVaultTokens 1 :=
    Nat.lt_of_lt_of_le Nat.one_pos (Nat.le_max_right _ _)
  constructor
  · intro hbelow le_one
    rw [Nat.div_lt_iff_lt_mul hpos] at hbelow
    by_cases hnone : config.totalNonleveragedVaultTokens = 0
    · -- below the ratio of one token there is none
      rw [hnone, Nat.zero_max, Nat.mul_one] at hbelow
      have hlt : balance * Decimal.fractional < 1 * Decimal.fractional := by
        rw [Nat.one_mul]
        exact Nat.lt_of_lt_of_le hbelow le_one
      have hzero := Nat.lt_of_mul_lt_mul_right hlt
      omega
    · rw [Nat.max_eq_left (by omega)] at hbelow
      refine (Nat.le_div_iff_mul_le (by decide)).mpr ?_
      rw [Nat.mul_comm config.totalNonleveragedVaultTokens]
      exact Nat.le_of_lt hbelow
  · intro habove
    rw [Nat.not_lt, Nat.le_div_iff_mul_le hpos] at habove
    refine Nat.div_le_of_le_mul ?_
    calc config.totalNonleveragedVaultTokens * config.withdrawalBuffer.atomics
        ≤ max config.totalNonleveragedVaultTokens 1 * config.withdrawalBuffer.atomics :=
          Nat.mul_le_mul_right _ htotal
      _ = config.withdrawalBuffer.atomics * max config.totalNonleveragedVaultTokens 1 :=
          Nat.mul_comm _ _
      _ ≤ balance * Decimal.fractional := habove
      _ = Decimal.fractional * balance := Nat.mul_comm _ _

/-- The buffer is split as asked for exactly where the numbers fit, and the balance is ample
    or at most half of the buffer. -/
theorem splitsBuffer_iff (answers : deps.balance contractAddress config.depositToken.vaultToken =
      .ok balance) (le_one : config.withdrawalBuffer ≤ Decimal.one) :
    SplitsBuffer deps config contractAddress balance ↔ Splittable config balance := by
  have hpos : 0 < max config.totalNonleveragedVaultTokens 1 :=
    Nat.lt_of_lt_of_le Nat.one_pos (Nat.le_max_right _ _)
  have hample : ¬ balance * Decimal.fractional / max config.totalNonleveragedVaultTokens 1 <
      config.withdrawalBuffer.atomics ↔
      config.withdrawalBuffer.atomics * max config.totalNonleveragedVaultTokens 1 ≤
        balance * Decimal.fractional := by
    rw [Nat.not_lt, Nat.le_div_iff_mul_le hpos]
  obtain ⟨hbelow, habove⟩ := @ratio_desiredBuffer config balance
  constructor
  · rintro ⟨amounts, done, -, hkept, -⟩
    obtain ⟨hbalance, hdivisor, hsplit⟩ := (getBufferAmounts_eq answers le_one).mp done
    refine ⟨hbalance, hdivisor, ?_⟩
    split at hsplit
    case isTrue hlt =>
      obtain ⟨hle, rfl⟩ := hsplit
      rw [Nat.min_eq_left hle] at hkept
      simp only at hkept
      exact .inr (by omega)
    case isFalse hnot => exact .inl (hample.mp hnot)
  · intro splittable
    by_cases hlt : balance * Decimal.fractional / max config.totalNonleveragedVaultTokens 1 <
        config.withdrawalBuffer.atomics
    · have hhalf := splittable.ample.resolve_left fun hle => hample.mpr hle hlt
      have hle := hbelow hlt le_one
      have hsplit := (getBufferAmounts_eq answers le_one).mpr
        ⟨splittable.balance_fits, splittable.total_fits, by rw [if_pos hlt]; exact ⟨hle, rfl⟩⟩
      refine ⟨_, hsplit, ?_, ?_, ?_⟩
      · simp only
        omega
      · simp only
        omega
      · simp only
        omega
    · have hle := habove hlt
      have hsplit := (getBufferAmounts_eq answers le_one).mpr
        ⟨splittable.balance_fits, splittable.total_fits, by rw [if_neg hlt]; exact ⟨hle, rfl⟩⟩
      refine ⟨_, hsplit, Nat.add_sub_cancel' hle, ?_, rfl⟩
      exact (Nat.min_eq_right hle).symm

end Split

/-! ## Splits on a sample chain -/

def sampleConfig (total : Nat) : Config where
  owner := "gov"
  cdpContractAddr := "cdp"
  osmosisProxyContractAddr := "proxy"
  oracleContractAddr := "oracle"
  cdtDenom := "ucdt"
  vaultToken := "factory/earn/vt"
  depositToken := ⟨"mars", "uusdc", "factory/mars/vt"⟩
  withdrawalBuffer := Decimal.percent 10
  totalNonleveragedVaultTokens := total
  cdpPositionId := 1
  swapSlippage := ⟨5000000000000000⟩

def sampleDeps (balance : Nat) : Deps where
  balance _ _ := .ok balance
  creditPrice _ := .ok ⟨Decimal.one, 6⟩
  price _ _ _ _ := .ok [⟨Decimal.one, 6⟩]
  basketPositions _ _ _ := .ok [[⟨0, [⟨.nativeToken "factory/mars/vt", 0⟩]⟩]]
  vaultTokenUnderlying _ amount := .ok amount
  depositTokenConversion _ amount := .ok amount

theorem splitsBuffer_ample : SplitsBuffer (sampleDeps 1500) (sampleConfig 10000) "earn" 1500 :=
  (splitsBuffer_iff rfl (by decide)).mpr ⟨by decide, by decide, .inl (by decide)⟩

/-- Of 600 tokens, where a buffer of 1000 is asked for, 200 are sent on. -/
theorem not_splitsBuffer :
    ¬ ∀ deps config contractAddress balance,
      deps.balance contractAddress config.depositToken.vaultToken = .ok balance →
      config.withdrawalBuffer ≤ Decimal.one → SplitsBuffer deps config contractAddress balance := by
  intro claim
  obtain ⟨amounts, done, -, -, hsent⟩ :=
    claim (sampleDeps 600) (sampleConfig 10000) "earn" 600 rfl (by decide)
  have hamounts : getBufferAmounts (sampleDeps 600) (sampleConfig 10000) "earn" =
      .ok ⟨⟨60000000000000000⟩, 600, 400, 200⟩ := by decide +kernel
  obtain rfl := Except.ok.inj (hamounts.symm.trans done)
  exact absurd hsent (by decide)

end Membrane.StableEarn
