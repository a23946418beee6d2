import Mathlib.Algebra.Order.Field.Rat
import Mathlib.Tactic.FieldSimp
import Mathlib.Tactic.Linarith
import Mathlib.Tactic.Ring

/-!
# Shares of a pool

A pool of `assets` is owned through `shares`. Who enters is issued the shares that the
pool's price gives for the deposit, who leaves is paid what the price gives for the
shares, both truncated. The lemmas bound a conversion on both sides, say that neither
direction takes anything from the shares that stay, and say exactly when the truncated
price does not move.
-/

namespace Membrane.PoolShares

/-- The shares issued for a deposit. -/
def issued (deposit assets shares : Nat) : Nat := shares * deposit / assets

/-- The assets paid for a number of shares. -/
def redeemed (redeem assets shares : Nat) : Nat := assets * redeem / shares

section

/-! ## One conversion -/

theorem issued_mul_le (deposit assets shares : Nat) :
    issued deposit assets shares * assets ≤ shares * deposit :=
  Nat.div_mul_le_self _ _

theorem redeemed_mul_le (redeem assets shares : Nat) :
    redeemed redeem assets shares * shares ≤ assets * redeem :=
  Nat.div_mul_le_self _ _

theorem lt_redeemed_mul (redeem assets : Nat) {shares : Nat} (some : 0 < shares) :
    assets * redeem < (redeemed redeem assets shares + 1) * shares := by
  rw [Nat.mul_comm (redeemed redeem assets shares + 1)]
  exact Nat.lt_mul_div_succ _ some

variable {deposit redeem assets shares held : Nat}

theorem redeemed_le (part : redeem ≤ shares) : redeemed redeem assets shares ≤ assets := by
  apply Nat.div_le_of_le_mul
  rw [Nat.mul_comm shares]
  exact Nat.mul_le_mul_left _ part

theorem le_redeemed_issued_iff (sharesSome : 0 < shares) :
    deposit ≤ redeemed (issued deposit assets shares) assets shares + 1 ↔
      shares * deposit % assets ≤ shares := by
  have hissued : assets * issued deposit assets shares + shares * deposit % assets =
      shares * deposit := Nat.div_add_mod _ _
  have hexpand : shares * (deposit - 1) = shares * deposit - shares := Nat.mul_sub_one _ _
  rw [← Nat.sub_le_iff_le_add]
  unfold redeemed
  rw [Nat.le_div_iff_mul_le sharesSome, Nat.mul_comm _ shares, hexpand]
  omega

/-! ## Entering -/

theorem redeemed_le_of_enter (sharesSome : 0 < shares) :
    redeemed held assets shares ≤
      redeemed held (assets + deposit) (shares + issued deposit assets shares) := by
  have hissued := issued_mul_le deposit assets shares
  generalize issued deposit assets shares = issued at *
  have hpaid := redeemed_mul_le held assets shares
  generalize redeemed held assets shares = paid at *
  rw [redeemed, Nat.le_div_iff_mul_le (by omega)]
  apply Nat.le_of_mul_le_mul_left _ sharesSome
  calc shares * (paid * (shares + issued))
      = paid * shares * (shares + issued) := by ring
    _ ≤ assets * held * (shares + issued) := Nat.mul_le_mul_right _ hpaid
    _ = shares * (assets * held) + held * (issued * assets) := by ring
    _ ≤ shares * (assets * held) + held * (shares * deposit) :=
        Nat.add_le_add_left (Nat.mul_le_mul_left _ hissued) _
    _ = shares * ((assets + deposit) * held) := by ring

/-! ## Leaving -/

theorem redeemed_le_of_exit (stays : redeem < shares) :
    redeemed held assets shares ≤
      redeemed held (assets - redeemed redeem assets shares) (shares - redeem) := by
  have hpaid := redeemed_mul_le redeem assets shares
  have hwhole : redeemed redeem assets shares ≤ assets := redeemed_le stays.le
  generalize redeemed redeem assets shares = paid at *
  have hworth := redeemed_mul_le held assets shares
  generalize redeemed held assets shares = worth at *
  rw [redeemed, Nat.le_div_iff_mul_le (by omega)]
  obtain ⟨rest, rfl⟩ := Nat.exists_eq_add_of_le hwhole
  obtain ⟨left, rfl⟩ := Nat.exists_eq_add_of_le stays.le
  rw [Nat.add_sub_cancel_left, Nat.add_sub_cancel_left]
  -- what is left of the assets is at least the share that is left
  have hrest : (paid + rest) * left ≤ rest * (redeem + left) := by
    nlinarith [hpaid]
  apply Nat.le_of_mul_le_mul_left _ (show 0 < redeem + left by omega)
  calc (redeem + left) * (worth * left)
      = worth * (redeem + left) * left := by ring
    _ ≤ (paid + rest) * held * left := Nat.mul_le_mul_right _ hworth
    _ = held * ((paid + rest) * left) := by ring
    _ ≤ held * (rest * (redeem + left)) := Nat.mul_le_mul_left _ hrest
    _ = (redeem + left) * (rest * held) := by ring

/-! ## The truncated price -/

theorem redeemed_eq_iff {unit assets' shares' : Nat} (some : 0 < shares')
    (grows : redeemed unit assets shares ≤ redeemed unit assets' shares') :
    redeemed unit assets' shares' = redeemed unit assets shares ↔
      assets' * unit < (redeemed unit assets shares + 1) * shares' := by
  constructor
  · intro hsame
    rw [← hsame]
    exact lt_redeemed_mul _ _ some
  · intro hbelow
    have hlt : redeemed unit assets' shares' < redeemed unit assets shares + 1 :=
      (Nat.div_lt_iff_lt_mul some).mpr hbelow
    omega

/-- How far the price of `unit` shares is from the next whole number. -/
def gap (unit assets shares : Nat) : Nat := shares - assets * unit % shares

theorem gap_spec (unit assets : Nat) {shares : Nat} (some : 0 < shares) :
    0 < gap unit assets shares ∧
    (redeemed unit assets shares + 1) * shares = assets * unit + gap unit assets shares := by
  have hprice : shares * redeemed unit assets shares + assets * unit % shares = assets * unit :=
    Nat.div_add_mod _ _
  have hrest : assets * unit % shares < shares := Nat.mod_lt _ some
  refine ⟨Nat.sub_pos_of_lt hrest, ?_⟩
  have hexpand : (redeemed unit assets shares + 1) * shares =
      shares * redeemed unit assets shares + shares := by ring
  unfold gap
  omega

theorem price_of_enter_iff {unit : Nat} (assetsSome : 0 < assets) (sharesSome : 0 < shares) :
    redeemed unit (assets + deposit) (shares + issued deposit assets shares) =
        redeemed unit assets shares ↔
      shares * deposit % assets * (assets * unit + gap unit assets shares) <
        gap unit assets shares * ((assets + deposit) * shares) := by
  rw [redeemed_eq_iff (by omega) (redeemed_le_of_enter sharesSome)]
  have hissued : assets * issued deposit assets shares + shares * deposit % assets =
      shares * deposit := Nat.div_add_mod _ _
  obtain ⟨-, hgap⟩ := gap_spec unit assets sharesSome
  generalize issued deposit assets shares = issued at *
  generalize redeemed unit assets shares = price at *
  generalize shares * deposit % assets = dust at *
  generalize gap unit assets shares = gap at *
  -- both sides times what the pool had before
  have hscaled :
      assets * shares * ((assets + deposit) * unit) + gap * ((assets + deposit) * shares) =
      assets * shares * ((price + 1) * (shares + issued)) +
        dust * (assets * unit + gap) := by
    have hdust : (assets * issued + dust) * ((price + 1) * shares) =
        shares * deposit * (assets * unit + gap) := by rw [hissued, hgap]
    have hshares : assets * shares * ((price + 1) * shares) =
        assets * shares * (assets * unit + gap) := by rw [hgap]
    have hrest : dust * ((price + 1) * shares) = dust * (assets * unit + gap) := by rw [hgap]
    linarith
  rw [← Nat.mul_lt_mul_left (Nat.mul_pos assetsSome sharesSome)]
  omega

/-- Leaving with less than all shares leaves the truncated price of `unit` shares alone
    exactly when the part of a unit that was not paid does not lift it to the next whole
    number. -/
theorem price_of_exit_iff {unit : Nat} (stays : redeem < shares) :
    redeemed unit (assets - redeemed redeem assets shares) (shares - redeem) =
        redeemed unit assets shares ↔
      assets * redeem % shares * unit < gap unit assets shares * (shares - redeem) := by
  have hpaid : shares * redeemed redeem assets shares + assets * redeem % shares =
      assets * redeem := Nat.div_add_mod _ _
  have hwhole : redeemed redeem assets shares ≤ assets := redeemed_le stays.le
  rw [redeemed_eq_iff (by omega) (redeemed_le_of_exit stays)]
  obtain ⟨-, hgap⟩ := gap_spec unit assets (show 0 < shares by omega)
  generalize redeemed redeem assets shares = paid at *
  generalize redeemed unit assets shares = price at *
  generalize assets * redeem % shares = dust at *
  generalize gap unit assets shares = gap at *
  obtain ⟨kept, rfl⟩ := Nat.exists_eq_add_of_le hwhole
  obtain ⟨left, rfl⟩ := Nat.exists_eq_add_of_le stays.le
  rw [Nat.add_sub_cancel_left, Nat.add_sub_cancel_left]
  -- both sides times the shares before
  have hscaled : (redeem + left) * (kept * unit) + gap * left =
      (redeem + left) * ((price + 1) * left) + dust * unit := by
    have hdust : unit * ((redeem + left) * paid + dust) = unit * ((paid + kept) * redeem) := by
      rw [hpaid]
    have hleft : left * ((price + 1) * (redeem + left)) = left * ((paid + kept) * unit + gap) := by
      rw [hgap]
    linarith
  rw [← Nat.mul_lt_mul_left (show 0 < redeem + left by omega)]
  omega

end

end Membrane.PoolShares
