import Membrane.MarsVault.Proofs.Dilution

/-!
# When the rate assurance passes

The callback compares the truncated rate after a deposit or a withdrawal with the one
before. The amounts are truncated in the vault's favour, which lifts the exact rate, so
the callback passes exactly when what was cut off does not lift it to the next whole
number.
-/

namespace Membrane.MarsVault

open Outcome PoolShares

/-- What the vault keeps of a deposit because of truncation does not lift the rate to the
    next whole number. -/
def EnterKeepsRate (assets supply deposit : Nat) : Prop :=
  supply * deposit % assets * (assets * rateUnit + gap rateUnit assets supply) <
    gap rateUnit assets supply * ((assets + deposit) * supply)

/-- What the vault keeps of a withdrawal because of truncation does not lift the rate to
    the next whole number. -/
def ExitKeepsRate (assets supply redeem : Nat) : Prop :=
  assets * redeem % supply * rateUnit < gap rateUnit assets supply * (supply - redeem)

section

variable {l : Ledger} {call : Call} {deps : Deps} {s' : State} {msgs : List Msg}

theorem callback_iff {total pre : Nat} (saved : s'.tokenRateAssurance = some pre)
    (answers : getTotalDepositTokens deps (l.env call) s'.config = .ok total) :
    (∃ result, rateAssurance deps (l.env call) (MessageInfo.noFunds l.contract) s' = .ok result) ↔
      calculateBaseTokens rateUnit total s'.vaultToken = .ok pre := by
  constructor
  · rintro ⟨⟨_, _⟩, hdone⟩
    obtain ⟨-, ⟨rate, total', hsaved, htotal, hrate⟩, -, -⟩ := rateAssurance_eq_ok.mp hdone
    obtain rfl := Option.some.inj (saved.symm.trans hsaved)
    obtain rfl := Except.ok.inj (answers.symm.trans htotal)
    exact hrate
  · intro hrate
    exact ⟨(s', []), rateAssurance_eq_ok.mpr ⟨rfl, ⟨pre, total, saved, answers, hrate⟩, rfl, rfl⟩⟩

theorem same_rate_iff {total total' supply supply' pre : Nat} (some : supply ≠ 0)
    (some' : supply' ≠ 0) (rate : calculateBaseTokens rateUnit total supply = .ok pre) :
    calculateBaseTokens rateUnit total' supply' = .ok pre ↔
      redeemed rateUnit total' supply' = redeemed rateUnit total supply := by
  obtain ⟨hfits, rfl⟩ := (calculateBaseTokens_eq_ok some).mp rate
  rw [calculateBaseTokens_eq_ok some']
  constructor
  · rintro ⟨-, hsame⟩
    exact hsame.symm
  · intro hsame
    exact ⟨hfits, hsame.symm⟩

theorem enter_assured_iff {deposit minted pre : Nat} (deposits : 0 < l.deposited)
    (supply : 0 < l.state.vaultToken)
    (entered : Entered (l.env call) call.info l.state l.deposited deposit minted pre s' msgs)
    (answers : getTotalDepositTokens deps (l.env call) s'.config = .ok (l.deposited + deposit)) :
    (∃ result, rateAssurance deps (l.env call) (MessageInfo.noFunds l.contract) s' = .ok result) ↔
      EnterKeepsRate l.deposited l.state.vaultToken deposit := by
  have hminted := (calculateVaultTokens_eq_ok.mp entered.issues).2
  rw [if_neg deposits.ne'] at hminted
  subst hminted
  rw [callback_iff entered.saved answers, entered.supply,
    same_rate_iff supply.ne' (by omega) entered.rate]
  exact price_of_enter_iff deposits supply

theorem exit_assured_iff {redeem paid pre : Nat} (stays : redeem < l.state.vaultToken)
    (exited : Exited (l.env call) call.info l.state l.deposited redeem paid pre s' msgs)
    (answers : getTotalDepositTokens deps (l.env call) s'.config = .ok (l.deposited - paid)) :
    (∃ result, rateAssurance deps (l.env call) (MessageInfo.noFunds l.contract) s' = .ok result) ↔
      ExitKeepsRate l.deposited l.state.vaultToken redeem := by
  have hsupply : l.state.vaultToken ≠ 0 := by omega
  obtain ⟨-, rfl⟩ := (calculateBaseTokens_eq_ok hsupply).mp exited.pays
  rw [callback_iff exited.saved answers, exited.supply,
    same_rate_iff hsupply (by omega) exited.rate]
  exact price_of_exit_iff stays

end

/-- With deposits and vault tokens, the callback that a deposit or a withdrawal sends passes,
    the money market's balance having changed by the amount, exactly when what truncation
    left in the vault does not lift the rate to the next whole number. -/
theorem rate_assured_iff {l : Ledger} {call : Call} {s' : State} {msgs : List Msg} {deps : Deps}
    (deposits : 0 < l.deposited) (supply : 0 < l.state.vaultToken)
    (callback : .rateAssurance l.contract ∈ msgs) :
    (∀ deposit, enterVault (l.deps call) (l.env call) call.info l.state = .ok (s', msgs) →
      .deposit l.state.config.marsRedbankAddr ⟨l.state.config.depositToken, deposit⟩ ∈ msgs →
      getTotalDepositTokens deps (l.env call) s'.config = .ok (l.deposited + deposit) →
      ((∃ result,
          rateAssurance deps (l.env call) (MessageInfo.noFunds l.contract) s' = .ok result) ↔
        EnterKeepsRate l.deposited l.state.vaultToken deposit)) ∧
    ∀ redeem paid, exitVault (l.deps call) (l.env call) call.info l.state = .ok (s', msgs) →
      call.info.funds = [⟨l.state.config.vaultToken, redeem⟩] →
      .withdraw l.state.config.marsRedbankAddr l.state.config.depositToken paid
        call.info.sender ∈ msgs →
      getTotalDepositTokens deps (l.env call) s'.config = .ok (l.deposited - paid) →
      ((∃ result,
          rateAssurance deps (l.env call) (MessageInfo.noFunds l.contract) s' = .ok result) ↔
        ExitKeepsRate l.deposited l.state.vaultToken redeem) := by
  constructor
  · intro deposit hdone hdeposit hanswers
    obtain ⟨deposit', minted, pre, hentered⟩ := enter_spec hdone
    rw [hentered.sends] at hdeposit
    obtain rfl : deposit = deposit' := by
      split at hdeposit <;> simpa using hdeposit
    exact enter_assured_iff deposits supply hentered hanswers
  · intro redeem paid hdone hfunds hwithdraw hanswers
    obtain ⟨-, redeem', paid', pre, hexited⟩ := exit_spec hdone
    have hsame := hfunds.symm.trans hexited.funds
    simp only [List.cons.injEq, Coin.mk.injEq, true_and, and_true] at hsame
    subst hsame
    rw [hexited.sends] at hwithdraw callback
    obtain rfl : paid = paid' := by
      split at hwithdraw <;> simpa using hwithdraw
    -- the callback is only sent when vault tokens stay
    have hleft : l.state.vaultToken - redeem ≠ 0 := by
      intro hnone
      rw [if_neg (by rintro ⟨h, -⟩; exact h hnone)] at callback
      simp at callback
    exact exit_assured_iff (by omega) hexited hanswers

/-- The answers of a money market that holds `total` for the sample vault. -/
def sampleDeps (total : Nat) : Deps :=
  ⟨fun _ => true, fun _ _ _ => .ok total, fun _ _ => .ok (Decimal.percent 5)⟩

/-- What the sample vault lends out and sends when `deposit` enters it. -/
def enterMsgs (deposit minted : Nat) : List Msg :=
  [.mint "vault" "factory/vault/mars" minted "user", .deposit "redbank" ⟨"uusdc", deposit⟩,
    .rateAssurance "vault"]

/-- 90 enter when 100 have earned 50, which leaves no remainder. -/
theorem rate_assured_earned :
    ∃ l, vaultAfter [.call (sampleEnter 100 (by decide)), .earn "redbank" 50] = some l ∧
      (∃ s', enterVault (l.deps (sampleEnter 90 (by decide))) (l.env (sampleEnter 90 (by decide)))
          (sampleEnter 90 (by decide)).info l.state = .ok (s', enterMsgs 90 60000000) ∧
        ∃ result, rateAssurance (sampleDeps 240) (l.env (sampleEnter 90 (by decide)))
          (MessageInfo.noFunds l.contract) s' = .ok result) := by
  have hreading : sampleReading [.call (sampleEnter 100 (by decide)), .earn "redbank" 50]
      (sampleEnter 90 (by decide)) =
        some ⟨"vault", sampleVault.config, 150, 100000000, enterMsgs 90 60000000⟩ := by
    decide +kernel
  obtain ⟨l, -, s', hl, -, hexecute, hcontract, hconfig, hdeposited, hsupply⟩ :=
    sampleReading_spec hreading
  refine ⟨l, hl, s', hexecute, ?_⟩
  have hcallback : Msg.rateAssurance l.contract ∈ enterMsgs 90 60000000 := by
    rw [hcontract]
    decide
  have hdeposit : Msg.deposit l.state.config.marsRedbankAddr
      ⟨l.state.config.depositToken, 90⟩ ∈ enterMsgs 90 60000000 := by
    rw [hconfig]
    decide
  have hanswers : getTotalDepositTokens (sampleDeps 240) (l.env (sampleEnter 90 (by decide)))
      s'.config = .ok (l.deposited + 90) := by
    rw [hdeposited]
    rfl
  refine ((rate_assured_iff (by rw [hdeposited]; decide) (by rw [hsupply]; decide) hcallback).1 90
    hexecute hdeposit hanswers).mpr ?_
  rw [hdeposited, hsupply]
  unfold EnterKeepsRate
  decide

/-- The callback does not always pass: 1 is deposited and earns 2, and the deposit of 2 that
    follows is reverted. -/
theorem not_rate_assured :
    ¬ ∀ (events : List Event) (l : Ledger) (call : Call) s' msgs (deps : Deps),
      vaultAfter events = some l → 0 < l.deposited → 0 < l.state.vaultToken →
      .rateAssurance l.contract ∈ msgs → ∀ deposit,
      enterVault (l.deps call) (l.env call) call.info l.state = .ok (s', msgs) →
      .deposit l.state.config.marsRedbankAddr ⟨l.state.config.depositToken, deposit⟩ ∈ msgs →
      getTotalDepositTokens deps (l.env call) s'.config = .ok (l.deposited + deposit) →
      ∃ result, rateAssurance deps (l.env call) (MessageInfo.noFunds l.contract) s' =
        .ok result := by
  intro claim
  have hreading : sampleReading [.call (sampleEnter 1 (by decide)), .earn "redbank" 2]
      (sampleEnter 2 (by decide)) =
        some ⟨"vault", sampleVault.config, 3, 1000000, enterMsgs 2 666666⟩ := by
    decide +kernel
  obtain ⟨l, -, s', hl, -, hexecute, hcontract, hconfig, hdeposited, hsupply⟩ :=
    sampleReading_spec hreading
  have hcallback : Msg.rateAssurance l.contract ∈ enterMsgs 2 666666 := by
    rw [hcontract]
    decide
  have hdeposit : Msg.deposit l.state.config.marsRedbankAddr
      ⟨l.state.config.depositToken, 2⟩ ∈ enterMsgs 2 666666 := by
    rw [hconfig]
    decide
  have hanswers : getTotalDepositTokens (sampleDeps 5) (l.env (sampleEnter 2 (by decide)))
      s'.config = .ok (l.deposited + 2) := by
    rw [hdeposited]
    rfl
  have hpositive : 0 < l.deposited := by rw [hdeposited]; decide
  have hshares : 0 < l.state.vaultToken := by rw [hsupply]; decide
  have hpasses := claim _ l _ s' _ (sampleDeps 5) hl hpositive hshares hcallback 2 hexecute
    hdeposit hanswers
  obtain ⟨deposit, minted, pre, hentered⟩ := enter_spec hexecute
  have hsends := hentered.sends
  change enterMsgs 2 666666 = _ at hsends
  obtain rfl : (2 : Nat) = deposit := by
    have hmem := hdeposit
    rw [hsends] at hmem
    split at hmem <;> simpa using hmem
  have hkeeps := (enter_assured_iff hpositive hshares hentered hanswers).mp hpasses
  rw [hdeposited, hsupply] at hkeeps
  revert hkeeps
  unfold EnterKeepsRate
  decide

end Membrane.MarsVault
