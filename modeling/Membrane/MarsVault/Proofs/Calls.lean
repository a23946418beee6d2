import Membrane.Lib.PoolShares
import Membrane.MarsVault.Transaction

/-!
# What the vault's calls do

The conversions as those of a pool of shares, and one specification for each handler.
-/

namespace Membrane.MarsVault

open Outcome PoolShares

/-! ## Conversion -/

section

variable {tokens assets supply result : Nat}

theorem calculateVaultTokens_eq_ok :
    calculateVaultTokens tokens assets supply = .ok result ↔ result < Uint128.limit ∧
      result = if assets = 0 then tokens * defaultVaultTokensPerStakedBaseToken
        else issued tokens assets supply := by
  unfold calculateVaultTokens
  by_cases hassets : assets = 0
  · rw [if_pos hassets, if_pos hassets]
    by_cases hfits : tokens * defaultVaultTokensPerStakedBaseToken < Uint128.limit
    · rw [if_pos hfits, pure_eq_ok]
      constructor
      · rintro rfl
        exact ⟨hfits, rfl⟩
      · rintro ⟨-, rfl⟩
        rfl
    · rw [if_neg hfits, fail_eq_ok, false_iff]
      rintro ⟨hresult, rfl⟩
      exact hfits hresult
  · rw [if_neg hassets, if_neg hassets, Uint128.multiplyRatio_eq_ok]
    constructor
    · rintro ⟨-, hfits, rfl⟩
      exact ⟨hfits, rfl⟩
    · rintro ⟨hfits, rfl⟩
      exact ⟨hassets, hfits, rfl⟩

theorem calculateBaseTokens_eq_ok (some : supply ≠ 0) :
    calculateBaseTokens tokens assets supply = .ok result ↔
      result < Uint128.limit ∧ result = redeemed tokens assets supply := by
  unfold calculateBaseTokens
  rw [if_neg some, Uint128.multiplyRatio_eq_ok]
  constructor
  · rintro ⟨-, hfits, rfl⟩
    exact ⟨hfits, rfl⟩
  · rintro ⟨hfits, rfl⟩
    exact ⟨some, hfits, rfl⟩

end

/-! ## Handlers -/

section

variable {deps : Deps} {env : Env} {info : MessageInfo} {s s' : State} {msgs : List Msg}

theorem onlyCoin_eq_ok {name denom : String} {amount : Nat} :
    onlyCoin name denom info = .ok amount ↔ info.funds = [⟨denom, amount⟩] := by
  unfold onlyCoin
  cases hfunds : info.funds with
  | nil => simp
  | cons coin rest =>
    cases rest with
    | cons => simp
    | nil =>
      simp only [bind_eq_ok, guardErr_eq_ok, pure_eq_ok, Decidable.not_not, List.cons.injEq,
        and_true]
      constructor
      · rintro ⟨-, hdenom, rfl⟩
        rw [← hdenom]
      · rintro rfl
        exact ⟨⟨⟩, rfl, rfl⟩

theorem getTotalDepositTokens_eq_ok {config : Config} {total : Nat} :
    getTotalDepositTokens deps env config = .ok total ↔
      deps.userCollateral config.marsRedbankAddr env.contractAddress config.depositToken =
        .ok total := by
  simp only [getTotalDepositTokens, mapErr_eq_ok, ofExcept_eq_ok]

/-- What entering does with `total` deposit tokens lent out: `minted` vault tokens for
    `deposit`, with the rate `pre` saved. -/
structure Entered (env : Env) (info : MessageInfo) (s : State) (total deposit minted pre : Nat)
    (s' : State) (msgs : List Msg) : Prop where
  funds : info.funds = [⟨s.config.depositToken, deposit⟩]
  fits : total + deposit < Uint128.limit
  rate : calculateBaseTokens rateUnit total s.vaultToken = .ok pre
  issues : calculateVaultTokens deposit total s.vaultToken = .ok minted
  config : s'.config = s.config
  supply : s'.vaultToken = s.vaultToken + minted
  saved : s'.tokenRateAssurance = some pre
  sends : msgs = [.mint env.contractAddress s.config.vaultToken minted info.sender,
      .deposit s.config.marsRedbankAddr ⟨s.config.depositToken, deposit⟩] ++
    if total ≠ 0 ∧ s.vaultToken ≠ 0 then [.rateAssurance env.contractAddress] else []

theorem enterVault_spec (done : enterVault deps env info s = .ok (s', msgs)) :
    ∃ total deposit minted pre, getTotalDepositTokens deps env s.config = .ok total ∧
      Entered env info s total deposit minted pre s' msgs := by
  simp only [enterVault, bind_eq_ok, liftStd_eq_ok, pure_eq_ok, Prod.mk.injEq, onlyCoin_eq_ok,
    Uint128.add_eq_ok] at done
  obtain ⟨deposit, hfunds, total, htotal, _, -, _, ⟨hfits, rfl⟩, _, -, pre, hpre, minted, hminted,
    _, ⟨-, rfl⟩, rfl, rfl⟩ := done
  exact ⟨total, deposit, minted, pre, htotal, hfunds, hfits, hpre, hminted, rfl, rfl, rfl, rfl⟩

/-- What leaving does with `total` deposit tokens lent out: `paid` of them for `redeem`
    vault tokens, with the rate `pre` saved. -/
structure Exited (env : Env) (info : MessageInfo) (s : State) (total redeem paid pre : Nat)
    (s' : State) (msgs : List Msg) : Prop where
  funds : info.funds = [⟨s.config.vaultToken, redeem⟩]
  positive : redeem ≠ 0
  within : redeem ≤ s.vaultToken
  rate : calculateBaseTokens rateUnit total s.vaultToken = .ok pre
  pays : calculateBaseTokens redeem total s.vaultToken = .ok paid
  config : s'.config = s.config
  supply : s'.vaultToken = s.vaultToken - redeem
  saved : s'.tokenRateAssurance = some pre
  sends : msgs = [.burn env.contractAddress s.config.vaultToken redeem env.contractAddress,
      .withdraw s.config.marsRedbankAddr s.config.depositToken paid info.sender] ++
    if s.vaultToken - redeem ≠ 0 ∧ paid < total then [.rateAssurance env.contractAddress] else []

theorem exitVault_spec (done : exitVault deps env info s = .ok (s', msgs)) :
    ∃ total redeem paid pre, getTotalDepositTokens deps env s.config = .ok total ∧
      Exited env info s total redeem paid pre s' msgs := by
  simp only [exitVault, bind_eq_ok, liftStd_eq_ok, pure_eq_ok, Prod.mk.injEq, onlyCoin_eq_ok,
    guardErr_eq_ok, ofOption_eq_ok, Uint128.checkedSub_eq_some] at done
  obtain ⟨redeem, hfunds, _, hsome, total, htotal, pre, hpre, paid, hpaid, _, -, _, -, _, -, _,
    ⟨hwithin, rfl⟩, rfl, rfl⟩ := done
  exact ⟨total, redeem, paid, pre, htotal, hfunds, hsome, hwithin, hpre, hpaid, rfl, rfl, rfl, rfl⟩

theorem rateAssurance_eq_ok :
    rateAssurance deps env info s = .ok (s', msgs) ↔ info.sender = env.contractAddress ∧
      (∃ rate total, s.tokenRateAssurance = some rate ∧
        getTotalDepositTokens deps env s.config = .ok total ∧
        calculateBaseTokens rateUnit total s.vaultToken = .ok rate) ∧ s' = s ∧ msgs = [] := by
  simp only [rateAssurance, bind_eq_ok, liftStd_eq_ok, pure_eq_ok, Prod.mk.injEq, guardErr_eq_ok,
    ofOption_eq_ok, Decidable.not_not]
  constructor
  · rintro ⟨_, hsender, _, hsaved, total, htotal, rate, hrate, _, rfl, rfl, rfl⟩
    exact ⟨hsender, ⟨rate, total, hsaved, htotal, hrate⟩, rfl, rfl⟩
  · rintro ⟨hsender, ⟨rate, total, hsaved, htotal, hrate⟩, rfl, rfl⟩
    exact ⟨⟨⟩, hsender, rate, hsaved, total, htotal, rate, hrate, ⟨⟩, rfl, rfl, rfl⟩

/-- The other handlers leave the supply alone and send nothing; the money market is changed
    only by the configuration. -/
structure Kept (s s' : State) (msgs : List Msg) : Prop where
  supply : s'.vaultToken = s.vaultToken
  sends : msgs = []

theorem crankApr_spec (done : crankApr deps env s = .ok (s', msgs)) :
    Kept s s' msgs ∧ s'.config = s.config := by
  simp only [crankApr, bind_eq_ok, pure_eq_ok, Prod.mk.injEq] at done
  obtain ⟨_, -, _, -, _, -, rfl, rfl⟩ := done
  exact ⟨⟨rfl, rfl⟩, rfl⟩

theorem updateConfig_spec {owner marsRedbankAddr : Option String}
    (done : updateConfig deps info owner marsRedbankAddr s = .ok (s', msgs)) :
    Kept s s' msgs ∧
      s'.config.marsRedbankAddr = marsRedbankAddr.getD s.config.marsRedbankAddr := by
  simp only [updateConfig, bind_eq_ok, pure_eq_ok, Prod.mk.injEq] at done
  obtain ⟨_, -, _, -, redbank, hredbank, rfl, rfl⟩ := done
  refine ⟨⟨rfl, rfl⟩, ?_⟩
  cases marsRedbankAddr with
  | none => exact (pure_eq_ok.mp hredbank).symm
  | some addr =>
    rw [liftStd_eq_ok, addrValidate_eq_ok] at hredbank
    exact hredbank.2.symm

end

end Membrane.MarsVault
