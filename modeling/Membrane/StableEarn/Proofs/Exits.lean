import Membrane.MarsVault.Proofs.Dilution
import Membrane.StableEarn.Proofs.Buffer

/-!
# What an exit is covered by

An exit redeems Mars vault tokens, as many as the Mars vault would issue for the deposit
tokens of the exit, and pays the deposit tokens less one. Both conversions round down, and
one unit makes up for it only where the rounding of the first is at most one share's worth.
-/

namespace Membrane.StableEarn

open Outcome PoolShares
open MarsVault (calculateBaseTokens)

/-! ## One exit -/

section Exit

variable {deps : Deps} {env : Env} {info : MessageInfo} {s s' : State} {msgs : List Msg}

/-- What an exit with `vaultTokens` is about: `withdrawn` deposit tokens, for which the Mars
    vault converts to `marsVaultTokens`. -/
structure Exited (deps : Deps) (env : Env) (info : MessageInfo) (s : State)
    (vaultTokens withdrawn marsVaultTokens : Nat) (msgs : List Msg) : Prop where
  sent : sentVaultTokens s.config info = .ok vaultTokens
  redeems : ∃ total, getTotalDepositTokens deps env s.config = .ok total ∧
    calculateBaseTokens vaultTokens total s.vaultToken = .ok withdrawn
  converts : deps.depositTokenConversion s.config.depositToken.vaultAddr withdrawn =
    .ok marsVaultTokens
  positive : 1 ≤ withdrawn
  exits : ∀ vault coin, .exitVault vault coin ∈ msgs ↔ vault = s.config.depositToken.vaultAddr ∧
    coin = ⟨s.config.depositToken.vaultToken, marsVaultTokens⟩
  sends : ∀ toAddress coin, .send toAddress coin ∈ msgs ↔ toAddress = info.sender ∧
    coin = ⟨s.config.depositToken.depositToken, withdrawn - 1⟩

theorem exitVault_spec (done : exitVault deps env info s = .ok (s', msgs)) :
    ∃ vaultTokens withdrawn marsVaultTokens,
      Exited deps env info s vaultTokens withdrawn marsVaultTokens msgs := by
  simp only [exitVault, bind_eq_ok, liftStd_eq_ok, mapErr_eq_ok, ofExcept_eq_ok, ofOption_eq_ok,
    subUint_eq_ok, pure_eq_ok, Prod.mk.injEq] at done
  obtain ⟨vaultTokens, hsent, total, htotal, _, -, withdrawn, hwithdrawn, supply, -,
    marsVaultTokens, hconverts, _, -, balance, -, _, ⟨hpositive, rfl⟩, -, rfl⟩ := done
  refine ⟨vaultTokens, withdrawn, marsVaultTokens, hsent, ⟨total, htotal, hwithdrawn⟩, hconverts,
    hpositive, ?_, ?_⟩
  · intro vault coin
    split <;> split <;> simp
  · intro toAddress coin
    split <;> split <;> simp

end Exit

/-! ## At the Mars vault -/

section Mars

variable {l l' : MarsVault.Ledger} {call : MarsVault.Call}

/-- A call that sends a coin to the Mars vault for deposit tokens gets `received`. -/
structure Receives (l : MarsVault.Ledger) (call : MarsVault.Call) (coin : Coin) (received : Nat) :
    Prop where
  funds : call.info.funds = [coin]
  paid : ∃ s msgs, MarsVault.exitVault (l.deps call) (l.env call) call.info l.state =
    .ok (s, msgs) ∧
    .withdraw l.state.config.marsRedbankAddr l.state.config.depositToken received
      call.info.sender ∈ msgs

theorem Receives.redeemed {coin : Coin} {received : Nat}
    (receives : Receives l call coin received) :
    l.state.vaultToken ≠ 0 ∧ received = redeemed coin.amount l.deposited l.state.vaultToken := by
  obtain ⟨s, msgs, done, hpaid⟩ := receives.paid
  obtain ⟨-, redeem, paid, pre, hexited⟩ := MarsVault.exit_spec done
  have hpositive := hexited.positive
  have hwithin := hexited.within
  have hsome : l.state.vaultToken ≠ 0 := by omega
  have hcoin := receives.funds.symm.trans hexited.funds
  simp only [List.cons.injEq, and_true] at hcoin
  subst hcoin
  have hsame : received = paid := by
    rw [hexited.sends] at hpaid
    split at hpaid <;> simpa using hpaid
  rw [hsame]
  exact ⟨hsome, ((MarsVault.calculateBaseTokens_eq_ok hsome).mp hexited.pays).2⟩

theorem queryDepositTokenConversion_issued {amount converted : Nat} (some : l.deposited ≠ 0)
    (done : MarsVault.queryDepositTokenConversion (l.deps call) (l.env call) amount l.state =
      .ok converted) : converted = issued amount l.deposited l.state.vaultToken := by
  simp only [MarsVault.queryDepositTokenConversion, bind_eq_ok] at done
  obtain ⟨total, htotal, hconverted⟩ := done
  obtain ⟨rfl, -⟩ := MarsVault.answers htotal
  have hissued := (MarsVault.calculateVaultTokens_eq_ok.mp hconverted).2
  rwa [if_neg some] at hissued

/-- The Mars vault changes by exits only. -/
def Exits : MarsVault.Ledger → MarsVault.Ledger → Prop :=
  RunWhere MarsVault.eventStep fun _ event => ∃ call, event = .call call ∧ call.msg = .exitVault

theorem exit_keeps_worth (exits : call.msg = .exitVault) (done : l.transact call = some l')
    (some : l'.state.vaultToken ≠ 0) (held : Nat) : l.state.vaultToken ≠ 0 ∧
      redeemed held l.deposited l.state.vaultToken ≤
        redeemed held l'.deposited l'.state.vaultToken := by
  obtain ⟨received, hfunded, hrest⟩ := Option.bind_eq_some_iff.mp done
  split at hrest
  case h_2 => cases hrest
  case h_1 s' msgs hexecute =>
    unfold MarsVault.execute at hexecute
    rw [exits] at hexecute
    obtain ⟨-, redeem, paid, pre, hexited⟩ := MarsVault.exit_spec hexecute
    obtain ⟨-, hsupply, hdeposited⟩ := MarsVault.exit_leaves hfunded hexited hrest
    rw [hsupply] at some
    rw [hsupply, hdeposited]
    exact ⟨by omega, redeemed_le_of_exit (by omega)⟩

theorem Exits.keep_worth (run : Exits l l') (some : l'.state.vaultToken ≠ 0) (held : Nat) :
    l.state.vaultToken ≠ 0 ∧ redeemed held l.deposited l.state.vaultToken ≤
      redeemed held l'.deposited l'.state.vaultToken := by
  induction run with
  | refl => exact ⟨some, Nat.le_refl _⟩
  | tail _ last ih =>
    obtain ⟨_, ⟨call, rfl, hexits⟩, hstep⟩ := last
    obtain ⟨hsome, hlast⟩ := exit_keeps_worth hexits hstep some held
    obtain ⟨hstart, hle⟩ := ih hsome
    exact ⟨hstart, Nat.le_trans hle hlast⟩

end Mars

/-! ## Covered exits -/

/-- The rounding of the Mars vault tokens for the deposit tokens of an exit is at most the
    vault tokens there are. -/
def RoundsWithin (deps : Deps) (env : Env) (info : MessageInfo) (s : State)
    (l : MarsVault.Ledger) : Prop :=
  ∃ vaultTokens total withdrawn, sentVaultTokens s.config info = .ok vaultTokens ∧
    getTotalDepositTokens deps env s.config = .ok total ∧
    calculateBaseTokens vaultTokens total s.vaultToken = .ok withdrawn ∧
    l.state.vaultToken * withdrawn % l.deposited ≤ l.state.vaultToken

/-- In every state of the Mars vault, what an exit receives for the Mars vault tokens covers
    what it pays exactly where their rounding is at most the vault tokens there are. That is
    enough as well where the Mars vault has served other exits in between. -/
theorem payout_covered_iff {deps : Deps} {env : Env} {info : MessageInfo} {s s' : State}
    {msgs : List Msg} {l : MarsVault.Ledger} {asked : MarsVault.Call} {coin : Coin} {payout : Nat}
    (backed : l.deposited ≠ 0) (some : l.state.vaultToken ≠ 0)
    (answers : ∀ amount converted,
      deps.depositTokenConversion s.config.depositToken.vaultAddr amount = .ok converted →
      MarsVault.queryDepositTokenConversion (l.deps asked) (l.env asked) amount l.state =
        .ok converted)
    (done : exitVault deps env info s = .ok (s', msgs))
    (exits : .exitVault s.config.depositToken.vaultAddr coin ∈ msgs)
    (sends : .send info.sender ⟨s.config.depositToken.depositToken, payout⟩ ∈ msgs) :
    (∀ call received, Receives l call coin received →
      (payout ≤ received ↔ RoundsWithin deps env info s l)) ∧
    ∀ l' call received, RoundsWithin deps env info s l → Exits l l' →
      Receives l' call coin received → payout ≤ received := by
  obtain ⟨vaultTokens, withdrawn, marsVaultTokens, hexited⟩ := exitVault_spec done
  obtain ⟨-, rfl⟩ := (hexited.exits _ _).mp exits
  obtain ⟨-, hpayout⟩ := (hexited.sends _ _).mp sends
  obtain rfl : payout = withdrawn - 1 := congrArg Coin.amount hpayout
  obtain rfl := queryDepositTokenConversion_issued backed (answers _ _ hexited.converts)
  obtain ⟨total, htotal, hwithdrawn⟩ := hexited.redeems
  have hrounds : RoundsWithin deps env info s l ↔
      withdrawn - 1 ≤
        redeemed (issued withdrawn l.deposited l.state.vaultToken) l.deposited
          l.state.vaultToken := by
    rw [Nat.sub_le_iff_le_add, le_redeemed_issued_iff (Nat.pos_of_ne_zero some)]
    constructor
    · rintro ⟨_, _, _, hsent', htotal', hwithdrawn', hle⟩
      obtain rfl := Except.ok.inj (hexited.sent.symm.trans hsent')
      obtain rfl := Except.ok.inj (htotal.symm.trans htotal')
      obtain rfl := Except.ok.inj (hwithdrawn.symm.trans hwithdrawn')
      exact hle
    · intro hle
      exact ⟨_, _, _, hexited.sent, htotal, hwithdrawn, hle⟩
  constructor
  · intro call received hreceives
    obtain ⟨-, rfl⟩ := hreceives.redeemed
    exact hrounds.symm
  · intro l' call received hwithin hrun hreceives
    obtain ⟨hsome, rfl⟩ := hreceives.redeemed
    exact Nat.le_trans (hrounds.mp hwithin) (hrun.keep_worth hsome _).2

/-! ## On a sample chain -/

/-- The Mars vault after a deposit of one unit, on which ten million have been earned. -/
def sampleEvents : List MarsVault.Event :=
  [.call (MarsVault.sampleEnter 1 (by decide)), .earn "redbank" 10000000]

def sampleRedeem : MarsVault.Call :=
  MarsVault.sampleCall .exitVault ⟨"factory/vault/mars", 1⟩ (by decide)

theorem sampleEvents_reading : ∃ l, MarsVault.vaultAfter sampleEvents = some l ∧
    l.deposited = 10000001 ∧ l.state.vaultToken = 1000000 ∧
    Receives l sampleRedeem ⟨"factory/vault/mars", 1⟩ 10 := by
  have hreading : MarsVault.sampleReading sampleEvents sampleRedeem = some ⟨"vault",
      MarsVault.sampleVault.config, 10000001, 1000000,
      [.burn "vault" "factory/vault/mars" 1 "vault", .withdraw "redbank" "uusdc" 10 "user",
        .rateAssurance "vault"]⟩ := by
    decide +kernel
  obtain ⟨l, received, s', hl, -, hexecute, -, hconfig, hdeposited, hsupply⟩ :=
    MarsVault.sampleReading_spec hreading
  refine ⟨l, hl, hdeposited, hsupply, rfl, s', _, hexecute, ?_⟩
  rw [hconfig]
  exact List.mem_cons_of_mem _ List.mem_cons_self

def marsDeps (balance assets supply : Nat) : Deps where
  balance _ _ := .ok balance
  creditPrice _ := .ok ⟨Decimal.one, 6⟩
  price _ _ _ _ := .ok [⟨Decimal.one, 6⟩]
  basketPositions _ _ _ := .ok [[⟨0, [⟨.nativeToken "factory/vault/mars", 0⟩]⟩]]
  vaultTokenUnderlying _ amount := .ok (redeemed amount assets supply)
  depositTokenConversion _ amount :=
    if issued amount assets supply < Uint128.limit then .ok (issued amount assets supply)
    else .error (.genericErr "overflow")

theorem marsDeps_answers {l : MarsVault.Ledger} {asked : MarsVault.Call} {balance : Nat}
    {vault : Addr} (backed : l.deposited ≠ 0) (fits : l.deposited < Uint128.limit)
    {amount converted : Nat}
    (answer : (marsDeps balance l.deposited l.state.vaultToken).depositTokenConversion
      vault amount =
      .ok converted) :
    MarsVault.queryDepositTokenConversion (l.deps asked) (l.env asked) amount l.state =
      .ok converted := by
  simp only [marsDeps] at answer
  split at answer
  case isTrue hissued =>
    obtain rfl := Except.ok.inj answer
    refine bind_eq_ok.mpr ⟨l.deposited, ?_, ?_⟩
    · rw [MarsVault.getTotalDepositTokens_eq_ok]
      exact if_pos fits
    · rw [MarsVault.calculateVaultTokens_eq_ok, if_neg backed]
      exact ⟨hissued, rfl⟩
  case isFalse => cases answer

def sampleState : State where
  config := { sampleConfig 3 with depositToken := ⟨"vault", "uusdc", "factory/vault/mars"⟩ }
  vaultToken := 30000000
  tokenRateAssurance := 0
  unloopProps := .reset

def sampleSent (amount : Nat) (positive : 0 < amount) : MessageInfo :=
  .oneCoin "user" ⟨"factory/earn/vt", amount⟩ positive

def sampleMsgs (amount payout : Nat) : List Msg :=
  [.burn "earn" "factory/earn/vt" amount "earn", .exitVault "vault" ⟨"factory/vault/mars", 1⟩,
    .send "user" ⟨"uusdc", payout⟩, .updateNonleveragedVaultTokens "earn", .rateAssurance "earn"]

def exitMsgs (deps : Deps) (env : Env) (info : MessageInfo) (s : State) : Option (List Msg) :=
  (exitVault deps env info s).toOption.map Prod.snd

theorem exitMsgs_eq_some {deps : Deps} {env : Env} {info : MessageInfo} {s : State}
    {msgs : List Msg} (done : exitMsgs deps env info s = some msgs) :
    ∃ s', exitVault deps env info s = .ok (s', msgs) := by
  unfold exitMsgs at done
  cases hexit : exitVault deps env info s with
  | error => simp [hexit, Except.toOption] at done
  | ok result =>
    simp only [hexit, Except.toOption, Option.map_some, Option.some.injEq] at done
    subst done
    exact ⟨result.1, rfl⟩

/-- An exit for 11 deposit tokens pays 10, which its Mars vault token redeems. -/
theorem payout_covered_eleven : ∃ l, MarsVault.vaultAfter sampleEvents = some l ∧
    ∀ call received, Receives l call ⟨"factory/vault/mars", 1⟩ received → 10 ≤ received := by
  obtain ⟨l, hl, hdeposited, hsupply, -⟩ := sampleEvents_reading
  have hbacked : l.deposited ≠ 0 := by rw [hdeposited]; decide
  obtain ⟨s', hdone⟩ := exitMsgs_eq_some (show exitMsgs
    (marsDeps 3 l.deposited l.state.vaultToken) ⟨0, "earn"⟩ (sampleSent 11000000 (by decide))
    sampleState = some (sampleMsgs 11000000 10) by rw [hdeposited, hsupply]; decide +kernel)
  have hanswers := fun amount converted => @marsDeps_answers l sampleRedeem 3 "vault" hbacked
    (by rw [hdeposited]; decide) amount converted
  have hexits :
      Msg.exitVault "vault" ⟨"factory/vault/mars", 1⟩ ∈ sampleMsgs 11000000 10 := by decide
  have hsends : Msg.send "user" ⟨"uusdc", 10⟩ ∈ sampleMsgs 11000000 10 := by decide
  have hcovered := payout_covered_iff hbacked (by rw [hsupply]; decide) hanswers hdone hexits hsends
  refine ⟨l, hl, fun call received hreceives => (hcovered.1 call received hreceives).mpr ?_⟩
  refine ⟨11000000, 30, 11, by decide +kernel, ?_, by decide +kernel, ?_⟩
  · rw [hdeposited, hsupply]
    decide +kernel
  · rw [hdeposited, hsupply]
    decide

/-- An exit for 15 deposit tokens pays 14, of which its Mars vault token redeems 10. -/
theorem not_payout_covered :
    ¬ ∀ l, MarsVault.Reachable l → l.deposited ≠ 0 → l.state.vaultToken ≠ 0 →
      ∀ deps env info s s' msgs asked coin payout,
        (∀ amount converted,
          deps.depositTokenConversion s.config.depositToken.vaultAddr amount = .ok converted →
          MarsVault.queryDepositTokenConversion (l.deps asked) (l.env asked) amount l.state =
            .ok converted) →
        exitVault deps env info s = .ok (s', msgs) →
        .exitVault s.config.depositToken.vaultAddr coin ∈ msgs →
        .send info.sender ⟨s.config.depositToken.depositToken, payout⟩ ∈ msgs →
        ∀ call received, Receives l call coin received → payout ≤ received := by
  intro claim
  obtain ⟨l, hl, hdeposited, hsupply, hreceives⟩ := sampleEvents_reading
  have hbacked : l.deposited ≠ 0 := by rw [hdeposited]; decide
  obtain ⟨s', hdone⟩ := exitMsgs_eq_some (show exitMsgs
    (marsDeps 3 l.deposited l.state.vaultToken) ⟨0, "earn"⟩ (sampleSent 15000000 (by decide))
    sampleState = some (sampleMsgs 15000000 14) by rw [hdeposited, hsupply]; decide +kernel)
  have hcovered := claim l (MarsVault.vaultAfter_reachable hl) hbacked (by rw [hsupply]; decide)
    _ _ _ _ _ _ sampleRedeem _ 14
    (fun _ _ => marsDeps_answers hbacked (by rw [hdeposited]; decide)) hdone
    (by decide) (by decide) sampleRedeem 10 hreceives
  exact absurd hcovered (by decide)

end Membrane.StableEarn
