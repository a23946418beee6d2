import Membrane.Lib.Run
import Membrane.StableEarn.Proofs.Unlooping

/-!
# The books of the stable earn vault

Calls by anyone, in which the other contracts answer and pay what they like. The recorded supply
follows the vault tokens that are minted and burned, and no vault token of the Mars vault comes or
goes but by the Mars vault and with the calls: it is in the buffer or in the position.
-/

namespace Membrane.StableEarn

open Outcome Fueled

/-! ## Messages in the books -/

structure Config.SameDenoms (config config' : Config) : Prop where
  deposited : config'.depositToken.depositToken = config.depositToken.depositToken
  held : config'.depositToken.vaultToken = config.depositToken.vaultToken
  cdtDenom : config'.cdtDenom = config.cdtDenom
  vaultToken : config'.vaultToken = config.vaultToken

namespace Config.SameDenoms

variable {config mid config' : Config}

theorem refl (config : Config) : config.SameDenoms config := ⟨rfl, rfl, rfl, rfl⟩

theorem trans (first : config.SameDenoms mid) (second : mid.SameDenoms config') :
    config.SameDenoms config' where
  deposited := second.deposited.trans first.deposited
  held := second.held.trans first.held
  cdtDenom := second.cdtDenom.trans first.cdtDenom
  vaultToken := second.vaultToken.trans first.vaultToken

theorem distinct (same : config.SameDenoms config') (distinct : config.Distinct) :
    config'.Distinct := by
  refine ⟨?_, ?_, ?_⟩
  · rw [same.held, same.deposited]
    exact distinct.deposit
  · rw [same.held, same.cdtDenom]
    exact distinct.cdt
  · rw [same.held, same.vaultToken]
    exact distinct.vault

end Config.SameDenoms

/-- A message moves coins of the denoms that are meant for it. -/
def Step.Sound (config : Config) : Step → Prop
  | .msg (.base (.burn _ denom _ _)) => denom = config.vaultToken
  | .msg (.base (.send _ coin)) => coin.denom = config.depositToken.depositToken
  | .msg (.base (.exitVault _ funds)) => funds.denom = config.depositToken.vaultToken
  | .msg (.base (.deposit _ _ funds)) => funds.denom = config.depositToken.vaultToken
  | .msg (.base (.repay _ _ funds)) => funds.denom = config.cdtDenom
  | .msg (.enterVault _ funds) => funds.denom = config.depositToken.depositToken
  | .msg (.executeSwaps _ tokenOut _ funds) =>
    funds.denom = config.cdtDenom ∧ tokenOut = config.depositToken.depositToken ∨
      funds.denom = config.depositToken.depositToken ∧ tokenOut = config.cdtDenom
  | _ => True

/-- The vault tokens that a message mints. -/
def Step.mints : Step → Nat
  | .msg (.mint _ _ amount _) => amount
  | _ => 0

def Step.burns : Step → Nat
  | .msg (.base (.burn _ _ amount _)) => amount
  | _ => 0

def mintsIn (steps : List Step) : Nat := (steps.map Step.mints).sum

def burnsIn (steps : List Step) : Nat := (steps.map Step.burns).sum

theorem mintsIn_append (steps steps' : List Step) :
    mintsIn (steps ++ steps') = mintsIn steps + mintsIn steps' := by
  rw [mintsIn, List.map_append, List.sum_append]
  rfl

theorem burnsIn_append (steps steps' : List Step) :
    burnsIn (steps ++ steps') = burnsIn steps + burnsIn steps' := by
  rw [burnsIn, List.map_append, List.sum_append]
  rfl

theorem Step.Sound.same {config config' : Config} (same : config.SameDenoms config') {step : Step}
    (sound : step.Sound config) : step.Sound config' := by
  unfold Step.Sound at sound ⊢
  rw [same.deposited, same.held, same.cdtDenom, same.vaultToken]
  exact sound

/-- What a handler writes and answers with: sound messages, which mint and burn the vault tokens
    that the recorded supply changes by. -/
structure Wrote (s s' : State) (answers : List Step) : Prop where
  denoms : s.config.SameDenoms s'.config
  sound : ∀ step ∈ answers, step.Sound s.config
  supply : s'.vaultToken + burnsIn answers = s.vaultToken + mintsIn answers

/-- A handler that is called by the contract itself neither mints nor burns. -/
structure Internal (s s' : State) (answers : List Step) : Prop where
  denoms : s.config.SameDenoms s'.config
  sound : ∀ step ∈ answers, step.Sound s.config
  supply : s'.vaultToken = s.vaultToken
  mints : mintsIn answers = 0
  burns : burnsIn answers = 0

theorem Internal.wrote {s s' : State} {answers : List Step} (internal : Internal s s' answers) :
    Wrote s s' answers := by
  refine ⟨internal.denoms, internal.sound, ?_⟩
  rw [internal.supply, internal.mints, internal.burns]

section Handlers

variable {w : World} {l l' : Ledger} {answers : List Step}

theorem Answered.internal {desired : Nat} (answered : Answered desired l l' answers) :
    Internal l.state l'.state answers := by
  cases answered with
  | nothing => exact ⟨.refl _, by simp, rfl, rfl, rfl⟩
  | withdraws => exact ⟨.refl _, by simp [Ledger.withdrawal, Step.Sound], rfl, rfl, rfl⟩
  | swaps => exact ⟨.refl _, by simp [Ledger.withdrawal, Step.Sound], rfl, rfl, rfl⟩

theorem quiet_internal {deps : LoopDeps} {env : Env} {info : MessageInfo} {msg : ExecuteMsg}
    {s s' : State} {msgs : List LoopSubMsg}
    (quiet : msg = .rateAssurance ∨ msg = .postLoopMaintenance ∨ msg = .unloopMaintenance ∨
      msg = .updateNonleveragedVaultTokens)
    (done : execute deps env info msg s = .ok (s', msgs)) :
    Internal s s' (msgs.flatMap LoopSubMsg.steps) := by
  obtain ⟨rfl, total, rfl⟩ := execute_quiet quiet done
  exact ⟨⟨rfl, rfl, rfl, rfl⟩, by simp, rfl, rfl, rfl⟩

theorem reply_internal {id : ReplyId} (done : w.perform (.reply id) l = .ok (l', answers)) :
    Internal l.state l'.state answers ∧ l' = { l with state := l'.state } := by
  cases id with
  | enterVault =>
    simp only [World.perform, reply, handleEnterReply, bind_eq_ok, mapErr_eq_ok] at done
    obtain ⟨⟨s, msgs⟩, ⟨_, ⟨amounts, -, hmsgs⟩, hstate⟩, hdone⟩ := done
    cases pure_eq_ok.mp hstate
    cases pure_eq_ok.mp hdone
    cases pure_eq_ok.mp hmsgs
    refine ⟨⟨.refl _, ?_, rfl, ?_, ?_⟩, rfl⟩
    · split <;> simp [LoopSubMsg.steps, LoopSubMsg.new, Step.Sound]
    · split <;> rfl
    · split <;> rfl
  | loop =>
    simp only [World.perform, reply, handleLoopReply, bind_eq_ok, mapErr_eq_ok] at done
    obtain ⟨⟨s, msgs⟩, ⟨_, ⟨_, -, _, -, amounts, -, _, -, hmsgs⟩, hstate⟩, hdone⟩ := done
    cases pure_eq_ok.mp hstate
    cases pure_eq_ok.mp hdone
    cases pure_eq_ok.mp hmsgs
    exact ⟨⟨.refl _, by simp [LoopSubMsg.steps, LoopSubMsg.new, Step.Sound], rfl, rfl, rfl⟩, rfl⟩
  | exitVault =>
    obtain ⟨rfl, proxy, amount, rfl⟩ := reply_exitVault_spec done
    exact ⟨⟨.refl _, by simp [Step.Sound], rfl, rfl, rfl⟩, rfl⟩
  | unloop =>
    cases reply_unloop_spec done with
    | mk cdp positionId amount loopCount desires running goesOn =>
      refine ⟨⟨.refl _, ?_, rfl, ?_, ?_⟩, rfl⟩
      · rcases goesOn with rfl | rfl | ⟨-, rfl⟩ <;> simp [Ledger.withdrawal, Step.Sound]
      · rcases goesOn with rfl | rfl | ⟨-, rfl⟩ <;> rfl
      · rcases goesOn with rfl | rfl | ⟨-, rfl⟩ <;> rfl

theorem execute_wrote {info : MessageInfo} {msg : ExecuteMsg} {s : State} {msgs : List LoopSubMsg}
    (done : execute (w.deps l) (World.env l) info msg l.state = .ok (s, msgs)) :
    Wrote l.state s (msgs.flatMap LoopSubMsg.steps) := by
  cases msg with
  | enterVault =>
    simp only [execute, enterVault, bind_eq_ok, liftFactory_eq_ok] at done
    obtain ⟨_, -, _, -, _, -, minted, -, supply, hsupply, _, -, _, -, _, -, hdone⟩ := done
    obtain ⟨-, rfl⟩ := Uint128.add_eq_ok.mp hsupply
    cases pure_eq_ok.mp hdone
    refine ⟨⟨rfl, rfl, rfl, rfl⟩, ?_, ?_⟩
    · split <;> simp [LoopSubMsg.steps, LoopSubMsg.new, Step.Sound]
    · split <;> rfl
  | exitVault =>
    simp only [execute, bind_eq_ok, liftFactory_eq_ok] at done
    obtain ⟨⟨s', msgs'⟩, hexit, hdone⟩ := done
    cases pure_eq_ok.mp hdone
    obtain ⟨vaultTokens, _, _, hwrites⟩ := exitVault_writes hexit
    obtain ⟨_, _, -, -, -, _, _, -, -, hsupply, hstate, rfl⟩ := hwrites.redeems
    refine ⟨?_, ?_, ?_⟩
    · rw [hstate]
      exact ⟨rfl, rfl, rfl, rfl⟩
    · split <;> split <;> simp [LoopSubMsg.steps, LoopSubMsg.new, Step.Sound]
    · rw [← hsupply]
      split <;> split <;> rfl
  | unloopCDP desired => exact (unloopCdp_answered done).internal.wrote
  | loopCDP =>
    simp only [execute, loopCdp, getCdpPositionInfo, bind_eq_ok, liftFactory_eq_ok,
      liftStd_eq_ok] at done
    obtain ⟨_, -, _, -, position, ⟨_, -, _, -, _, -, _, -, _, -, _, -, _, -, hposition⟩, _, -, _, -,
      _, -, _, -, hdone⟩ := done
    cases pure_eq_ok.mp hposition
    cases pure_eq_ok.mp hdone
    refine ⟨.refl _, ?_, ?_⟩
    · dsimp only
      split <;> simp [LoopSubMsg.steps, LoopSubMsg.new, Step.Sound]
    · dsimp only
      split <;> rfl
  | rateAssurance | postLoopMaintenance | unloopMaintenance | updateNonleveragedVaultTokens =>
    exact (quiet_internal (by simp) done).wrote

end Handlers

/-! ## One message -/

namespace Ledger

variable (l : Ledger)

def tokensReceived : Nat := l.received.balance l.state.config.depositToken.vaultToken

def tokensOut : Nat := l.vaultTokens + l.collateral + l.redeemed

def tokensIn : Nat := l.issued + l.tokensReceived

end Ledger

theorem Ledger.tokens_of_state {l : Ledger} {s : State}
    (denoms : l.state.config.SameDenoms s.config) :
    Ledger.tokensOut { l with state := s } = l.tokensOut ∧
      Ledger.tokensIn { l with state := s } = l.tokensIn := by
  have hheld : Ledger.vaultTokens { l with state := s } = l.vaultTokens :=
    congrArg l.balances.balance denoms.held
  have hcame : Ledger.tokensReceived { l with state := s } = l.tokensReceived :=
    congrArg l.received.balance denoms.held
  unfold Ledger.tokensOut Ledger.tokensIn
  rw [hheld, hcame]
  exact ⟨rfl, rfl⟩

structure Booked (step : Step) (l l' : Ledger) (answers : List Step) : Prop where
  denoms : l.state.config.SameDenoms l'.state.config
  sound : ∀ answer ∈ answers, answer.Sound l.state.config
  supply : l'.state.vaultToken = l.state.vaultToken
  minted : l'.minted + mintsIn answers = l.minted + step.mints
  burned : l'.burned + burnsIn answers = l.burned + step.burns
  tokens : l'.tokensOut + l.tokensIn = l.tokensOut + l'.tokensIn

section Messages

variable {w : World} {l l' : Ledger} {answers : List Step}

theorem Booked.of_internal {step : Step} (mints : step.mints = 0) (burns : step.burns = 0)
    (internal : Internal l.state l'.state answers) (same : l' = { l with state := l'.state }) :
    Booked step l l' answers := by
  have htokens := Ledger.tokens_of_state internal.denoms
  rw [← same] at htokens
  refine ⟨internal.denoms, internal.sound, internal.supply, ?_, ?_, ?_⟩
  · rw [internal.mints, mints, same]
  · rw [internal.burns, burns, same]
  · rw [htokens.1, htokens.2]

theorem Booked.of_external {step : Step} (silent : answers = []) (state : l'.state = l.state)
    (minted : l'.minted = l.minted + step.mints) (burned : l'.burned = l.burned + step.burns)
    (received : l'.received = l.received)
    (tokens : l'.vaultTokens + l'.collateral + l'.redeemed + l.issued =
      l.vaultTokens + l.collateral + l.redeemed + l'.issued) : Booked step l l' answers := by
  subst silent
  have hreceived : l'.tokensReceived = l.tokensReceived := by
    rw [Ledger.tokensReceived, received, state]
    rfl
  refine ⟨?_, by simp, by rw [state], minted, burned, ?_⟩
  · rw [state]
    exact .refl _
  · unfold Ledger.tokensOut Ledger.tokensIn
    omega

theorem Booked.of_exchange {step : Step} {paid back : Coin} {balances : Accounts String}
    {collateral debt issued redeemed : Nat} (mints : step.mints = 0) (burns : step.burns = 0)
    (debited : l.balances.debit paid.denom paid.amount = some balances)
    (done : ({ l with
        balances := balances
        collateral := collateral
        debt := debt
        issued := issued
        redeemed := redeemed }.credit back, []) = (l', answers))
    (tokens : (if l.state.config.depositToken.vaultToken = back.denom then back.amount else 0) +
        collateral + redeemed + l.issued =
      (if l.state.config.depositToken.vaultToken = paid.denom then paid.amount else 0) +
        l.collateral + l.redeemed + issued) : Booked step l l' answers := by
  have hpaid : l.debit paid = .ok { l with balances := balances } :=
    bind_eq_ok.mpr ⟨balances, ofOption_eq_ok.mpr debited, rfl⟩
  have hleft := vaultTokens_debit hpaid
  have hgained := vaultTokens_credit (l := { l with balances := balances }) back
  obtain ⟨rfl, rfl⟩ := Prod.mk.inj done
  refine .of_external rfl rfl (by rw [mints]; rfl) (by rw [burns]; rfl) rfl ?_
  show (Ledger.credit { l with balances := balances } back).vaultTokens + collateral + redeemed +
    l.issued = l.vaultTokens + l.collateral + l.redeemed + issued
  rw [hgained, ← hleft]
  dsimp only
  omega

theorem perform_booked {step : Step} (distinct : l.state.config.Distinct)
    (sound : step.Sound l.state.config) (done : w.perform step l = .ok (l', answers)) :
    Booked step l l' answers := by
  cases step with
  | reply id =>
    obtain ⟨hinternal, hsame⟩ := reply_internal done
    exact .of_internal rfl rfl hinternal hsame
  | msg msg =>
    cases msg with
    | base msg =>
      cases msg with
      | burn sender denom amount burnFrom =>
        obtain rfl : denom = l.state.config.vaultToken := sound
        obtain ⟨rfl, balances, rfl, htokens⟩ := burn_spec distinct.vault done
        exact .of_external rfl rfl rfl rfl rfl (by rw [htokens])
      | send toAddress coin =>
        have hother : l.state.config.depositToken.vaultToken ≠ coin.denom := by
          rw [show coin.denom = _ from sound]
          exact distinct.deposit
        obtain ⟨rfl, balances, rfl, htokens⟩ := send_spec hother done
        exact .of_external rfl rfl rfl rfl rfl (by rw [htokens])
      | exitVault vault funds =>
        simp only [World.perform, World.performBase, bind_eq_ok] at done
        obtain ⟨paid, hpaid, received, -, hdone⟩ := done
        obtain ⟨balances, hdebited, rfl⟩ := debit_eq_ok hpaid
        have hown : l.state.config.depositToken.vaultToken = funds.denom := Eq.symm sound
        refine .of_exchange rfl rfl hdebited (pure_eq_ok.mp hdone) ?_
        rw [if_pos hown, if_neg distinct.deposit]
        show 0 + l.collateral + (l.redeemed + funds.amount) + l.issued =
          funds.amount + l.collateral + l.redeemed + l.issued
        omega
      | deposit cdp positionId funds =>
        simp only [World.perform, World.performBase, bind_eq_ok] at done
        obtain ⟨paid, hpaid, debt, -, hdone⟩ := done
        have hown : l.state.config.depositToken.vaultToken = funds.denom := Eq.symm sound
        have hleft := vaultTokens_debit hpaid
        rw [if_pos hown] at hleft
        obtain ⟨balances, -, rfl⟩ := debit_eq_ok hpaid
        cases pure_eq_ok.mp hdone
        refine .of_external rfl rfl rfl rfl rfl ?_
        show Ledger.vaultTokens { l with balances := balances } +
          (l.collateral + funds.amount) + l.redeemed + l.issued =
          l.vaultTokens + l.collateral + l.redeemed + l.issued
        rw [← hleft]
        omega
      | repay cdp positionId funds =>
        simp only [World.perform, World.performBase, bind_eq_ok] at done
        obtain ⟨paid, hpaid, ⟨debt, excess⟩, -, hdone⟩ := done
        obtain ⟨balances, hdebited, rfl⟩ := debit_eq_ok hpaid
        have hother : l.state.config.depositToken.vaultToken ≠ funds.denom := by
          rw [show funds.denom = _ from sound]
          exact distinct.cdt
        refine .of_exchange rfl rfl hdebited (pure_eq_ok.mp hdone) ?_
        rw [if_neg hother, if_neg hother]
      | withdraw cdp positionId assets =>
        have hdone := done
        simp only [World.perform, World.performBase] at hdone
        split at hdone
        case h_1 denom amount =>
          have hcarried := withdraw_carried done
          simp only [bind_eq_ok] at hdone
          obtain ⟨debt, -, _, -, hdone⟩ := hdone
          cases pure_eq_ok.mp hdone
          refine .of_external rfl rfl rfl rfl rfl ?_
          have hfreed : l.collateral - amount + amount = l.collateral := hcarried.collateral
          rw [show Ledger.vaultTokens _ = _ from hcarried.vaultTokens]
          show l.vaultTokens + amount + (l.collateral - amount) + l.redeemed + l.issued =
            l.vaultTokens + l.collateral + l.redeemed + l.issued
          omega
        case h_2 => cases hdone
      | unloopCDP contract desired =>
        obtain ⟨s, msgs, hexecute, rfl, rfl⟩ := callback_spec done
        exact .of_internal rfl rfl (unloop_answered done).internal rfl
      | updateNonleveragedVaultTokens contract =>
        obtain ⟨s, msgs, hexecute, rfl, rfl⟩ := callback_spec done
        exact .of_internal rfl rfl (quiet_internal (by simp) hexecute) rfl
      | rateAssurance contract =>
        obtain ⟨s, msgs, hexecute, rfl, rfl⟩ := callback_spec done
        exact .of_internal rfl rfl (quiet_internal (by simp) hexecute) rfl
    | mint sender denom amount mintTo =>
      cases pure_eq_ok.mp done
      exact .of_external rfl rfl rfl rfl rfl rfl
    | enterVault vault funds =>
      simp only [World.perform, bind_eq_ok] at done
      obtain ⟨paid, hpaid, received, -, hdone⟩ := done
      obtain ⟨balances, hdebited, rfl⟩ := debit_eq_ok hpaid
      have hother : l.state.config.depositToken.vaultToken ≠ funds.denom := by
        rw [show funds.denom = _ from sound]
        exact distinct.deposit
      refine .of_exchange rfl rfl hdebited (pure_eq_ok.mp hdone) ?_
      rw [if_neg hother, if_pos rfl]
      show received + l.collateral + l.redeemed + l.issued =
        0 + l.collateral + l.redeemed + (l.issued + received)
      omega
    | withdrawTo cdp positionId assets sendTo =>
      simp only [World.perform, bind_eq_ok] at done
      obtain ⟨debt, -, hdone⟩ := done
      cases pure_eq_ok.mp hdone
      exact .of_external rfl rfl rfl rfl rfl rfl
    | increaseDebt cdp positionId amount =>
      simp only [World.perform, bind_eq_ok] at done
      obtain ⟨debt, -, hdone⟩ := done
      have hother := vaultTokens_credit (l := { l with debt := debt })
        ⟨l.state.config.cdtDenom, amount⟩
      rw [if_neg distinct.cdt] at hother
      cases pure_eq_ok.mp hdone
      refine .of_external rfl rfl rfl rfl rfl ?_
      rw [hother]
      rfl
    | executeSwaps proxy tokenOut maxSlippage funds =>
      simp only [World.perform, bind_eq_ok] at done
      obtain ⟨paid, hpaid, received, -, hdone⟩ := done
      obtain ⟨balances, hdebited, rfl⟩ := debit_eq_ok hpaid
      have hothers : l.state.config.depositToken.vaultToken ≠ funds.denom ∧
          l.state.config.depositToken.vaultToken ≠ tokenOut := by
        rcases sound with ⟨hsold, hbought⟩ | ⟨hsold, hbought⟩
        · exact ⟨hsold ▸ distinct.cdt, hbought ▸ distinct.deposit⟩
        · exact ⟨hsold ▸ distinct.deposit, hbought ▸ distinct.cdt⟩
      refine .of_exchange rfl rfl hdebited (pure_eq_ok.mp hdone) ?_
      rw [if_neg hothers.1, if_neg hothers.2]
    | postLoopMaintenance contract =>
      obtain ⟨s, msgs, hexecute, rfl, rfl⟩ := callback_spec done
      exact .of_internal rfl rfl (quiet_internal (by simp) hexecute) rfl

end Messages

/-! ## Transactions -/

/-- How the books of a ledger follow from those of another: the recorded supply moved by what was
    minted and burned, and the vault tokens of the Mars vault by what came and was redeemed. -/
structure Balanced (l l' : Ledger) : Prop where
  denoms : l.state.config.SameDenoms l'.state.config
  supply : l'.state.vaultToken + l'.burned + l.minted = l.state.vaultToken + l.burned + l'.minted
  tokens : l'.tokensOut + l.tokensIn = l.tokensOut + l'.tokensIn

namespace Balanced

variable {l mid l' : Ledger}

theorem refl (l : Ledger) : Balanced l l := ⟨.refl _, rfl, rfl⟩

theorem trans (first : Balanced l mid) (second : Balanced mid l') : Balanced l l' where
  denoms := first.denoms.trans second.denoms
  supply := by
    have hfirst := first.supply
    have hsecond := second.supply
    omega
  tokens := by
    have hfirst := first.tokens
    have hsecond := second.tokens
    omega

end Balanced

/-- The books while messages are carried out: what is still to be minted and burned was written
    before. -/
structure Underway (start : Ledger) (steps : List Step) (l : Ledger) : Prop where
  denoms : start.state.config.SameDenoms l.state.config
  sound : ∀ step ∈ steps, step.Sound l.state.config
  supply : l.state.vaultToken + (l.burned + burnsIn steps) + start.minted =
    start.state.vaultToken + start.burned + (l.minted + mintsIn steps)
  tokens : l.tokensOut + start.tokensIn = start.tokensOut + l.tokensIn

section Transactions

variable {w : World} {l l' : Ledger}

theorem Underway.next {start mid l : Ledger} {step : Step} {rest answers : List Step}
    (distinct : start.state.config.Distinct) (underway : Underway start (step :: rest) mid)
    (done : w.perform step mid = .ok (l, answers)) : Underway start (answers ++ rest) l := by
  have hbooked := perform_booked (underway.denoms.distinct distinct)
    (underway.sound step List.mem_cons_self) done
  refine ⟨underway.denoms.trans hbooked.denoms, ?_, ?_, ?_⟩
  · intro later hlater
    refine Step.Sound.same hbooked.denoms ?_
    rcases List.mem_append.mp hlater with hanswer | hrest
    · exact hbooked.sound later hanswer
    · exact underway.sound later (List.mem_cons_of_mem _ hrest)
  · have hsupply := underway.supply
    have hminted := hbooked.minted
    have hburned := hbooked.burned
    have hmints : mintsIn (step :: rest) = step.mints + mintsIn rest := List.sum_cons
    have hburns : burnsIn (step :: rest) = step.burns + burnsIn rest := List.sum_cons
    rw [hbooked.supply, mintsIn_append, burnsIn_append]
    omega
  · have hbefore := underway.tokens
    have hafter := hbooked.tokens
    omega

theorem receiveCoin_balanced (coin : Coin) (l : Ledger) : Balanced l (l.receiveCoin coin) := by
  refine ⟨.refl _, rfl, ?_⟩
  have hheld : (l.receiveCoin coin).vaultTokens = l.vaultTokens +
      if l.state.config.depositToken.vaultToken = coin.denom then coin.amount else 0 :=
    vaultTokens_credit coin
  have hreceived : (l.receiveCoin coin).tokensReceived = l.tokensReceived +
      if l.state.config.depositToken.vaultToken = coin.denom then coin.amount else 0 :=
    Accounts.balance_credit
  unfold Ledger.tokensOut Ledger.tokensIn
  rw [hheld, hreceived]
  show l.vaultTokens + _ + l.collateral + l.redeemed + (l.issued + l.tokensReceived) =
    l.vaultTokens + l.collateral + l.redeemed + (l.issued + (l.tokensReceived + _))
  omega

theorem receive_balanced (info : MessageInfo) (l : Ledger) : Balanced l (World.receive info l) := by
  have hall : ∀ (coins : List Coin) (l : Ledger),
      Balanced l (coins.foldl Ledger.receiveCoin l) := by
    intro coins
    induction coins with
    | nil => exact Balanced.refl
    | cons coin rest ih => exact fun l => (receiveCoin_balanced coin l).trans (ih _)
  exact hall info.funds l

theorem transact_balanced {info : MessageInfo} {msg : ExecuteMsg}
    (distinct : l.state.config.Distinct)
    (returned : (w.transact info msg l).Returns l') : Balanced l l' := by
  obtain ⟨⟨s, msgs⟩, hlift, hrest⟩ := returns_bind.mp returned
  have hwrote := execute_wrote (mapErr_eq_ok.mp (returns_lift.mp hlift))
  have hreceived := receive_balanced info l
  generalize World.receive info l = received at hwrote hreceived hrest
  have hstart : Underway received (msgs.flatMap LoopSubMsg.steps) { received with state := s } := by
    refine ⟨hwrote.denoms, fun step hstep => (hwrote.sound step hstep).same hwrote.denoms, ?_, ?_⟩
    · have hsupply := hwrote.supply
      show s.vaultToken + (received.burned + _) + received.minted =
        received.state.vaultToken + received.burned + (received.minted + _)
      omega
    · obtain ⟨hout, hin⟩ := Ledger.tokens_of_state hwrote.denoms
      rw [hout, hin]
  have hdistinct := hreceived.denoms.distinct distinct
  have hend : Underway received [] l' :=
    dispatch_keeps (fun _ _ _ _ _ underway done => underway.next hdistinct done) hstart hrest
  exact hreceived.trans ⟨hend.denoms, hend.supply, hend.tokens⟩

end Transactions

/-! ## Runs -/

/-- What happens to the vault: calls by anyone, coins that are sent to it, changes of its
    configuration, and debt that accrues. -/
inductive Event where
  | call (world : World) (info : MessageInfo) (msg : ExecuteMsg)
  | sent (coin : Coin)
  | configured (addrValid : String → Bool) (ownershipTransfer : Option Addr) (info : MessageInfo)
      (update : UpdateConfig)
  | accrued (debt : Nat)

/-- A call that fails changes nothing, and is no event. -/
def Event.next (l : Ledger) (event : Event) (l' : Ledger) : Prop :=
  match event with
  | .call world info msg => (world.transact info msg l).Returns l'
  | .sent coin => l' = l.receiveCoin coin
  | .configured addrValid ownershipTransfer info update => ∃ s later,
      updateConfig addrValid ownershipTransfer info update l.state = .ok (s, later) ∧
        l' = { l with state := s }
  | .accrued debt => l' = { l with debt := debt }

theorem updateConfig_denoms {addrValid : String → Bool} {ownershipTransfer later : Option Addr}
    {info : MessageInfo} {update : UpdateConfig} {s s' : State}
    (done : updateConfig addrValid ownershipTransfer info update s = .ok (s', later)) :
    s.config.SameDenoms s'.config ∧ s'.vaultToken = s.vaultToken := by
  simp only [updateConfig, bind_eq_ok, liftFactory_eq_ok] at done
  obtain ⟨_, -, _, -, _, -, _, -, _, -, _, -, hdone⟩ := done
  cases pure_eq_ok.mp hdone
  exact ⟨⟨rfl, rfl, rfl, rfl⟩, rfl⟩

theorem Event.balanced {event : Event} {l l' : Ledger} (distinct : l.state.config.Distinct)
    (step : event.next l l') : Balanced l l' := by
  cases event with
  | call world info msg => exact transact_balanced distinct step
  | sent coin =>
    obtain rfl : l' = l.receiveCoin coin := step
    exact receiveCoin_balanced coin l
  | configured addrValid ownershipTransfer info update =>
    obtain ⟨s, later, hdone, rfl⟩ := step
    obtain ⟨hdenoms, hsupply⟩ := updateConfig_denoms hdone
    obtain ⟨hout, hin⟩ := Ledger.tokens_of_state hdenoms
    refine ⟨hdenoms, ?_, ?_⟩
    · show s.vaultToken + l.burned + l.minted = _
      rw [hsupply]
    · rw [hout, hin]
  | accrued debt =>
    obtain rfl : l' = { l with debt := debt } := step
    exact ⟨.refl _, rfl, rfl⟩

/-- Over any run the recorded supply follows what is minted and burned, and the vault tokens of the
    Mars vault that are held, that are collateral and that were redeemed are those that came. -/
theorem books_kept {l l' : Ledger} (distinct : l.state.config.Distinct)
    (run : RunWhere (fun l (event : Event) l' => event.next l l') (fun _ _ => True) l l') :
    Balanced l l' := by
  refine run.keeps ?_ (.refl l)
  intro mid event l' balanced _ step
  exact balanced.trans (event.balanced (balanced.denoms.distinct distinct) step)

theorem sampleEnter_positive : 0 < 200000000 := by decide

def sampleEnter : MessageInfo := .oneCoin "user" ⟨"uusdc", 200000000⟩ sampleEnter_positive

def sampleBooks : Option Ledger :=
  (evenWorld.transact sampleExit .exitVault sampleLedger).value.bind fun l =>
    (evenWorld.transact sampleEnter .enterVault l).value

/-- 3500 Mars vault tokens were redeemed, 200 were issued, and 6800 are left. -/
theorem books_kept_exit_enter : ∃ l',
    RunWhere (fun l (event : Event) l' => event.next l l') (fun _ _ => True) sampleLedger l' ∧
      Balanced sampleLedger l' ∧
      (l'.minted, l'.burned, l'.issued, l'.redeemed) =
        (200000000000000, 500000000000000, 200000000, 3500000000) ∧
      l'.vaultTokens + l'.collateral = 6800000000 := by
  have hlast : sampleBooks.map (fun l' => ((l'.minted, l'.burned, l'.issued, l'.redeemed),
      l'.vaultTokens + l'.collateral)) =
        some ((200000000000000, 500000000000000, 200000000, 3500000000), 6800000000) := by
    decide +kernel
  obtain ⟨l', hbooks, hleft⟩ := Option.map_eq_some_iff.mp hlast
  obtain ⟨mid, hexit, henter⟩ := Option.bind_eq_some_iff.mp hbooks
  obtain ⟨hcounted, htokens⟩ := Prod.mk.inj hleft
  have hrun : RunWhere (fun l (event : Event) l' => event.next l l') (fun _ _ => True)
      sampleLedger l' :=
    RunWhere.snoc (RunWhere.snoc .refl (.call evenWorld sampleExit .exitVault) trivial
      (value_eq_some.mp hexit)) (.call evenWorld sampleEnter .enterVault) trivial
      (value_eq_some.mp henter)
  exact ⟨l', hrun, books_kept sampleLedger_distinct hrun, hcounted, htokens⟩

end Membrane.StableEarn
