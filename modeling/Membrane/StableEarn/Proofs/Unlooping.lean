import Membrane.StableEarn.Proofs.Exits
import Membrane.StableEarn.Transaction

/-!
# Unloops for a withdrawal

A withdrawal that the buffer does not cover unloops the position, by messages and replies that
call each other up to five times. Every call ends, and a withdrawal succeeds only where its
unloop took out of the position exactly what the buffer was short of.
-/

namespace Membrane.StableEarn

open Outcome Fueled
open MarsVault (calculateBaseTokens)

/-! ## Single messages -/

/-- The denoms of a vault: that of the Mars vault's token is none of the others. -/
structure Config.Distinct (config : Config) : Prop where
  deposit : config.depositToken.vaultToken ≠ config.depositToken.depositToken
  cdt : config.depositToken.vaultToken ≠ config.cdtDenom
  vault : config.depositToken.vaultToken ≠ config.vaultToken

structure Kept (l l' : Ledger) : Prop where
  contract : l'.contract = l.contract
  config : l'.state.config = l.state.config
  supply : l'.state.vaultToken = l.state.vaultToken
  rate : l'.state.tokenRateAssurance = l.state.tokenRateAssurance
  minted : l'.minted = l.minted
  burned : l'.burned = l.burned
  sent : l'.sent = l.sent

namespace Kept

variable {l mid l' : Ledger}

theorem refl (l : Ledger) : Kept l l := ⟨rfl, rfl, rfl, rfl, rfl, rfl, rfl⟩

theorem trans (first : Kept l mid) (second : Kept mid l') : Kept l l' where
  contract := second.contract.trans first.contract
  config := second.config.trans first.config
  supply := second.supply.trans first.supply
  rate := second.rate.trans first.rate
  minted := second.minted.trans first.minted
  burned := second.burned.trans first.burned
  sent := second.sent.trans first.sent

end Kept

/-- A message to another contract, which answers with no message of the vault: `gained` and
    `lost` vault tokens of the Mars vault, and `freed` of the collateral. -/
structure Carried (l l' : Ledger) (answers : List Step) (gained lost freed : Nat) : Prop where
  answers : answers = []
  kept : Kept l l'
  state : l'.state = l.state
  vaultTokens : l'.vaultTokens + lost = l.vaultTokens + gained
  collateral : l'.collateral + freed = l.collateral

theorem Carried.unloopProps {l l' : Ledger} {answers : List Step} {gained lost freed : Nat}
    (carried : Carried l l' answers gained lost freed) :
    l'.state.unloopProps = l.state.unloopProps := congrArg State.unloopProps carried.state

section Messages

variable {w : World} {l l' : Ledger} {answers : List Step}

theorem debit_eq_ok {coin : Coin} {paid : Ledger} (done : l.debit coin = .ok paid) :
    ∃ balances, l.balances.debit coin.denom coin.amount = some balances ∧
      paid = { l with balances := balances } := by
  obtain ⟨balances, hdebit, hpaid⟩ := bind_eq_ok.mp done
  exact ⟨balances, ofOption_eq_ok.mp hdebit, (pure_eq_ok.mp hpaid).symm⟩

theorem vaultTokens_credit (coin : Coin) : (l.credit coin).vaultTokens = l.vaultTokens +
    if l.state.config.depositToken.vaultToken = coin.denom then coin.amount else 0 :=
  Accounts.balance_credit

theorem vaultTokens_debit {coin : Coin} {paid : Ledger} (done : l.debit coin = .ok paid) :
    paid.vaultTokens +
      (if l.state.config.depositToken.vaultToken = coin.denom then coin.amount else 0) =
      l.vaultTokens := by
  obtain ⟨balances, hdebit, rfl⟩ := debit_eq_ok done
  split
  case isTrue same =>
    have hleft := Accounts.balance_debit hdebit
    rw [← same] at hleft
    exact hleft
  case isFalse ne => exact Accounts.balance_of_debit hdebit ne

theorem withdraw_carried {cdp : Addr} {positionId amount : Nat} {denom : String}
    (done : w.perform (.msg (.base (.withdraw cdp positionId [⟨.nativeToken denom, amount⟩]))) l =
      .ok (l', answers)) : Carried l l' answers amount 0 amount := by
  simp only [World.perform, World.performBase, bind_eq_ok, guardErr_eq_ok, not_or, not_not,
    Nat.not_lt] at done
  obtain ⟨debt, -, _, ⟨rfl, hcovered⟩, hdone⟩ := done
  cases pure_eq_ok.mp hdone
  refine ⟨rfl, ⟨rfl, rfl, rfl, rfl, rfl, rfl, rfl⟩, rfl, ?_, Nat.sub_add_cancel hcovered⟩
  rw [vaultTokens_credit, if_pos rfl]
  rfl

theorem exit_carried {vault : Addr} {denom : String} {amount : Nat}
    (distinct : l.state.config.Distinct) (same : denom = l.state.config.depositToken.vaultToken)
    (done : w.perform (.msg (.base (.exitVault vault ⟨denom, amount⟩))) l = .ok (l', answers)) :
    Carried l l' answers 0 amount 0 := by
  subst same
  simp only [World.perform, World.performBase, bind_eq_ok] at done
  obtain ⟨paid, hpaid, received, -, hdone⟩ := done
  have htokens := vaultTokens_debit hpaid
  rw [if_pos rfl] at htokens
  obtain ⟨balances, -, rfl⟩ := debit_eq_ok hpaid
  cases pure_eq_ok.mp hdone
  refine ⟨rfl, ⟨rfl, rfl, rfl, rfl, rfl, rfl, rfl⟩, rfl, ?_, rfl⟩
  rw [vaultTokens_credit, if_neg distinct.deposit]
  exact htokens

theorem swap_carried {proxy : Addr} {tokenOut : String} {maxSlippage : Decimal} {funds : Coin}
    (sold : l.state.config.depositToken.vaultToken ≠ funds.denom)
    (bought : l.state.config.depositToken.vaultToken ≠ tokenOut)
    (done : w.perform (.msg (.executeSwaps proxy tokenOut maxSlippage funds)) l =
      .ok (l', answers)) : Carried l l' answers 0 0 0 := by
  simp only [World.perform, bind_eq_ok] at done
  obtain ⟨paid, hpaid, received, -, hdone⟩ := done
  have htokens := vaultTokens_debit hpaid
  rw [if_neg sold] at htokens
  obtain ⟨balances, -, rfl⟩ := debit_eq_ok hpaid
  cases pure_eq_ok.mp hdone
  refine ⟨rfl, ⟨rfl, rfl, rfl, rfl, rfl, rfl, rfl⟩, rfl, ?_, rfl⟩
  rw [vaultTokens_credit, if_neg bought]
  exact htokens

theorem repay_carried {cdp : Addr} {positionId : Nat} {funds : Coin}
    (other : l.state.config.depositToken.vaultToken ≠ funds.denom)
    (done : w.perform (.msg (.base (.repay cdp positionId funds))) l = .ok (l', answers)) :
    Carried l l' answers 0 0 0 := by
  simp only [World.perform, World.performBase, bind_eq_ok] at done
  obtain ⟨paid, hpaid, ⟨debt, excess⟩, -, hdone⟩ := done
  have htokens := vaultTokens_debit hpaid
  rw [if_neg other] at htokens
  obtain ⟨balances, -, rfl⟩ := debit_eq_ok hpaid
  cases pure_eq_ok.mp hdone
  refine ⟨rfl, ⟨rfl, rfl, rfl, rfl, rfl, rfl, rfl⟩, rfl, ?_, rfl⟩
  rw [vaultTokens_credit, if_neg other]
  exact htokens

end Messages

/-! ## A round of an unloop -/

namespace Ledger

variable (l : Ledger)

/-- The rounds of the unloop so far. -/
def loops : Nat := l.state.unloopProps.loopCount

def withdrawal (amount : Nat) : Step :=
  .msg (.base (.withdraw l.state.config.cdpContractAddr l.state.config.cdpPositionId
    [⟨.nativeToken l.state.config.depositToken.vaultToken, amount⟩]))

/-- The record of an unloop that goes on is of the same withdrawal, and of the collateral that
    is left. -/
def Tracks (desired : Nat) : Prop :=
  l.loops ≠ 0 → l.state.unloopProps.desiredCollateralWithdrawal = desired ∧
    l.state.unloopProps.runningCollateralAmount = l.collateral

end Ledger

/-- The answers to an unloop: nothing without a debt or a round left, the withdrawal where the
    position has the room for it, or else a withdrawal to be swapped for the debt. -/
inductive Answered (desired : Nat) (l : Ledger) : Ledger → List Step → Prop where
  | nothing (idle : l.loops = 0 → l.debt = 0) : Answered desired l l []
  | withdraws (later : l.loops ≠ 0) : Answered desired l l [l.withdrawal desired]
  | swaps {unloopProps : UnloopProps} {withdrawn : Nat} (vault : Addr)
      (owing : l.loops = 0 → l.debt ≠ 0) (round : l.loops < loopMax)
      (loopCount : unloopProps.loopCount = l.loops)
      (tracks : l.Tracks desired → unloopProps.desiredCollateralWithdrawal = desired ∧
        unloopProps.runningCollateralAmount + withdrawn = l.collateral) :
      Answered desired l { l with state := { l.state with unloopProps := unloopProps } }
        [l.withdrawal withdrawn,
          .msg (.base (.exitVault vault ⟨l.state.config.depositToken.vaultToken, withdrawn⟩)),
          .reply .exitVault]

section Rounds

variable {w : World} {l l' : Ledger} {answers : List Step} {desired : Nat}

theorem withdrawal_carried {source : Ledger} {amount : Nat}
    (done : w.perform (source.withdrawal amount) l = .ok (l', answers)) :
    Carried l l' answers amount 0 amount := by
  unfold Ledger.withdrawal at done
  exact withdraw_carried done

theorem getCdpPositionInfo_spec {position : CdpPositionInfo}
    (done : getCdpPositionInfo (w.deps l) (World.env l) l.state.config = .ok position) :
    position.runningCreditAmount = l.debt ∧ position.runningCollateralAmount = l.collateral := by
  simp only [getCdpPositionInfo, bind_eq_ok, mapErr_eq_ok, ofExcept_eq_ok, index_eq_ok] at done
  obtain ⟨_, -, _, -, _, -, positions, hpositions, _, hfirst, vaultPosition, hposition, collateral,
    hcollateral, hdone⟩ := done
  cases hpositions
  cases hfirst
  cases hposition
  cases hcollateral
  cases pure_eq_ok.mp hdone
  exact ⟨rfl, rfl⟩

theorem unloopCdp_answered {info : MessageInfo} {s : State} {msgs : List LoopSubMsg}
    (done : unloopCdp (w.deps l) (World.env l) info desired l.state = .ok (s, msgs)) :
    Answered desired l { l with state := s } (msgs.flatMap LoopSubMsg.steps) := by
  simp only [unloopCdp, bind_eq_ok, liftFactory_eq_ok] at done
  obtain ⟨_, -, unloopProps, hprops, hround⟩ := done
  -- what the round starts from: the position in the first one, the record in the later ones
  have hstart : unloopProps.loopCount = l.loops ∧
      (l.Tracks desired → unloopProps.desiredCollateralWithdrawal = desired ∧
        unloopProps.runningCollateralAmount = l.collateral) ∧
      (l.loops = 0 → unloopProps.runningCreditAmount = l.debt) := by
    split at hprops
    case isTrue hfirst =>
      simp only [bind_eq_ok, liftStd_eq_ok] at hprops
      obtain ⟨position, hposition, _, -, hprops⟩ := hprops
      obtain ⟨hcredit, hcollateral⟩ := getCdpPositionInfo_spec hposition
      cases pure_eq_ok.mp hprops
      exact ⟨hfirst.symm, fun _ => ⟨rfl, hcollateral⟩, fun _ => hcredit⟩
    case isFalse hlater =>
      cases pure_eq_ok.mp hprops
      exact ⟨rfl, fun tracks => tracks hlater, fun h => absurd h hlater⟩
  obtain ⟨hcount, htracks, hcredit⟩ := hstart
  split at hround
  case isFalse hidle =>
    cases pure_eq_ok.mp hround
    refine .nothing fun hfirst => ?_
    by_contra howing
    refine hidle ⟨(hcredit hfirst).trans_ne howing, ?_⟩
    rw [hcount, hfirst]
    decide
  case isTrue howes =>
    obtain ⟨⟨withdrawable, _⟩, -, hrest⟩ := bind_eq_ok.mp hround
    split at hrest
    case isTrue hroom =>
      cases pure_eq_ok.mp hrest
      refine .withdraws ?_
      rw [← hcount]
      exact Nat.pos_iff_ne_zero.mp hroom.2
    case isFalse =>
      obtain ⟨running, hleft, hstate⟩ := bind_eq_ok.mp hrest
      cases pure_eq_ok.mp hstate
      have hsub : running + withdrawable = unloopProps.runningCollateralAmount := by
        have hleft := ofOption_eq_ok.mp hleft
        unfold Uint128.checkedSub at hleft
        split at hleft
        case isTrue hle =>
          cases hleft
          exact Nat.sub_add_cancel hle
        case isFalse => cases hleft
      refine .swaps _ (fun hfirst => (hcredit hfirst).symm.trans_ne howes.1)
        (hcount.symm.trans_lt howes.2) hcount fun tracks => ?_
      exact ⟨(htracks tracks).1, hsub.trans (htracks tracks).2⟩

theorem callback_spec {msg : ExecuteMsg} (done : w.callback msg l = .ok (l', answers)) :
    ∃ s msgs, execute (w.deps l) (World.env l) (MessageInfo.noFunds l.contract) msg l.state =
        .ok (s, msgs) ∧
      l' = { l with state := s } ∧ answers = msgs.flatMap LoopSubMsg.steps := by
  simp only [World.callback, bind_eq_ok, mapErr_eq_ok] at done
  obtain ⟨⟨s, msgs⟩, hexecute, hdone⟩ := done
  cases pure_eq_ok.mp hdone
  exact ⟨s, msgs, hexecute, rfl, rfl⟩

theorem unloop_answered {contract : Addr}
    (done : w.perform (.msg (.base (.unloopCDP contract desired))) l = .ok (l', answers)) :
    Answered desired l l' answers := by
  obtain ⟨s, msgs, hexecute, rfl, rfl⟩ := callback_spec done
  exact unloopCdp_answered hexecute

theorem reply_exitVault_spec (done : w.perform (.reply .exitVault) l = .ok (l', answers)) :
    l' = l ∧ ∃ proxy amount, answers =
      [.msg (.executeSwaps proxy l.state.config.cdtDenom l.state.config.swapSlippage
        ⟨l.state.config.depositToken.depositToken, amount⟩), .reply .unloop] := by
  simp only [World.perform, reply, handleExitDepositTokenVaultReply, bind_eq_ok,
    mapErr_eq_ok] at done
  obtain ⟨⟨s, msgs⟩, ⟨_, ⟨amount, -, hmsgs⟩, hstate⟩, hdone⟩ := done
  cases pure_eq_ok.mp hmsgs
  cases pure_eq_ok.mp hstate
  cases pure_eq_ok.mp hdone
  exact ⟨rfl, _, amount, rfl⟩

/-- The answer to the swap of a round: the debt is repaid, and the withdrawal is made, another
    round begun, or nothing where no debt is left. -/
inductive Repaid (l : Ledger) : Ledger → List Step → Prop where
  | mk {unloopProps : UnloopProps} {rest : List Step} (cdp : Addr) (positionId amount : Nat)
      (loopCount : unloopProps.loopCount = l.loops + 1)
      (desires : unloopProps.desiredCollateralWithdrawal =
        l.state.unloopProps.desiredCollateralWithdrawal)
      (running : unloopProps.runningCollateralAmount = l.state.unloopProps.runningCollateralAmount)
      (goesOn : rest = [l.withdrawal l.state.unloopProps.desiredCollateralWithdrawal] ∨ rest = [] ∨
        l.loops + 1 < loopMax ∧ rest = [.msg (.base (.unloopCDP l.contract
          l.state.unloopProps.desiredCollateralWithdrawal))]) :
      Repaid l { l with state := { l.state with unloopProps := unloopProps } }
        (.msg (.base (.repay cdp positionId ⟨l.state.config.cdtDenom, amount⟩)) :: rest)

theorem reply_unloop_spec (done : w.perform (.reply .unloop) l = .ok (l', answers)) :
    Repaid l l' answers := by
  simp only [World.perform, reply, handleUnloopReply, bind_eq_ok, mapErr_eq_ok] at done
  obtain ⟨⟨s, msgs⟩, ⟨⟨s', msgs'⟩, ⟨amount, -, loopCount, hcount, ⟨withdrawable, _⟩, -, rest, hrest,
    hstate'⟩, hstate⟩, hdone⟩ := done
  cases pure_eq_ok.mp hstate'
  cases pure_eq_ok.mp hstate
  cases pure_eq_ok.mp hdone
  have hnext : loopCount = l.loops + 1 := by
    unfold Uint64.add at hcount
    split at hcount
    case isTrue => exact (pure_eq_ok.mp hcount).symm
    case isFalse => cases hcount
  refine .mk _ _ _ hnext rfl rfl ?_
  split at hrest
  case isTrue =>
    cases pure_eq_ok.mp hrest
    exact .inl rfl
  case isFalse =>
    split at hrest
    case isTrue =>
      obtain ⟨_, -, hfails⟩ := bind_eq_ok.mp hrest
      obtain ⟨_, -, hfails⟩ := bind_eq_ok.mp hfails
      cases hfails
    case isFalse hmore =>
      cases pure_eq_ok.mp hrest
      split
      case isTrue =>
        refine .inr (.inr ⟨?_, rfl⟩)
        rw [← hnext]
        exact Nat.lt_of_not_le hmore
      case isFalse => exact .inr (.inl rfl)

end Rounds

/-! ## The whole unloop -/

theorem Kept.of_unloopProps (l : Ledger) (unloopProps : UnloopProps) :
    Kept l { l with state := { l.state with unloopProps := unloopProps } } :=
  ⟨rfl, rfl, rfl, rfl, rfl, rfl, rfl⟩

/-- A round that swapped collateral for the debt, of which the record is right. -/
structure Rounded (desired : Nat) (l l' : Ledger) : Prop where
  kept : Kept l l'
  vaultTokens : l'.vaultTokens = l.vaultTokens
  collateral : l'.collateral ≤ l.collateral
  loops : l'.loops = l.loops + 1
  desires : l'.state.unloopProps.desiredCollateralWithdrawal = desired
  running : l'.state.unloopProps.runningCollateralAmount = l'.collateral

/-- What a round ends with: the withdrawal, nothing, or another round. -/
inductive RoundEnds (desired : Nat) (l : Ledger) : List Step → Prop where
  | withdraws (source : Ledger) : RoundEnds desired l [source.withdrawal desired]
  | nothing : RoundEnds desired l []
  | again (contract : Addr) (more : l.loops < loopMax) :
      RoundEnds desired l [.msg (.base (.unloopCDP contract desired))]

/-- An unloop that took what was desired out of the position: it needs a debt, and its record still
    counts what it took at last. -/
structure Freed (desired : Nat) (l l' : Ledger) : Prop where
  vaultTokens : l'.vaultTokens = l.vaultTokens + desired
  owing : l.loops = 0 → l.debt ≠ 0
  looped : l'.loops ≠ 0
  running : l'.state.unloopProps.runningCollateralAmount = l'.collateral + desired
  within : l'.collateral + desired ≤ l.collateral

/-- What an unloop does, of at most the rounds there are: it frees what is desired, or the vault
    tokens are as before. -/
structure Unlooped (desired : Nat) (l l' : Ledger) : Prop where
  kept : Kept l l'
  loops : l'.loops ≤ loopMax
  freed : l'.vaultTokens = l.vaultTokens ∨ Freed desired l l'

section Unloop

variable {w : World} {l mid l' : Ledger} {desired : Nat}

theorem round_spec {unloopProps : UnloopProps} {withdrawn fuel : Nat} {vault : Addr}
    {rest : List Step} (distinct : l.state.config.Distinct)
    (loopCount : unloopProps.loopCount = l.loops)
    (desires : unloopProps.desiredCollateralWithdrawal = desired)
    (running : unloopProps.runningCollateralAmount + withdrawn = l.collateral)
    (returned : (dispatch w.perform fuel ([l.withdrawal withdrawn,
        .msg (.base (.exitVault vault ⟨l.state.config.depositToken.vaultToken, withdrawn⟩)),
        .reply .exitVault] ++ rest)
      { l with state := { l.state with unloopProps := unloopProps } }).Returns l') :
    ∃ fuel' mid more, fuel' < fuel ∧ (dispatch w.perform fuel' (more ++ rest) mid).Returns l' ∧
      Rounded desired l mid ∧ RoundEnds desired mid more := by
  -- the collateral of the round is withdrawn and exits the Mars vault
  obtain ⟨fuel₁, l₁, _, rfl, hwithdraw, hrest⟩ := returns_dispatch_cons returned
  have hwithdrawn := withdrawal_carried hwithdraw
  rw [hwithdrawn.answers] at hrest
  obtain ⟨fuel₂, l₂, _, rfl, hexit, hrest⟩ := returns_dispatch_cons hrest
  have hconfig₁ : l₁.state.config = l.state.config := hwithdrawn.kept.config
  have hexited := exit_carried (hconfig₁ ▸ distinct)
    (congrArg (fun config => config.depositToken.vaultToken) hconfig₁.symm) hexit
  rw [hexited.answers] at hrest
  -- the deposit tokens are swapped for the debt token
  obtain ⟨fuel₃, l₃, _, rfl, hreply, hrest⟩ := returns_dispatch_cons hrest
  obtain ⟨rfl, proxy, amount, rfl⟩ := reply_exitVault_spec hreply
  obtain ⟨fuel₄, l₄, _, rfl, hswap, hrest⟩ := returns_dispatch_cons hrest
  have hdistinct : l₃.state.config.Distinct := hexited.kept.config ▸ hconfig₁ ▸ distinct
  have hswapped := swap_carried hdistinct.deposit hdistinct.cdt hswap
  rw [hswapped.answers] at hrest
  have hprops : l₄.state.unloopProps = unloopProps :=
    hswapped.unloopProps.trans (hexited.unloopProps.trans hwithdrawn.unloopProps)
  -- the debt is repaid
  obtain ⟨fuel₅, l₅, _, rfl, hreply, hrest⟩ := returns_dispatch_cons hrest
  cases reply_unloop_spec hreply with
  | @mk props more cdp positionId amount' loopCount' desires' running' goesOn =>
    obtain ⟨fuel₆, l₆, _, rfl, hrepay, hrest⟩ := returns_dispatch_cons hrest
    have hdistinct₄ : l₄.state.config.Distinct := hswapped.kept.config ▸ hdistinct
    have hrepaid := repay_carried hdistinct₄.cdt hrepay
    rw [hrepaid.answers] at hrest
    rw [hprops] at desires' running' goesOn
    have hloops₄ : l₄.loops = l.loops := (congrArg UnloopProps.loopCount hprops).trans loopCount
    have hloops : l₆.loops = l.loops + 1 := by
      rw [← hloops₄, ← loopCount']
      exact congrArg UnloopProps.loopCount hrepaid.unloopProps
    have hkept : Kept l l₆ := (Kept.of_unloopProps l unloopProps).trans <|
      hwithdrawn.kept.trans <| hexited.kept.trans <| hswapped.kept.trans <|
        (Kept.of_unloopProps l₄ props).trans hrepaid.kept
    have htokens : l₆.vaultTokens = l.vaultTokens := by
      have h₁ : l₁.vaultTokens + 0 = l.vaultTokens + withdrawn := hwithdrawn.vaultTokens
      have h₃ := hexited.vaultTokens
      have h₄ := hswapped.vaultTokens
      have h₆ : l₆.vaultTokens + 0 = l₄.vaultTokens + 0 := hrepaid.vaultTokens
      omega
    have hcollateral : l₆.collateral + withdrawn = l.collateral := by
      have h₁ : l₁.collateral + withdrawn = l.collateral := hwithdrawn.collateral
      have h₃ := hexited.collateral
      have h₄ := hswapped.collateral
      have h₆ : l₆.collateral + 0 = l₄.collateral := hrepaid.collateral
      omega
    have hrounded : Rounded desired l l₆ := by
      refine ⟨hkept, htokens, ?_, hloops, ?_, ?_⟩
      · omega
      · rw [hrepaid.unloopProps, ← desires]
        exact desires'
      · rw [hrepaid.unloopProps]
        show props.runningCollateralAmount = l₆.collateral
        omega
    refine ⟨fuel₆, l₆, more, by omega, hrest, hrounded, ?_⟩
    rw [desires] at goesOn
    rcases goesOn with rfl | rfl | ⟨hmore, rfl⟩
    · exact .withdraws l₄
    · exact .nothing
    · refine .again l₄.contract ?_
      rwa [hloops, ← hloops₄]

theorem freed_of_withdrawal {answers : List Step} (owing : l.loops = 0 → l.debt ≠ 0)
    (kept : Kept l mid) (vaultTokens : mid.vaultTokens = l.vaultTokens) (looped : mid.loops ≠ 0)
    (running : mid.state.unloopProps.runningCollateralAmount = mid.collateral)
    (within : mid.collateral ≤ l.collateral) (loops : mid.loops ≤ loopMax)
    (carried : Carried mid l' answers desired 0 desired) : Unlooped desired l l' := by
  have hprops := carried.unloopProps
  have htokens := carried.vaultTokens
  have hcollateral := carried.collateral
  have hloops : l'.loops = mid.loops := congrArg UnloopProps.loopCount hprops
  refine ⟨kept.trans carried.kept, hloops.trans_le loops, .inr ⟨?_, owing, ?_, ?_, ?_⟩⟩
  · omega
  · rwa [hloops]
  · rw [hprops, running, hcollateral]
  · omega

theorem Unlooped.after_round (owing : l.loops = 0 → l.debt ≠ 0) (rounded : Rounded desired l mid)
    (unlooped : Unlooped desired mid l') : Unlooped desired l l' := by
  have htokens := rounded.vaultTokens
  refine ⟨rounded.kept.trans unlooped.kept, unlooped.loops, ?_⟩
  rcases unlooped.freed with hsame | hfreed
  · exact .inl (hsame.trans htokens)
  · refine .inr ⟨hfreed.vaultTokens.trans (by rw [htokens]), owing, hfreed.looped,
      hfreed.running, ?_⟩
    exact Nat.le_trans hfreed.within rounded.collateral

theorem unloop_spec {rest : List Step} : ∀ {fuel : Nat} {contract : Addr} {l l' : Ledger},
    l.state.config.Distinct → l.Tracks desired → l.loops ≤ loopMax →
    (dispatch w.perform fuel (.msg (.base (.unloopCDP contract desired)) :: rest) l).Returns l' →
      ∃ fuel' mid, (dispatch w.perform fuel' rest mid).Returns l' ∧ Unlooped desired l mid := by
  intro fuel
  induction fuel using Nat.strong_induction_on with
  | _ fuel ih =>
    intro contract l l' distinct tracks loops returned
    obtain ⟨fuel₁, l₁, answers, rfl, hunloop, hrest⟩ := returns_dispatch_cons returned
    cases unloop_answered hunloop with
    | nothing => exact ⟨fuel₁, l, hrest, .refl l, loops, .inl rfl⟩
    | withdraws later =>
      obtain ⟨fuel₂, l₂, _, -, hwithdraw, hrest⟩ := returns_dispatch_cons hrest
      have hcarried := withdrawal_carried hwithdraw
      rw [hcarried.answers] at hrest
      exact ⟨fuel₂, l₂, hrest, freed_of_withdrawal (fun h => absurd h later) (.refl l) rfl later
        (tracks later).2 (Nat.le_refl _) loops hcarried⟩
    | swaps vault owing round loopCount follows =>
      obtain ⟨desires, running⟩ := follows tracks
      obtain ⟨fuel₂, mid, more, hfuel, hrest, hrounded, hends⟩ :=
        round_spec distinct loopCount desires running hrest
      have hloops : mid.loops ≤ loopMax := hrounded.loops.trans_le round
      have hlooped : mid.loops ≠ 0 := hrounded.loops.trans_ne (Nat.succ_ne_zero _)
      cases hends with
      | withdraws source =>
        obtain ⟨fuel₃, l₃, _, -, hwithdraw, hrest⟩ := returns_dispatch_cons hrest
        have hcarried := withdrawal_carried hwithdraw
        rw [hcarried.answers] at hrest
        exact ⟨fuel₃, l₃, hrest, freed_of_withdrawal owing hrounded.kept hrounded.vaultTokens
          hlooped hrounded.running hrounded.collateral hloops hcarried⟩
      | nothing =>
        exact ⟨fuel₂, mid, hrest, hrounded.kept, hloops, .inl hrounded.vaultTokens⟩
      | again contract =>
        obtain ⟨fuel₃, l₃, hrest, hunlooped⟩ := ih fuel₂ (Nat.lt_succ_of_lt hfuel)
          (hrounded.kept.config ▸ distinct) (fun _ => ⟨hrounded.desires, hrounded.running⟩)
          hloops hrest
        exact ⟨fuel₃, l₃, hrest, hunlooped.after_round owing hrounded⟩

end Unloop

/-! ## Every call ends -/

def Step.weight : Step → Nat
  | .msg (.base (.unloopCDP _ _)) => 8
  | .reply .exitVault => 5
  | .reply .loop => 4
  | .reply .unloop => 3
  | .reply .enterVault => 2
  | _ => 1

def weightOf (steps : List Step) : Nat := (steps.map Step.weight).sum

def messagesLeft (steps : List Step) (l : Ledger) : Nat :=
  weightOf steps + 7 * (loopMax - l.loops)

section Ending

variable {w : World} {l l' : Ledger} {answers : List Step}

theorem weight_pos (step : Step) : 0 < step.weight := by
  unfold Step.weight
  split <;> decide

theorem weightOf_append (steps steps' : List Step) :
    weightOf (steps ++ steps') = weightOf steps + weightOf steps' := by
  rw [weightOf, List.map_append, List.sum_append]
  rfl

theorem weightOf_cons (step : Step) (steps : List Step) :
    weightOf (step :: steps) = step.weight + weightOf steps := rfl

def Lowers (step : Step) (l l' : Ledger) (answers : List Step) : Prop :=
  messagesLeft answers l' < messagesLeft [step] l

theorem Lowers.of_quiet {step : Step} (silent : answers = [])
    (unloopProps : l'.state.unloopProps = l.state.unloopProps) : Lowers step l l' answers := by
  subst silent
  have hloops : l'.loops = l.loops := congrArg UnloopProps.loopCount unloopProps
  have hpos := weight_pos step
  rw [Lowers, messagesLeft, messagesLeft, weightOf_cons, hloops]
  show 0 + _ < _ + 0 + _
  omega

theorem unloop_weight {desired : Nat} (answered : Answered desired l l' answers) :
    weightOf answers ≤ 7 := by
  cases answered with
  | nothing => exact Nat.zero_le _
  | withdraws => exact Nat.le_of_ble_eq_true rfl
  | swaps => exact Nat.le_refl 7

theorem getCdpPositionInfo_weight {deps : LoopDeps} {env : Env} {config : Config}
    {position : CdpPositionInfo} (done : getCdpPositionInfo deps env config = .ok position) :
    weightOf ((position.msgs.map LoopSubMsg.new).flatMap LoopSubMsg.steps) ≤ 1 := by
  simp only [getCdpPositionInfo, bind_eq_ok] at done
  obtain ⟨_, -, _, -, _, -, _, -, _, -, _, -, _, -, hdone⟩ := done
  cases pure_eq_ok.mp hdone
  dsimp only
  split
  · exact Nat.le_refl 1
  · exact Nat.zero_le 1

theorem unloop_lowers {desired : Nat} {contract : Addr} (answered : Answered desired l l' answers) :
    Lowers (.msg (.base (.unloopCDP contract desired))) l l' answers := by
  have hweight := unloop_weight answered
  have hloops : l'.loops = l.loops := by
    cases answered with
    | nothing | withdraws => rfl
    | swaps vault owing round loopCount => exact loopCount
  rw [Lowers, messagesLeft, messagesLeft, hloops]
  show _ < 8 + 0 + _
  omega

theorem reply_lowers {id : ReplyId} (done : w.perform (.reply id) l = .ok (l', answers)) :
    Lowers (.reply id) l l' answers := by
  cases id with
  | enterVault =>
    simp only [World.perform, reply, handleEnterReply, bind_eq_ok, mapErr_eq_ok] at done
    obtain ⟨⟨s, msgs⟩, ⟨_, ⟨amounts, -, hmsgs⟩, hstate⟩, hdone⟩ := done
    cases pure_eq_ok.mp hstate
    cases pure_eq_ok.mp hdone
    cases pure_eq_ok.mp hmsgs
    split
    · exact Nat.add_lt_add_right (by decide : 1 < 2) _
    · exact .of_quiet rfl rfl
  | loop =>
    simp only [World.perform, reply, handleLoopReply, bind_eq_ok, mapErr_eq_ok] at done
    obtain ⟨⟨s, msgs⟩, ⟨_, ⟨_, -, _, -, amounts, -, _, -, hmsgs⟩, hstate⟩, hdone⟩ := done
    cases pure_eq_ok.mp hstate
    cases pure_eq_ok.mp hdone
    cases pure_eq_ok.mp hmsgs
    exact Nat.add_lt_add_right (by decide : 3 < 4) _
  | exitVault =>
    obtain ⟨rfl, proxy, amount, rfl⟩ := reply_exitVault_spec done
    exact Nat.add_lt_add_right (by decide : 4 < 5) _
  | unloop =>
    cases reply_unloop_spec done with
    | @mk props rest cdp positionId amount loopCount desires running goesOn =>
      rw [Lowers, messagesLeft, messagesLeft, weightOf_cons]
      show 1 + weightOf rest + 7 * (loopMax - props.loopCount) < 3 + 7 * (loopMax - l.loops)
      rw [loopCount]
      rcases goesOn with rfl | rfl | ⟨hmore, rfl⟩
      · show 1 + 1 + _ < _
        omega
      · show 1 + 0 + _ < _
        omega
      · show 1 + 8 + _ < _
        omega

theorem execute_quiet {deps : LoopDeps} {env : Env} {info : MessageInfo} {msg : ExecuteMsg}
    {s s' : State} {msgs : List LoopSubMsg}
    (quiet : msg = .rateAssurance ∨ msg = .postLoopMaintenance ∨ msg = .unloopMaintenance ∨
      msg = .updateNonleveragedVaultTokens)
    (done : execute deps env info msg s = .ok (s', msgs)) :
    msgs = [] ∧ ∃ total, s' = { s with config :=
      { s.config with totalNonleveragedVaultTokens := total } } := by
  rcases quiet with rfl | rfl | rfl | rfl
  · simp only [execute, rateAssurance, bind_eq_ok, liftFactory_eq_ok] at done
    obtain ⟨_, -, _, -, _, -, _, -, hdone⟩ := done
    cases pure_eq_ok.mp hdone
    exact ⟨rfl, _, rfl⟩
  · simp only [execute, postLoop, bind_eq_ok] at done
    obtain ⟨_, -, _, -, hdone⟩ := done
    cases pure_eq_ok.mp hdone
    exact ⟨rfl, _, rfl⟩
  · simp only [execute, postUnloop, bind_eq_ok, liftFactory_eq_ok] at done
    obtain ⟨_, -, _, -, _, -, _, -, _, -, _, -, hdone⟩ := done
    cases pure_eq_ok.mp hdone
    exact ⟨rfl, _, rfl⟩
  · simp only [execute, updateNonleveragedVaultTokens, bind_eq_ok] at done
    obtain ⟨_, -, balance, -, hdone⟩ := done
    split at hdone
    case isTrue =>
      obtain ⟨total, -, hdone⟩ := bind_eq_ok.mp hdone
      cases pure_eq_ok.mp hdone
      exact ⟨rfl, _, rfl⟩
    case isFalse =>
      cases pure_eq_ok.mp hdone
      exact ⟨rfl, _, rfl⟩

theorem callback_lowers {step : Step} {msg : ExecuteMsg}
    (quiet : msg = .rateAssurance ∨ msg = .postLoopMaintenance ∨ msg = .unloopMaintenance ∨
      msg = .updateNonleveragedVaultTokens)
    (done : w.callback msg l = .ok (l', answers)) : Lowers step l l' answers := by
  obtain ⟨s, msgs, hexecute, rfl, rfl⟩ := callback_spec done
  obtain ⟨rfl, total, rfl⟩ := execute_quiet quiet hexecute
  exact .of_quiet rfl rfl

theorem perform_lowers {step : Step} (done : w.perform step l = .ok (l', answers)) :
    Lowers step l l' answers := by
  cases step with
  | reply id => exact reply_lowers done
  | msg msg =>
    cases msg with
    | base msg =>
      cases msg with
      | burn =>
        simp only [World.perform, World.performBase, bind_eq_ok] at done
        obtain ⟨paid, hpaid, hdone⟩ := done
        obtain ⟨_, -, rfl⟩ := debit_eq_ok hpaid
        cases pure_eq_ok.mp hdone
        exact .of_quiet rfl rfl
      | send =>
        simp only [World.perform, World.performBase, bind_eq_ok] at done
        obtain ⟨paid, hpaid, hdone⟩ := done
        obtain ⟨_, -, rfl⟩ := debit_eq_ok hpaid
        cases pure_eq_ok.mp hdone
        exact .of_quiet rfl rfl
      | exitVault | deposit | repay =>
        simp only [World.perform, World.performBase, bind_eq_ok] at done
        obtain ⟨paid, hpaid, _, -, hdone⟩ := done
        obtain ⟨_, -, rfl⟩ := debit_eq_ok hpaid
        cases pure_eq_ok.mp hdone
        exact .of_quiet rfl rfl
      | withdraw cdp positionId assets =>
        simp only [World.perform, World.performBase] at done
        split at done
        case h_1 =>
          simp only [bind_eq_ok] at done
          obtain ⟨debt, -, _, -, hdone⟩ := done
          cases pure_eq_ok.mp hdone
          exact .of_quiet rfl rfl
        case h_2 => cases done
      | unloopCDP => exact unloop_lowers (unloop_answered done)
      | updateNonleveragedVaultTokens =>
        exact callback_lowers (.inr (.inr (.inr rfl))) done
      | rateAssurance => exact callback_lowers (.inl rfl) done
    | mint =>
      cases pure_eq_ok.mp done
      exact .of_quiet rfl rfl
    | enterVault | executeSwaps =>
      simp only [World.perform, bind_eq_ok] at done
      obtain ⟨paid, hpaid, _, -, hdone⟩ := done
      obtain ⟨_, -, rfl⟩ := debit_eq_ok hpaid
      cases pure_eq_ok.mp hdone
      exact .of_quiet rfl rfl
    | withdrawTo | increaseDebt =>
      simp only [World.perform, bind_eq_ok] at done
      obtain ⟨debt, -, hdone⟩ := done
      cases pure_eq_ok.mp hdone
      exact .of_quiet rfl rfl
    | postLoopMaintenance => exact callback_lowers (.inr (.inl rfl)) done

theorem dispatch_finished {steps : List Step} {fuel : Nat} (enough : messagesLeft steps l ≤ fuel) :
    (dispatch w.perform fuel steps l).Finished := by
  refine finished_dispatch ?_ ?_ enough
  · intro step rest l
    have hpos := weight_pos step
    rw [messagesLeft, weightOf_cons]
    omega
  · intro step rest l l' answers done
    have hlowers := perform_lowers done
    simp only [Lowers, messagesLeft, weightOf_cons, weightOf_append] at hlowers ⊢
    have hnil : weightOf [] = 0 := rfl
    omega

/-- What an exit writes and sends, of `vaultTokens` that redeem `withdrawn` deposit tokens, for
    which the Mars vault converts to `marsVaultTokens`. -/
structure ExitWrites (deps : Deps) (env : Env) (info : MessageInfo) (s s' : State) (msgs : List Msg)
    (vaultTokens withdrawn marsVaultTokens : Nat) : Prop where
  sent : sentVaultTokens s.config info = .ok vaultTokens
  redeems : ∃ total rate, getTotalDepositTokens deps env s.config = .ok total ∧
    calculateBaseTokens vaultTokens total s.vaultToken = .ok withdrawn ∧
    calculateBaseTokens rateUnit total s.vaultToken = .ok rate ∧ ∃ totalNonleveraged balance,
      totalNonleveraged + marsVaultTokens = s.config.totalNonleveragedVaultTokens ∧
      deps.balance env.contractAddress s.config.depositToken.vaultToken = .ok balance ∧
      s'.vaultToken + vaultTokens = s.vaultToken ∧
      s' = {
        config := { s.config with totalNonleveragedVaultTokens := totalNonleveraged }
        vaultToken := s'.vaultToken
        tokenRateAssurance := rate
        unloopProps := .reset } ∧
      msgs = [.burn env.contractAddress s.config.vaultToken vaultTokens env.contractAddress] ++
        (if marsVaultTokens - balance ≠ 0 then
          [.unloopCDP env.contractAddress (marsVaultTokens - balance)] else []) ++
        [.exitVault s.config.depositToken.vaultAddr
            ⟨s.config.depositToken.vaultToken, marsVaultTokens⟩,
          .send info.sender ⟨s.config.depositToken.depositToken, withdrawn - 1⟩,
          .updateNonleveragedVaultTokens env.contractAddress] ++
        if s'.vaultToken ≠ 0 ∧ withdrawn < total then [.rateAssurance env.contractAddress] else []
  converts : deps.depositTokenConversion s.config.depositToken.vaultAddr withdrawn =
    .ok marsVaultTokens
  positive : 1 ≤ withdrawn

theorem checkedSub_eq_some {a b c : Nat} (done : Uint128.checkedSub a b = some c) : c + b = a := by
  unfold Uint128.checkedSub at done
  split at done
  case isTrue hle =>
    cases done
    exact Nat.sub_add_cancel hle
  case isFalse => cases done

theorem exitVault_writes {deps : Deps} {env : Env} {info : MessageInfo} {s s' : State}
    {msgs : List Msg} (done : exitVault deps env info s = .ok (s', msgs)) :
    ∃ vaultTokens withdrawn marsVaultTokens,
      ExitWrites deps env info s s' msgs vaultTokens withdrawn marsVaultTokens := by
  simp only [exitVault, bind_eq_ok, liftStd_eq_ok, mapErr_eq_ok, ofExcept_eq_ok, ofOption_eq_ok,
    subUint_eq_ok] at done
  obtain ⟨vaultTokens, hsent, total, htotal, rate, hrate, withdrawn, hwithdrawn, supply, hsupply,
    marsVaultTokens, hconverts, totalNonleveraged, hnonleveraged, balance, hbalance, _,
    ⟨hpositive, rfl⟩, hdone⟩ := done
  cases pure_eq_ok.mp hdone
  refine ⟨vaultTokens, withdrawn, marsVaultTokens, hsent, ⟨total, rate, htotal, hwithdrawn, hrate,
    totalNonleveraged, balance, checkedSub_eq_some hnonleveraged, hbalance,
    checkedSub_eq_some hsupply, rfl, rfl⟩, hconverts, hpositive⟩

theorem execute_within {info : MessageInfo} {msg : ExecuteMsg} {s : State} {msgs : List LoopSubMsg}
    (done : execute (w.deps l) (World.env l) info msg l.state = .ok (s, msgs)) :
    weightOf (msgs.flatMap LoopSubMsg.steps) ≤ 13 := by
  cases msg with
  | enterVault =>
    simp only [execute, enterVault, bind_eq_ok, liftFactory_eq_ok] at done
    obtain ⟨_, -, _, -, _, -, _, -, _, -, _, -, _, -, _, -, hdone⟩ := done
    cases pure_eq_ok.mp hdone
    split <;> exact Nat.le_of_ble_eq_true rfl
  | exitVault =>
    simp only [execute, bind_eq_ok, liftFactory_eq_ok] at done
    obtain ⟨⟨s', msgs'⟩, hexit, hdone⟩ := done
    cases pure_eq_ok.mp hdone
    obtain ⟨_, _, _, hwrites⟩ := exitVault_writes hexit
    obtain ⟨_, _, -, -, -, _, _, -, -, -, -, rfl⟩ := hwrites.redeems
    split <;> split <;> exact Nat.le_of_ble_eq_true rfl
  | unloopCDP desired =>
    exact Nat.le_trans (unloop_weight (unloopCdp_answered done)) (by decide)
  | loopCDP =>
    simp only [execute, loopCdp, bind_eq_ok, liftFactory_eq_ok, liftStd_eq_ok] at done
    obtain ⟨_, -, _, -, position, hposition, _, -, _, -, _, -, _, -, hdone⟩ := done
    cases pure_eq_ok.mp hdone
    rw [List.flatMap_append, weightOf_append]
    exact Nat.add_le_add (getCdpPositionInfo_weight hposition) (Nat.le_of_ble_eq_true rfl : _ ≤ 12)
  | rateAssurance | postLoopMaintenance | unloopMaintenance | updateNonleveragedVaultTokens =>
    obtain ⟨rfl, -⟩ := execute_quiet (by simp) done
    decide

theorem transact_finished (w : World) (info : MessageInfo) (msg : ExecuteMsg) (l : Ledger) :
    (w.transact info msg l).Finished := by
  refine finished_bind (finished_lift _) fun result returned => ?_
  refine dispatch_finished ?_
  have hwithin := execute_within (mapErr_eq_ok.mp (returns_lift.mp returned))
  have hrounds : loopMax - result.1.unloopProps.loopCount ≤ 5 := Nat.sub_le _ _
  show weightOf _ + 7 * (loopMax - result.1.unloopProps.loopCount) ≤ 64
  omega

end Ending

/-! ## Withdrawals -/

def World.rateOf (w : World) (l : Ledger) : Outcome StdError Nat := do
  let totalDepositTokens ← getTotalDepositTokens (w.deps l).toDeps (World.env l) l.state.config
  calculateBaseTokens rateUnit totalDepositTokens l.state.vaultToken

/-- The recorded total of vault tokens that are not leveraged, as a withdrawal leaves it: what the
    last unloop left, or less those withdrawn where it left a debt. -/
def Ledger.recordedTotal (l : Ledger) (total : Nat) : Nat :=
  if l.state.unloopProps.runningCreditAmount = 0 then
    l.state.unloopProps.runningCollateralAmount + l.vaultTokens
  else total

/-- A withdrawal that succeeded: `vaultTokens` were burned, for which `withdrawn` deposit tokens
    less one are paid, and the Mars vault converts to `marsVaultTokens`. These are taken out of the
    buffer. Where it is short of them the position is unlooped, which frees exactly what is missing.
    Where vault tokens are left, their rate is as before. -/
structure Settled (w : World) (info : MessageInfo) (l l' : Ledger)
    (vaultTokens withdrawn marsVaultTokens : Nat) : Prop where
  sent : sentVaultTokens l.state.config info = .ok vaultTokens
  redeems : ∃ total,
    getTotalDepositTokens (w.deps (World.receive info l)).toDeps (World.env l) l.state.config =
      .ok total ∧
    calculateBaseTokens vaultTokens total l.state.vaultToken = .ok withdrawn
  converts : w.depositTokenConversion (World.receive info l) withdrawn = .ok marsVaultTokens
  supply : l'.state.vaultToken + vaultTokens = l.state.vaultToken
  burned : l'.burned = l.burned + vaultTokens
  paid : l'.sent = l.sent.credit (info.sender, l.state.config.depositToken.depositToken)
    (withdrawn - 1)
  held : l'.vaultTokens = l.vaultTokens - marsVaultTokens
  recorded : l'.state.config.totalNonleveragedVaultTokens =
    l'.recordedTotal (l.state.config.totalNonleveragedVaultTokens - marsVaultTokens)
  buffered : marsVaultTokens ≤ l.vaultTokens → l'.collateral = l.collateral ∧ l'.debt = l.debt ∧
    l'.state.unloopProps = .reset ∧ l'.state.config.totalNonleveragedVaultTokens = l'.vaultTokens
  rate : l'.state.vaultToken ≠ 0 → w.rateOf l' = w.rateOf (World.receive info l)
  unlooped : l.vaultTokens < marsVaultTokens → l.debt ≠ 0 ∧ 1 ≤ l'.loops ∧ l'.loops ≤ loopMax ∧
    l'.state.unloopProps.runningCollateralAmount =
      l'.collateral + (marsVaultTokens - l.vaultTokens) ∧
    l'.state.unloopProps.runningCollateralAmount ≤ l.collateral

section Exit

variable {w : World} {l l' : Ledger} {answers : List Step}

theorem burn_spec {sender burnFrom : Addr} {denom : String} {amount : Nat}
    (other : l.state.config.depositToken.vaultToken ≠ denom)
    (done : w.perform (.msg (.base (.burn sender denom amount burnFrom))) l = .ok (l', answers)) :
    answers = [] ∧ ∃ balances, l' = { l with balances := balances, burned := l.burned + amount } ∧
      l'.vaultTokens = l.vaultTokens := by
  simp only [World.perform, World.performBase, bind_eq_ok] at done
  obtain ⟨paid, hpaid, hdone⟩ := done
  have htokens := vaultTokens_debit hpaid
  rw [if_neg other] at htokens
  obtain ⟨balances, -, rfl⟩ := debit_eq_ok hpaid
  cases pure_eq_ok.mp hdone
  exact ⟨rfl, balances, rfl, htokens⟩

theorem send_spec {toAddress : Addr} {coin : Coin}
    (other : l.state.config.depositToken.vaultToken ≠ coin.denom)
    (done : w.perform (.msg (.base (.send toAddress coin))) l = .ok (l', answers)) :
    answers = [] ∧ ∃ balances, l' = { l with
        balances := balances
        sent := l.sent.credit (toAddress, coin.denom) coin.amount } ∧
      l'.vaultTokens = l.vaultTokens := by
  simp only [World.perform, World.performBase, bind_eq_ok] at done
  obtain ⟨paid, hpaid, hdone⟩ := done
  have htokens := vaultTokens_debit hpaid
  rw [if_neg other] at htokens
  obtain ⟨balances, -, rfl⟩ := debit_eq_ok hpaid
  cases pure_eq_ok.mp hdone
  exact ⟨rfl, balances, rfl, htokens⟩

theorem exit_debt {vault : Addr} {funds : Coin}
    (done : w.perform (.msg (.base (.exitVault vault funds))) l = .ok (l', answers)) :
    l'.debt = l.debt := by
  simp only [World.perform, World.performBase, bind_eq_ok] at done
  obtain ⟨paid, hpaid, received, -, hdone⟩ := done
  obtain ⟨_, -, rfl⟩ := debit_eq_ok hpaid
  cases pure_eq_ok.mp hdone
  rfl

theorem updateNonleveraged_spec {contract : Addr}
    (done : w.perform (.msg (.base (.updateNonleveragedVaultTokens contract))) l =
      .ok (l', answers)) :
    answers = [] ∧ l' = { l with state := { l.state with config := { l.state.config with
      totalNonleveragedVaultTokens :=
        l.recordedTotal l.state.config.totalNonleveragedVaultTokens } } } := by
  obtain ⟨s, msgs, hexecute, rfl, rfl⟩ := callback_spec done
  simp only [execute, updateNonleveragedVaultTokens, bind_eq_ok, liftFactory_eq_ok, liftStd_eq_ok,
    ofExcept_eq_ok] at hexecute
  obtain ⟨_, -, balance, hbalance, hdone⟩ := hexecute
  cases hbalance
  unfold Ledger.recordedTotal
  split at hdone
  case isTrue hclear =>
    obtain ⟨total, htotal, hdone⟩ := bind_eq_ok.mp hdone
    obtain ⟨-, rfl⟩ := Uint128.add_eq_ok.mp htotal
    cases pure_eq_ok.mp hdone
    rw [if_pos hclear]
    exact ⟨rfl, rfl⟩
  case isFalse howes =>
    cases pure_eq_ok.mp hdone
    rw [if_neg howes]
    exact ⟨rfl, rfl⟩

theorem rateAssurance_spec {contract : Addr}
    (done : w.perform (.msg (.base (.rateAssurance contract))) l = .ok (l', answers)) :
    answers = [] ∧ l' = l ∧ w.rateOf l = .ok l.state.tokenRateAssurance := by
  obtain ⟨s, msgs, hexecute, rfl, rfl⟩ := callback_spec done
  simp only [execute, rateAssurance, bind_eq_ok, liftFactory_eq_ok, liftStd_eq_ok,
    guardErr_eq_ok, not_not] at hexecute
  obtain ⟨_, -, total, htotal, rate, hrate, _, rfl, hdone⟩ := hexecute
  cases pure_eq_ok.mp hdone
  exact ⟨rfl, rfl, bind_eq_ok.mpr ⟨total, htotal, hrate⟩⟩

/-- What the last messages of a withdrawal do: the deposit tokens are redeemed and paid, and the
    total is recorded. -/
structure PaidOut (marsVaultTokens : Nat) (payment : Addr × String) (payout : Nat) (l l' : Ledger) :
    Prop where
  vaultTokens : l'.vaultTokens + marsVaultTokens = l.vaultTokens
  position : l'.collateral = l.collateral ∧ l'.debt = l.debt
  state : l'.state = { l.state with config := { l.state.config with
    totalNonleveragedVaultTokens := l'.recordedTotal l.state.config.totalNonleveragedVaultTokens } }
  burned : l'.burned = l.burned
  sent : l'.sent = l.sent.credit payment payout

theorem paidOut_spec {vault contract toAddress : Addr} {marsVaultTokens payout fuel : Nat}
    {rest : List Step} (distinct : l.state.config.Distinct)
    (returned : (dispatch w.perform fuel ([
        .msg (.base (.exitVault vault ⟨l.state.config.depositToken.vaultToken, marsVaultTokens⟩)),
        .msg (.base (.send toAddress ⟨l.state.config.depositToken.depositToken, payout⟩)),
        .msg (.base (.updateNonleveragedVaultTokens contract))] ++ rest) l).Returns l') :
    ∃ fuel' mid, (dispatch w.perform fuel' rest mid).Returns l' ∧
      PaidOut marsVaultTokens (toAddress,
        l.state.config.depositToken.depositToken) payout l mid := by
  obtain ⟨fuel₁, l₁, _, -, hexit, hrest⟩ := returns_dispatch_cons returned
  have hexited := exit_carried distinct rfl hexit
  rw [hexited.answers] at hrest
  obtain ⟨fuel₂, l₂, _, -, hsend, hrest⟩ := returns_dispatch_cons hrest
  have hconfig : l₁.state.config = l.state.config := hexited.kept.config
  have hother : l₁.state.config.depositToken.vaultToken ≠
      l.state.config.depositToken.depositToken := hconfig ▸ distinct.deposit
  obtain ⟨rfl, balances, rfl, htokens⟩ := send_spec hother hsend
  obtain ⟨fuel₃, l₃, _, -, hupdate, hrest⟩ := returns_dispatch_cons hrest
  obtain ⟨rfl, rfl⟩ := updateNonleveraged_spec hupdate
  have hdebt : l₁.debt = l.debt := exit_debt hexit
  refine ⟨fuel₃, _, hrest, ?_, ⟨hexited.collateral, hdebt⟩, ?_, hexited.kept.burned, ?_⟩
  · have hleft := hexited.vaultTokens
    show Ledger.vaultTokens { l₁ with balances := balances, sent := _ } + _ = _
    omega
  · rw [← hexited.state]
    rfl
  · show l₁.sent.credit _ _ = _
    rw [hexited.kept.sent]

theorem receive_exit {info : MessageInfo} {vaultTokens : Nat} (distinct : l.state.config.Distinct)
    (sent : sentVaultTokens l.state.config info = .ok vaultTokens) :
    ∃ balances coins, World.receive info l = { l with balances := balances, received := coins } ∧
      (World.receive info l).vaultTokens = l.vaultTokens := by
  unfold sentVaultTokens at sent
  split at sent
  case h_1 coin hfunds =>
    simp only [bind_eq_ok, guardErr_eq_ok, not_not] at sent
    obtain ⟨_, hdenom, -⟩ := sent
    rw [World.receive, hfunds]
    refine ⟨_, _, rfl, ?_⟩
    show (l.credit coin).vaultTokens = _
    rw [vaultTokens_credit, hdenom, if_neg distinct.vault]
    rfl
  case h_2 => cases sent

theorem withdrawn_lt {vaultTokens total supply left withdrawn : Nat} (positive : 1 ≤ withdrawn)
    (supplied : left + vaultTokens = supply) (leaves : left ≠ 0)
    (redeems : calculateBaseTokens vaultTokens total supply = .ok withdrawn) :
    withdrawn < total := by
  have hsome : supply ≠ 0 := by omega
  obtain ⟨-, rfl⟩ := (MarsVault.calculateBaseTokens_eq_ok hsome).mp redeems
  have hle := PoolShares.redeemed_mul_le vaultTokens total supply
  generalize PoolShares.redeemed vaultTokens total supply = paid at *
  by_contra hall
  have hlt : vaultTokens < supply := by omega
  have hless : total * vaultTokens < paid * supply :=
    Nat.lt_of_le_of_lt (Nat.mul_le_mul_right _ (Nat.le_of_not_lt hall))
      (Nat.mul_lt_mul_of_pos_left hlt positive)
  exact Nat.not_lt_of_le hle hless

theorem receive_state (info : MessageInfo) (l : Ledger) :
    (World.receive info l).state = l.state := by
  have hkept : ∀ (coins : List Coin) (l : Ledger), (coins.foldl Ledger.receiveCoin l).state =
      l.state := by
    intro coins
    induction coins with
    | nil => exact fun _ => rfl
    | cons coin rest ih => exact fun l => ih (l.receiveCoin coin)
  exact hkept info.funds l

theorem unloops_if_short {vaultTokens marsVaultTokens fuel : Nat} {contract : Addr}
    {rest : List Step} (distinct : l.state.config.Distinct) (first : l.loops = 0)
    (returned : (dispatch w.perform fuel
        (.msg (.base (.burn contract l.state.config.vaultToken vaultTokens contract)) ::
          ((if marsVaultTokens - l.vaultTokens ≠ 0 then
            [.msg (.base (.unloopCDP contract (marsVaultTokens - l.vaultTokens)))] else []) ++
              rest))
        l).Returns l') :
    ∃ fuel' balances mid, (dispatch w.perform fuel' rest mid).Returns l' ∧
      Kept { l with balances := balances, burned := l.burned + vaultTokens } mid ∧
      (marsVaultTokens ≤ l.vaultTokens ∧ mid.vaultTokens = l.vaultTokens ∧
          mid.collateral = l.collateral ∧ mid.debt = l.debt ∧
          mid.state.unloopProps = l.state.unloopProps ∨
        l.vaultTokens < marsVaultTokens ∧
          Unlooped (marsVaultTokens - l.vaultTokens)
            { l with balances := balances, burned := l.burned + vaultTokens } mid ∧
          Ledger.vaultTokens { l with balances := balances, burned := l.burned + vaultTokens } =
            l.vaultTokens) := by
  obtain ⟨fuel₁, l₁, _, -, hburn, hrest⟩ := returns_dispatch_cons returned
  obtain ⟨rfl, balances, rfl, htokens⟩ := burn_spec distinct.vault hburn
  by_cases hshort : marsVaultTokens - l.vaultTokens ≠ 0
  · rw [if_pos hshort] at hrest
    obtain ⟨fuel₂, mid, hrest, hunlooped⟩ :=
      unloop_spec (l := { l with balances := balances, burned := l.burned + vaultTokens })
        distinct (fun later => absurd first later) (first.trans_le (Nat.zero_le _)) hrest
    exact ⟨fuel₂, balances, mid, hrest, hunlooped.kept, .inr ⟨by omega, hunlooped, htokens⟩⟩
  · rw [if_neg hshort] at hrest
    exact ⟨fuel₁, balances, _, hrest, .refl _, .inl ⟨by omega, htokens, rfl, rfl, rfl⟩⟩

theorem rate_checked {fuel : Nat} {contract : Addr} {checked : Prop} [Decidable checked]
    (returned : (dispatch w.perform fuel
      (if checked then [.msg (.base (.rateAssurance contract))] else []) l).Returns l') :
    l' = l ∧ (checked → w.rateOf l = .ok l.state.tokenRateAssurance) := by
  split at returned
  case isTrue =>
    obtain ⟨fuel₁, l₁, _, -, hassure, hrest⟩ := returns_dispatch_cons returned
    obtain ⟨rfl, rfl, hrate⟩ := rateAssurance_spec hassure
    rw [List.nil_append, dispatch_nil] at hrest
    exact ⟨(returns_pure.mp hrest).symm, fun _ => hrate⟩
  case isFalse hunchecked =>
    rw [dispatch_nil] at returned
    exact ⟨(returns_pure.mp returned).symm, fun h => absurd h hunchecked⟩

theorem settled_of_returns {info : MessageInfo} (distinct : l.state.config.Distinct)
    (returned : (w.transact info .exitVault l).Returns l') :
    ∃ vaultTokens withdrawn marsVaultTokens,
      Settled w info l l' vaultTokens withdrawn marsVaultTokens := by
  obtain ⟨⟨s, msgs⟩, hlift, hrest⟩ := returns_bind.mp returned
  have hexecute := mapErr_eq_ok.mp (returns_lift.mp hlift)
  simp only [execute, bind_eq_ok, liftFactory_eq_ok] at hexecute
  obtain ⟨⟨s', msgs'⟩, hexit, hdone⟩ := hexecute
  cases pure_eq_ok.mp hdone
  obtain ⟨vaultTokens, withdrawn, marsVaultTokens, hwrites⟩ := exitVault_writes hexit
  have hsent := hwrites.sent
  rw [receive_state] at hsent
  obtain ⟨received, coins, hreceive, htokens⟩ := receive_exit distinct hsent
  obtain ⟨total, rate, htotal, hwithdrawn, hrate, totalNonleveraged, balance,
    hnonleveraged, hbalance,
    hsupply, hstate, rfl⟩ := hwrites.redeems
  rw [receive_state] at htotal hwithdrawn hrate hnonleveraged hsupply hstate
  have hheld : balance = l.vaultTokens := by
    rw [← htokens]
    exact (Except.ok.inj hbalance).symm
  subst hheld
  -- the ledger that the messages start from
  rw [hreceive] at hrest
  generalize hstart : ({ { l with balances := received, received := coins } with state := s' } :
    Ledger) = start at hrest
  have hstartState : start.state = s' := by rw [← hstart]
  have hstartConfig : start.state.config =
      { l.state.config with totalNonleveragedVaultTokens := totalNonleveraged } := by
    rw [hstartState, hstate]
  have hstartTokens : start.vaultTokens = l.vaultTokens := by
    rw [← htokens, hreceive, Ledger.vaultTokens, hstartConfig, ← hstart]
    rfl
  have hdistinct : start.state.config.Distinct := by
    rw [hstartConfig]
    exact ⟨distinct.deposit, distinct.cdt, distinct.vault⟩
  have hfirst : start.loops = 0 := by
    rw [Ledger.loops, hstartState, hstate]
    rfl
  have hmsgs : (dispatch w.perform World.callFuel
      (.msg (.base (.burn l.contract start.state.config.vaultToken vaultTokens l.contract)) ::
        ((if marsVaultTokens - start.vaultTokens ≠ 0 then
          [.msg (.base (.unloopCDP l.contract (marsVaultTokens - start.vaultTokens)))] else []) ++
        ([.msg (.base (.exitVault l.state.config.depositToken.vaultAddr
            ⟨l.state.config.depositToken.vaultToken, marsVaultTokens⟩)),
          .msg (.base (.send info.sender
            ⟨l.state.config.depositToken.depositToken, withdrawn - 1⟩)),
          .msg (.base (.updateNonleveragedVaultTokens l.contract))] ++
        if s'.vaultToken ≠ 0 ∧ withdrawn < total then
          [.msg (.base (.rateAssurance l.contract))] else []))) start).Returns l' := by
    rw [hstartTokens, hstartConfig]
    convert hrest using 2
    · split <;> split <;> rfl
    · exact hstart.symm
  obtain ⟨fuel₁, balances, mid, hrest, hkept, hmid⟩ := unloops_if_short hdistinct hfirst hmsgs
  have hmidConfig : mid.state.config = start.state.config := hkept.config
  have hmidDistinct : mid.state.config.Distinct := hmidConfig ▸ hdistinct
  have hdenoms : mid.state.config.depositToken = l.state.config.depositToken := by
    rw [hmidConfig, hstartConfig]
  rw [← hdenoms] at hrest
  obtain ⟨fuel₂, last, hrest, hpaid⟩ := paidOut_spec hmidDistinct hrest
  obtain ⟨rfl, hchecked⟩ := rate_checked hrest
  -- what the last messages and the unloop leave, in terms of the ledger before the call
  have henv : World.env (World.receive info l) = World.env l := by
    rw [hreceive]
    rfl
  rw [henv] at htotal
  have hsupplied : l'.state.vaultToken = s'.vaultToken := by
    rw [hpaid.state, ← hstartState]
    exact hkept.supply
  have hassured : l'.state.tokenRateAssurance = rate := by
    rw [hpaid.state]
    refine hkept.rate.trans ?_
    show start.state.tokenRateAssurance = rate
    rw [hstartState, hstate]
  have hprops : l'.state.unloopProps = mid.state.unloopProps := by rw [hpaid.state]
  have hrecorded : l'.state.config.totalNonleveragedVaultTokens =
      l'.recordedTotal (l.state.config.totalNonleveragedVaultTokens - marsVaultTokens) := by
    rw [hpaid.state]
    show l'.recordedTotal mid.state.config.totalNonleveragedVaultTokens = _
    rw [hmidConfig, hstartConfig, ← hnonleveraged, Nat.add_sub_cancel]
  have hleft := hpaid.vaultTokens
  obtain ⟨hcollateral, hdebt⟩ := hpaid.position
  have hstartCollateral : start.collateral = l.collateral := by rw [← hstart]
  have hstartDebt : start.debt = l.debt := by rw [← hstart]
  rw [hstartTokens] at hmid
  refine ⟨vaultTokens, withdrawn, marsVaultTokens, {
    sent := hsent
    redeems := ⟨total, htotal, hwithdrawn⟩
    converts := hwrites.converts
    supply := ?supply
    burned := ?burned
    paid := ?paid
    held := ?held
    recorded := hrecorded
    rate := ?rate
    buffered := ?buffered
    unlooped := ?unlooped }⟩
  case supply => rw [hsupplied, hsupply]
  case burned =>
    rw [hpaid.burned, hkept.burned, ← hstart]
  case paid =>
    rw [hpaid.sent, hkept.sent, hdenoms, ← hstart]
  case held =>
    rcases hmid with ⟨hcovered, htokens, -⟩ | ⟨hshort, hunlooped, htokens⟩
    · omega
    · rcases hunlooped.freed with hsame | hfreed
      · omega
      · have hgained := hfreed.vaultTokens
        omega
  case rate =>
    intro hsome
    rw [hsupplied] at hsome
    rw [hchecked ⟨hsome, withdrawn_lt hwrites.positive hsupply hsome hwithdrawn⟩, hassured]
    refine (bind_eq_ok.mpr ⟨total, ?_, ?_⟩).symm
    · rw [henv, receive_state]
      exact htotal
    · rw [receive_state]
      exact hrate
  case buffered =>
    intro hcovered
    rcases hmid with ⟨-, -, hcollateral', hdebt', hprops'⟩ | ⟨hshort, -⟩
    · have hreset : l'.state.unloopProps = .reset := by
        rw [hprops, hprops', hstartState, hstate]
      refine ⟨by omega, by omega, hreset, ?_⟩
      rw [hrecorded, Ledger.recordedTotal, hreset]
      exact Nat.zero_add _
    · exact absurd hcovered (Nat.not_le_of_lt hshort)
  case unlooped =>
    intro hshort
    rcases hmid with ⟨hcovered, -⟩ | ⟨-, hunlooped, htokens⟩
    · exact absurd hcovered (Nat.not_le_of_lt hshort)
    · rcases hunlooped.freed with hsame | hfreed
      · omega
      · have howing : l.debt ≠ 0 := hstartDebt ▸ hfreed.owing hfirst
        have hloops : l'.loops = mid.loops := congrArg UnloopProps.loopCount hprops
        have hrunning := hfreed.running
        have hwithin : mid.collateral + (marsVaultTokens - l.vaultTokens) ≤ start.collateral :=
          hfreed.within
        refine ⟨howing, ?_, ?_, ?_, ?_⟩
        · rw [hloops]
          exact Nat.pos_of_ne_zero hfreed.looped
        · rw [hloops]
          exact hunlooped.loops
        · rw [hprops, hrunning, hcollateral]
        · rw [hprops, hrunning]
          omega

/-- A withdrawal ends, and one that is not undone is settled. -/
theorem exit_settled (w : World) (info : MessageInfo) (l : Ledger)
    (distinct : l.state.config.Distinct) :
    (w.transact info .exitVault l).Finished ∧ ∀ l', (w.transact info .exitVault l).Returns l' →
      ∃ vaultTokens withdrawn marsVaultTokens,
        Settled w info l l' vaultTokens withdrawn marsVaultTokens :=
  ⟨transact_finished w info .exitVault l, fun _ returned => settled_of_returns distinct returned⟩

end Exit

/-! ## A withdrawal on a sample chain -/

/-- Other contracts that pay one for one, at prices of one. -/
def evenWorld : World where
  creditPrice _ := .ok ⟨Decimal.one, 6⟩
  price _ _ _ _ := .ok [⟨Decimal.one, 6⟩]
  prices _ _ _ _ := .ok [⟨Decimal.one, 6⟩, ⟨Decimal.one, 6⟩]
  vaultTokenUnderlying _ amount := .ok amount
  depositTokenConversion _ amount := .ok amount
  planted _ := []
  marsEnter _ amount := some amount
  marsExit _ amount := some amount
  swap _ funds _ := some funds.amount
  deposit l _ := some l.debt
  withdraw l _ := some l.debt
  increaseDebt l amount := some (l.debt + amount)
  repay l amount := some (l.debt - amount, amount - l.debt)

/-- A vault that owes 3000 for a collateral of 10000, with a buffer of 100. -/
def sampleLedger : Ledger where
  contract := "earn"
  state := {
    config := { sampleConfig 7100000000 with swapSlippage := Decimal.zero }
    vaultToken := 7100000000000000
    tokenRateAssurance := 0
    unloopProps := .reset }
  balances := (∅ : Accounts String).credit "factory/mars/vt" 100000000
  collateral := 10000000000
  debt := 3000000000
  received := ∅
  sent := ∅
  minted := 0
  burned := 0
  issued := 0
  redeemed := 0

theorem sampleLedger_distinct : sampleLedger.state.config.Distinct :=
  ⟨by decide, by decide, by decide⟩

theorem sampleExit_positive : 0 < 500000000000000 := by decide

def sampleExit : MessageInfo := sampleSent 500000000000000 sampleExit_positive

/-- The position is unlooped once: its debt is paid, and 400 of its collateral are withdrawn. -/
theorem exit_settled_unlooped : ∃ l' vaultTokens withdrawn marsVaultTokens,
    (evenWorld.transact sampleExit .exitVault sampleLedger).Returns l' ∧
      Settled evenWorld sampleExit sampleLedger l' vaultTokens withdrawn marsVaultTokens ∧
      (l'.loops, l'.collateral, l'.debt) = (1, 6600000000, 0) := by
  have hlast : (evenWorld.transact sampleExit .exitVault sampleLedger).value.map
      (fun l' => (l'.loops, l'.collateral, l'.debt)) = some (1, 6600000000, 0) := by decide +kernel
  obtain ⟨l', hvalue, hleft⟩ := Option.map_eq_some_iff.mp hlast
  have hreturned := value_eq_some.mp hvalue
  obtain ⟨vaultTokens, withdrawn, marsVaultTokens, hsettled⟩ :=
    (exit_settled evenWorld sampleExit sampleLedger sampleLedger_distinct).2 l' hreturned
  exact ⟨l', vaultTokens, withdrawn, marsVaultTokens, hreturned, hsettled, hleft⟩

end Membrane.StableEarn
