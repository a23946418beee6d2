import Membrane.Lib.Run
import Membrane.Lib.Traverse
import Membrane.StabilityPool.Proofs.Handlers

/-!
# Runs of the stability pool

Any calls by anyone, at times that do not decrease. The total of incentives stays within
its maximum as long as no change of the configuration lowers the maximum below it, and
the deposits stay in time as long as each withdrawal clears the deposits that are
unstaking. Then no computation of incentives underflows, and otherwise one does.
-/

namespace Membrane.StabilityPool

open Outcome

/-- The contract and the time of its last call. -/
structure Ledger where
  state : State
  now : Nat

/-- A call that succeeds, not earlier than the last one. -/
def Ledger.exec (l : Ledger) (call : Call) : Option Ledger :=
  if l.now ≤ call.env.blockTime then
    match execute call.addrValid call.env call.info call.msg l.state with
    | .ok (s, _) => some ⟨s, call.env.blockTime⟩
    | .error _ => none
  else none

def Ledger.step (l : Ledger) (call : Call) (l' : Ledger) : Prop := l.exec call = some l'

/-- The ledgers that allowed calls reach after the contract was instantiated. -/
def Reached (allowed : Ledger → Call → Prop) (l : Ledger) : Prop :=
  ∃ addrValid info msg s now, instantiate addrValid info msg = .ok s ∧
    RunWhere Ledger.step allowed ⟨s, now⟩ l

/-- A change of the configuration does not lower the maximum below what has been accrued. -/
def KeepsCap (l : Ledger) (call : Call) : Prop :=
  match call.msg with
  | .updateConfig update => ∀ new ∈ update.maxIncentives, l.state.incentives ≤ new
  | _ => True

/-- A withdrawal leaves no deposit of its sender that began to unstake in an earlier second,
    unless there is no unstaking period. -/
def ClearsUnstaking (l : Ledger) (call : Call) : Prop :=
  match call.msg with
  | .withdraw amount => l.state.config.unstakingPeriod = 0 ∨
      clearsUnstaking call.env.blockTime l.state.config ⟨amount * Decimal.fractional⟩
        (l.state.asset.deposits.filter fun deposit => deposit.user = call.info.sender) = true
  | _ => True

instance keepsCapDecidable (l : Ledger) (call : Call) : Decidable (KeepsCap l call) := by
  unfold KeepsCap
  split <;> infer_instance

instance clearsUnstakingDecidable (l : Ledger) (call : Call) :
    Decidable (ClearsUnstaking l call) := by
  unfold ClearsUnstaking
  split <;> infer_instance

/-! ## One call -/

section

variable {l l' : Ledger} {call : Call}

theorem step_spec (step : l.step call l') :
    l.now ≤ call.env.blockTime ∧ l'.now = call.env.blockTime ∧
      ∃ msgs, execute call.addrValid call.env call.info call.msg l.state =
        .ok (l'.state, msgs) := by
  unfold Ledger.step Ledger.exec at step
  split at step
  case isTrue later =>
    split at step
    case h_1 s msgs hexecute =>
      obtain rfl := Option.some.inj step
      exact ⟨later, rfl, msgs, hexecute⟩
    case h_2 => cases step
  case isFalse => cases step

/-- What any call keeps, and when a change of the configuration and a withdrawal do. -/
structure Called (l l' : Ledger) (call : Call) : Prop where
  past : l'.state.Past l'.now
  capped : l.state.Capped → (l'.state.Capped ↔ KeepsCap l call)
  inTime : l.state.InTime → (l'.state.InTime ↔ ClearsUnstaking l call)

theorem Called.of_keeps (notUpdate : ∀ update, call.msg ≠ .updateConfig update)
    (notWithdraw : ∀ amount, call.msg ≠ .withdraw amount) (past : l.state.Past call.env.blockTime)
    (now : l'.now = call.env.blockTime) (keeps : Keeps call.env.blockTime l.state l'.state) :
    Called l l' call := by
  have hkeepsCap : KeepsCap l call := by
    unfold KeepsCap
    split
    case h_1 update hmsg => exact absurd hmsg (notUpdate update)
    case h_2 => trivial
  have hclears : ClearsUnstaking l call := by
    unfold ClearsUnstaking
    split
    case h_1 amount hmsg => exact absurd hmsg (notWithdraw amount)
    case h_2 => trivial
  refine ⟨?_, ?_, ?_⟩
  · rw [now]
    exact keeps.past past
  · intro capped
    exact iff_of_true (keeps.capped capped) hkeepsCap
  · intro inTime
    exact iff_of_true (keeps.inTime inTime) hclears

theorem Called.of_update {update : UpdateConfig} {msgs : List (CosmosMsg OutMsg)}
    (msg : call.msg = .updateConfig update) (past : l.state.Past call.env.blockTime)
    (now : l'.now = call.env.blockTime)
    (done : updateConfig call.addrValid call.info update l.state = .ok (l'.state, msgs)) :
    Called l l' call := by
  obtain ⟨hasset, hincentives, hmax⟩ := updateConfig_spec done
  refine ⟨?_, ?_, ?_⟩
  · rw [now, State.Past, hasset]
    exact past
  · intro capped
    have hle : l.state.incentives ≤ l.state.config.maxIncentives := capped
    rw [State.Capped, KeepsCap, msg, hincentives, hmax]
    cases hupdate : update.maxIncentives with
    | none => simpa [hupdate] using hle
    | some new => simp [hupdate]
  · intro inTime
    rw [State.InTime, ClearsUnstaking, msg, hasset]
    exact iff_of_true inTime trivial

theorem Called.of_withdraw {amount : Nat} {msgs : List (CosmosMsg OutMsg)}
    (msg : call.msg = .withdraw amount) (past : l.state.Past call.env.blockTime)
    (now : l'.now = call.env.blockTime)
    (done : withdraw call.env.blockTime call.info amount l.state = .ok (l'.state, msgs)) :
    Called l l' call := by
  obtain ⟨hcapped, hpast, hinTime⟩ := withdraw_spec past done
  refine ⟨?_, ?_, ?_⟩
  · rw [now]
    exact hpast
  · intro capped
    rw [KeepsCap, msg]
    exact iff_of_true (hcapped capped) trivial
  · intro inTime
    rw [ClearsUnstaking, msg]
    exact hinTime inTime

theorem step_called (past : l.state.Past l.now) (step : l.step call l') : Called l l' call := by
  obtain ⟨hlater, hnow, msgs, hexecute⟩ := step_spec step
  have hpast := past.later hlater
  cases hmsg : call.msg with
  | updateConfig update =>
    rw [hmsg] at hexecute
    exact .of_update hmsg hpast hnow hexecute
  | withdraw amount =>
    rw [hmsg] at hexecute
    exact .of_withdraw hmsg hpast hnow hexecute
  | deposit user =>
    rw [hmsg] at hexecute
    exact .of_keeps (by simp [hmsg]) (by simp [hmsg]) hpast hnow (executeDeposit_keeps hexecute)
  | restake restakeAmount =>
    rw [hmsg] at hexecute
    exact .of_keeps (by simp [hmsg]) (by simp [hmsg]) hpast hnow (restake_keeps hexecute)
  | claimRewards =>
    rw [hmsg] at hexecute
    exact .of_keeps (by simp [hmsg]) (by simp [hmsg]) hpast hnow (claim_keeps hexecute)
  | liquidate liqAmount =>
    rw [hmsg] at hexecute
    exact .of_keeps (by simp [hmsg]) (by simp [hmsg]) hpast hnow (liquidate_keeps hexecute)
  | distribute assets ratios distributeFor =>
    rw [hmsg] at hexecute
    exact .of_keeps (by simp [hmsg]) (by simp [hmsg]) hpast hnow (distributeFunds_keeps hexecute)
  | repay userInfo repayment =>
    rw [hmsg] at hexecute
    exact .of_keeps (by simp [hmsg]) (by simp [hmsg]) hpast hnow (repay_keeps hpast hexecute)

end

/-! ## Runs -/

theorem instantiate_spec {addrValid : String → Bool} {info : MessageInfo} {msg : InstantiateMsg}
    {s : State} (done : instantiate addrValid info msg = .ok s) :
    s.asset.deposits = [] ∧ s.incentives = 0 := by
  simp only [instantiate, bind_eq_ok, pure_eq_ok] at done
  obtain ⟨_, -, _, -, _, -, _, -, rfl⟩ := done
  exact ⟨rfl, rfl⟩

section

variable {allowed : Ledger → Call → Prop} {l : Ledger}

theorem Reached.induction (reached : Reached allowed l) (Inv : Ledger → Prop)
    (start : ∀ l : Ledger, l.state.asset.deposits = [] → l.state.incentives = 0 → Inv l)
    (keeps : ∀ l call l', Inv l → allowed l call → l.step call l' → Inv l') : Inv l := by
  obtain ⟨addrValid, info, msg, s, now, hinstantiate, hrun⟩ := reached
  obtain ⟨hdeposits, hincentives⟩ := instantiate_spec hinstantiate
  apply hrun.keeps keeps
  exact start _ hdeposits hincentives

theorem Reached.past (reached : Reached allowed l) : l.state.Past l.now := by
  apply reached.induction fun l => l.state.Past l.now
  · intro l hdeposits _ deposit mem
    rw [hdeposits] at mem
    cases mem
  · intro l call l' past _ hstep
    exact (step_called past hstep).past

theorem Reached.capped (reached : Reached allowed l)
    (keepsCap : ∀ l call, allowed l call → KeepsCap l call) : l.state.Capped := by
  have hboth : l.state.Past l.now ∧ l.state.Capped := by
    apply reached.induction fun l => l.state.Past l.now ∧ l.state.Capped
    · intro l hdeposits hincentives
      rw [State.Past, hdeposits, State.Capped, hincentives]
      exact ⟨List.forall_mem_nil _, Nat.zero_le _⟩
    · rintro l call l' ⟨past, capped⟩ hallowed hstep
      have hcalled := step_called past hstep
      exact ⟨hcalled.past, (hcalled.capped capped).mpr (keepsCap l call hallowed)⟩
  exact hboth.2

theorem Reached.inTime (reached : Reached allowed l)
    (clears : ∀ l call, allowed l call → ClearsUnstaking l call) : l.state.InTime := by
  have hboth : l.state.Past l.now ∧ l.state.InTime := by
    apply reached.induction fun l => l.state.Past l.now ∧ l.state.InTime
    · intro l hdeposits _
      rw [State.Past, State.InTime, hdeposits]
      exact ⟨List.forall_mem_nil _, List.forall_mem_nil _⟩
    · rintro l call l' ⟨past, inTime⟩ hallowed hstep
      have hcalled := step_called past hstep
      exact ⟨hcalled.past, (hcalled.inTime inTime).mpr (clears l call hallowed)⟩
  exact hboth.2

end

/-! ## Where the conditions are not met -/

section

variable {blockTime : Nat} {user : Addr} {s : State}

theorem getUserIncentives_over (exceeded : s.config.maxIncentives < s.incentives)
    (result : Nat × State) : getUserIncentives blockTime user s ≠ .ok result := by
  intro done
  simp only [getUserIncentives, bind_eq_ok] at done
  obtain ⟨⟨_, error, _⟩, -, hrest⟩ := done
  cases error with
  | some error => cases hrest
  | none =>
    obtain ⟨capped, hcap, -⟩ := bind_eq_ok.mp hrest
    exact capIncentives_over exceeded capped hcap

theorem elapsed_fails {deposit : Deposit} (late : ¬ InTime deposit) (elapsed : Nat) :
    (subUint (earnsUntil blockTime deposit) deposit.lastAccrued : Outcome StdError Nat) ≠
      .ok elapsed := by
  intro done
  obtain ⟨hle, -⟩ := subUint_eq_ok.mp done
  refine late fun unstakeTime hunstake => ?_
  rw [earnsUntil, hunstake] at hle
  exact hle

theorem late_fails {deposit : Deposit} (mem : deposit ∈ s.asset.deposits)
    (late : ¬ InTime deposit) :
    (∀ result, getUserIncentives blockTime deposit.user s ≠ .ok result) ∧
      ∀ total, queryUserIncentives blockTime deposit.user s ≠ .ok total := by
  constructor
  · intro result done
    obtain ⟨loop, hloop, -⟩ := bind_eq_ok.mp done
    refine foldlM_fails ?_ mem _ _ hloop
    intro acc acc' hround
    rw [addUserIncentives, if_pos rfl] at hround
    obtain ⟨elapsed, helapsed, -⟩ := bind_eq_ok.mp hround
    exact elapsed_fails late elapsed helapsed
  · intro total done
    refine foldlM_fails ?_ (List.mem_filter.mpr ⟨mem, by simp⟩) _ _ done
    intro acc acc' hround
    obtain ⟨elapsed, helapsed, -⟩ := bind_eq_ok.mp hround
    exact elapsed_fails late elapsed helapsed

end

end Membrane.StabilityPool
