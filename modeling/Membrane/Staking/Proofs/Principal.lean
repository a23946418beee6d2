import Membrane.Staking.Proofs.Totals

/-!
# The principal of a staker

What a user's deposits hold, staked or unstaking, falls only by what the user's own unstakes
withdraw, and that has matured. No message of anybody else lowers it, and none but the user's own
unstakes and restakes moves any of it into or out of unstaking.
-/

namespace Membrane.Staking

open Outcome

section Held

variable {deposits deposits' : List StakeDeposit}

@[simp] theorem heldIn_nil : heldIn [] = 0 := rfl

@[simp] theorem heldIn_cons {deposit : StakeDeposit} :
    heldIn (deposit :: deposits) = deposit.amount + heldIn deposits := rfl

@[simp] theorem heldIn_append :
    heldIn (deposits ++ deposits') = heldIn deposits + heldIn deposits' := by
  simp [heldIn]

theorem heldIn_split (deposits : List StakeDeposit) :
    heldIn deposits = stakedIn deposits + heldIn (unstakingOf deposits) := by
  induction deposits with
  | nil => rfl
  | cons deposit rest ih =>
    by_cases hstaked : deposit.unstakeStartTime = none
    · have hunstaking : unstakingOf (deposit :: rest) = unstakingOf rest := by
        simp [unstakingOf, hstaked]
      rw [heldIn_cons, stakedIn_cons_staked hstaked, hunstaking, ih]
      omega
    · have hunstaking : unstakingOf (deposit :: rest) = deposit :: unstakingOf rest := by
        simp [unstakingOf, Option.isSome_iff_ne_none, hstaked]
      rw [heldIn_cons, stakedIn_cons_unstaking hstaked, hunstaking, heldIn_cons, ih]
      omega

theorem unstakingOf_append : unstakingOf (deposits ++ deposits') =
    unstakingOf deposits ++ unstakingOf deposits' := List.filter_append _ _

end Held

/-! ## What a message leaves as it was -/

/-- The unstaking deposits of a user are as they were, and no less is staked. -/
structure Untouched (user : Addr) (s s' : State) : Prop where
  unstaking : unstakingOf (s'.depositsOf user) = unstakingOf (s.depositsOf user)
  staked : stakedIn (s.depositsOf user) ≤ stakedIn (s'.depositsOf user)

namespace Untouched

variable {s s' s'' : State} {user : Addr}

theorem refl (user : Addr) (s : State) : Untouched user s s := ⟨rfl, Nat.le_refl _⟩

theorem trans (first : Untouched user s s') (second : Untouched user s' s'') :
    Untouched user s s'' :=
  ⟨second.unstaking.trans first.unstaking, first.staked.trans second.staked⟩

theorem of_deposits (same : s'.depositsOf user = s.depositsOf user) : Untouched user s s' := by
  constructor
  · rw [same]
  · rw [same]

theorem of_sameStake (same : SameStake s s') : Untouched user s s' :=
  of_deposits (depositsOf_of_staked same.staked)

theorem held (untouched : Untouched user s s') :
    heldIn (s.depositsOf user) ≤ heldIn (s'.depositsOf user) := by
  have hstaked := untouched.staked
  rw [heldIn_split (s.depositsOf user), heldIn_split (s'.depositsOf user), untouched.unstaking]
  omega

end Untouched

section Messages

variable {s s' : State} {deps : Deps} {env : Env} {info : MessageInfo} {user sender : Addr}

theorem Claimed.untouched (claimed : Claimed env sender s s') : Untouched user s s' := by
  by_cases hsame : user = sender
  · subst hsame
    rcases claimed.depositsOf_self with ⟨hempty, hnone⟩ | ⟨-, hcondensed⟩
    · exact .of_deposits (hnone.trans hempty.symm)
    · constructor
      · have hunstaking : unstakingOf (unstakingOf (s.depositsOf user)) =
            unstakingOf (s.depositsOf user) := by
          rw [unstakingOf, unstakingOf, List.filter_filter]
          simp only [Bool.and_self]
        rw [hcondensed, condensed, unstakingOf_append, hunstaking]
        exact List.append_nil _
      · rw [hcondensed, stakedIn_condensed]
  · exact .of_deposits (claimed.depositsOf_ne hsame)

theorem addStakingDeposit_untouched {config : Config} {amount : Nat}
    (done : addStakingDeposit env config sender amount s = .ok s') : Untouched user s s' := by
  obtain rfl := addStakingDeposit_spec done
  by_cases hsame : user = sender
  · subst hsame
    have hdeposits : State.depositsOf { s.saveStaked user
          (s.depositsOf user ++ [⟨user, amount, env.blockTime, none, none⟩]) with
        stakingTotals := s.stakingTotals.plus config.vestingContract user amount } user =
        s.depositsOf user ++ [⟨user, amount, env.blockTime, none, none⟩] := depositsOf_save_same
    constructor
    · rw [hdeposits, unstakingOf_append]
      exact List.append_nil _
    · rw [hdeposits, stakedIn_append]
      exact Nat.le_add_right _ _
  · exact .of_deposits (depositsOf_save_ne hsame)

theorem createRewardsMsgs_untouched (user : Addr) {config : Config} {claims : List Asset}
    {interest : Nat}
    {coins : List Coin} {msgs : List (CosmosMsg OutMsg)}
    (done : createRewardsMsgs deps env config claims interest sender coins s = .ok (s', msgs)) :
    Untouched user s s' := by
  obtain ⟨mid, hsame, -, rfl | ⟨amount, hadd⟩⟩ := createRewardsMsgs_spec done
  · exact .of_sameStake hsame
  · exact (Untouched.of_sameStake hsame).trans (addStakingDeposit_untouched hadd)

theorem ClaimedAndSent.untouched {recipient : Addr}
    (claimed : ClaimedAndSent deps env sender recipient s s') : Untouched user s s' := by
  obtain ⟨mid, claims, interest, sent, msgs, hclaim, hpay⟩ := claimed
  exact (getUserClaimables_claimed hclaim).untouched.trans (createRewardsMsgs_untouched user hpay)

theorem unstake_others {request : Option Nat} {msgs : List (CosmosMsg OutMsg)}
    (ne : user ≠ info.sender) (done : unstake deps env info request s = .ok (s', msgs)) :
    Untouched user s s' := by
  obtain ⟨amount, withdrawable, interest, claims, coins, withdrawn, undelegated, paid, totals,
    -, hwithdraw, -, hsame, hpay, -, rfl⟩ := unstake_spec done
  obtain ⟨mid, unstaking, hclaim, -, -, rfl⟩ := withdrawFromState_spec hwithdraw
  have hwithdrawn : Untouched user s (mid.saveStaked info.sender (unstaking ++
      (unstakedFrom env.blockTime (amount - withdrawable) (s.depositsOf info.sender)).left)) :=
    (getUserClaimables_claimed hclaim).untouched.trans (.of_deposits (depositsOf_save_ne ne))
  refine (hwithdrawn.trans (.of_sameStake hsame)).trans
    ((createRewardsMsgs_untouched user hpay).trans (.of_deposits ?_))
  exact depositsOf_of_staked rfl

theorem restake_others {amount : Nat} {msgs : List (CosmosMsg OutMsg)} (ne : user ≠ info.sender)
    (done : restake deps env info amount s = .ok (s', msgs)) : Untouched user s s' := by
  obtain ⟨mid, claims, interest, restaked, left, hclaim, -, hpay⟩ := restake_spec done
  have hsaved : Untouched user s (mid.saveStaked info.sender restaked) :=
    (getUserClaimables_claimed hclaim).untouched.trans (.of_deposits (depositsOf_save_ne ne))
  refine (hsaved.trans (.of_deposits (depositsOf_of_staked ?_))).trans
    (createRewardsMsgs_untouched user hpay)
  rfl

theorem restakeDeposits_held (blockTime : Nat) :
    ∀ (deposits : List StakeDeposit) (acc : List StakeDeposit × Nat),
    heldIn (deposits.foldl (restakeDeposit blockTime) acc).1 = heldIn acc.1 + heldIn deposits := by
  intro deposits
  induction deposits with
  | nil =>
    intro acc
    rfl
  | cons deposit rest ih =>
    intro acc
    have hone : heldIn (restakeDeposit blockTime acc deposit).1 = heldIn acc.1 +
        deposit.amount := by
      unfold restakeDeposit
      split
      · simp
      · simp
    rw [List.foldl_cons, ih, hone, heldIn_cons]
    omega

theorem restake_held {amount : Nat} {msgs : List (CosmosMsg OutMsg)}
    (done : restake deps env info amount s = .ok (s', msgs)) :
    heldIn (s.depositsOf info.sender) ≤ heldIn (s'.depositsOf info.sender) := by
  obtain ⟨mid, claims, interest, restaked, left, hclaim, hloop, hpay⟩ := restake_spec done
  have hheld := restakeDeposits_held env.blockTime (s.depositsOf info.sender) ([], amount)
  rw [hloop] at hheld
  have hsaved : (mid.saveStaked info.sender restaked).depositsOf info.sender = restaked :=
    depositsOf_save_same
  have hpaid := (createRewardsMsgs_untouched info.sender hpay).held
  have hsame : heldIn (State.depositsOf { mid.saveStaked info.sender restaked with
      stakingTotals := { mid.stakingTotals with
        stakers := mid.stakingTotals.stakers + (amount - left) } } info.sender) =
      heldIn restaked := congrArg heldIn hsaved
  rw [hsame] at hpaid
  dsimp only [heldIn_nil] at hheld
  omega

theorem unstake_held {request : Option Nat} {msgs : List (CosmosMsg OutMsg)}
    (done : unstake deps env info request s = .ok (s', msgs)) :
    heldIn (s.depositsOf info.sender) ≤ heldIn (s'.depositsOf info.sender) +
      maturedIn s.config env.blockTime (s.depositsOf info.sender) := by
  obtain ⟨amount, withdrawable, interest, claims, coins, withdrawn, undelegated, paid, totals,
    -, hwithdraw, hheld, hsame, hpay, -, rfl⟩ := unstake_spec done
  have hmatured := withdrawFromState_matured hwithdraw
  have hpaid := ((Untouched.of_sameStake hsame).trans
    (createRewardsMsgs_untouched info.sender hpay)).held
  have hsave : heldIn (State.depositsOf { paid with stakingTotals := totals } info.sender) =
      heldIn (paid.depositsOf info.sender) := rfl
  rw [hsave]
  omega

theorem createRewardsMsgs_sends {config : Config} {claims : List Asset} {interest : Nat}
    {coins : List Coin} {msgs : List (CosmosMsg OutMsg)} {coin : Coin}
    (done : createRewardsMsgs deps env config claims interest sender coins s = .ok (s', msgs))
    (mem : coin ∈ coins) (positive : coin.amount ≠ 0)
    (held : ∀ balances, deps.allBalances env.contractAddress = .ok balances →
      ∃ balance ∈ balances, balance.denom = coin.denom) :
    ∃ sent, .bankSend sender sent ∈ msgs ∧ coin ∈ sent := by
  simp only [createRewardsMsgs, bind_eq_ok] at done
  obtain ⟨_, -, _, -, ⟨mid, accrued, native⟩, hbooked, ⟨after, minted⟩, -, hrest⟩ := done
  have hnative : coin ∈ native := by
    split at hbooked
    · rw [bind_eq_ok] at hbooked
      obtain ⟨_, -, hbooked⟩ := hbooked
      obtain ⟨-, hbooked⟩ := Prod.mk.inj (pure_eq_ok.mp hbooked)
      obtain ⟨-, rfl⟩ := Prod.mk.inj hbooked
      exact List.mem_append_left _ (List.mem_append_left _ mem)
    · obtain ⟨-, hbooked⟩ := Prod.mk.inj (pure_eq_ok.mp hbooked)
      obtain ⟨-, rfl⟩ := Prod.mk.inj hbooked
      exact List.mem_append_left _ mem
  dsimp only at hrest
  rw [if_neg (List.ne_nil_of_mem hnative)] at hrest
  simp only [bind_eq_ok] at hrest
  obtain ⟨balances, hbalances, hrest⟩ := hrest
  obtain ⟨balance, hbalance, hdenom⟩ := held balances (ofExcept_eq_ok.mp hbalances)
  have hsent : coin ∈ sendable balances native := by
    refine List.mem_filter.mpr ⟨?_, ?_⟩
    · rw [List.mem_insertionSort]
      exact List.mem_filter.mpr ⟨hnative, by simpa using positive⟩
    · rw [List.find?_isSome]
      exact ⟨balance, hbalance, by simpa using hdenom⟩
  rw [if_neg (List.ne_nil_of_mem hsent)] at hrest
  obtain ⟨-, rfl⟩ := Prod.mk.inj (pure_eq_ok.mp hrest)
  exact ⟨_, List.mem_append_right _ (List.mem_singleton_self _), hsent⟩

theorem unstake_sends {request : Option Nat} {msgs : List (CosmosMsg OutMsg)}
    (done : unstake deps env info request s = .ok (s', msgs))
    (matured : maturedIn s.config env.blockTime (s.depositsOf info.sender) ≠ 0)
    (held : ∀ balances, deps.allBalances env.contractAddress = .ok balances →
      ∃ balance ∈ balances, balance.denom = s.config.mbrnDenom) :
    ∃ sent, .bankSend info.sender sent ∈ msgs ∧
      ⟨s.config.mbrnDenom, maturedIn s.config env.blockTime (s.depositsOf info.sender)⟩ ∈ sent := by
  simp only [unstake, bind_eq_ok, liftStd_eq_ok] at done
  obtain ⟨_, -, _, -, _, -, ⟨withdrawn, claims, interest, withdrawable⟩, hwithdraw, _, -,
    _, -, _, -,
    _, -, ⟨undelegated, coins⟩, hundelegate, ⟨paid, sent⟩, hpay, _, -, hsave⟩ := done
  obtain ⟨-, rfl⟩ := Prod.mk.inj (pure_eq_ok.mp hsave)
  obtain rfl := withdrawFromState_matured hwithdraw
  dsimp only at hundelegate
  rw [if_pos matured, bind_eq_ok] at hundelegate
  obtain ⟨_, -, hundelegate⟩ := hundelegate
  obtain ⟨-, rfl⟩ := Prod.mk.inj (pure_eq_ok.mp hundelegate)
  exact createRewardsMsgs_sends hpay (List.mem_singleton_self _) matured held

end Messages

/-! ## Runs -/

/-- Whether a message is an unstake or a restake of a user. -/
def Call.MovesStake (user : Addr) (call : Call) : Prop :=
  call.info.sender = user ∧
    match call.msg with
    | .unstake _ => True
    | .restake _ => True
    | _ => False

/-- What an unstake of a user withdraws: what has matured of the user's deposits. -/
def Call.withdraws (user : Addr) (s : State) (call : Call) : Nat :=
  match call.msg with
  | .unstake _ =>
    if call.info.sender = user then maturedIn s.config call.env.blockTime (s.depositsOf user) else 0
  | _ => 0

/-- A step beside what a user has withdrawn so far. -/
def WithdrawingSteps (user : Addr) (p : State × Nat) (call : Call) (p' : State × Nat) : Prop :=
  Steps p.1 call p'.1 ∧ p'.2 = p.2 + call.withdraws user p.1

section Runs

variable {s s' : State} {call : Call} {user : Addr}

theorem steps_untouched (keeps : ¬ call.MovesStake user) (step : Steps s call s') :
    Untouched user s s' := by
  obtain ⟨deps, env, info, msg⟩ := call
  obtain ⟨msgs, done⟩ := steps_iff.mp step
  cases msg with
  | updateConfig update =>
    obtain ⟨hstaked, -, -, -⟩ := updateConfig_spec done
    exact .of_deposits (depositsOf_of_staked hstaked)
  | stake recipient =>
    obtain ⟨staker, amount, hadd⟩ := stake_spec done
    exact addStakingDeposit_untouched hadd
  | unstake request => exact unstake_others (fun same => keeps ⟨same.symm, trivial⟩) done
  | restake amount => exact restake_others (fun same => keeps ⟨same.symm, trivial⟩) done
  | claimRewards sendTo restake =>
    obtain ⟨recipient, hclaimed⟩ := claimRewards_spec done
    exact hclaimed.untouched
  | updateDelegations update =>
    obtain ⟨mid, ⟨rfl, -⟩ | hclaimed, hsame⟩ := executeUpdateDelegations_spec done
    · exact .of_sameStake hsame
    · exact hclaimed.untouched.trans (.of_sameStake hsame)
  | delegateFluidDelegations governatorAddr amount =>
    obtain ⟨mid, hclaimed, hsame⟩ := delegateFluidDelegations_spec done
    exact hclaimed.untouched.trans (.of_sameStake hsame)
  | depositFee =>
    obtain ⟨totals, events, -, rfl⟩ := executeDepositFee_spec done
    exact .of_deposits (depositsOf_of_staked rfl)
  | trimFeeEvents =>
    obtain ⟨events, rfl⟩ := trimFeeEvents_spec done
    exact .of_deposits (depositsOf_of_staked rfl)

theorem withdraws_sent {msgs : List (CosmosMsg OutMsg)}
    (done : execute call.deps call.env call.info call.msg s = .ok (s', msgs))
    (withdraws : call.withdraws user s ≠ 0)
    (held : ∀ balances, call.deps.allBalances call.env.contractAddress = .ok balances →
      ∃ balance ∈ balances, balance.denom = s.config.mbrnDenom) :
    ∃ sent, .bankSend user sent ∈ msgs ∧ ⟨s.config.mbrnDenom, call.withdraws user s⟩ ∈ sent := by
  obtain ⟨deps, env, info, msg⟩ := call
  cases msg with
  | unstake request =>
    dsimp only [Call.withdraws] at withdraws ⊢
    by_cases hsame : info.sender = user
    · subst hsame
      rw [if_pos rfl] at withdraws ⊢
      exact unstake_sends done withdraws held
    · rw [if_neg hsame] at withdraws
      exact absurd rfl withdraws
  | _ => exact absurd rfl withdraws

theorem steps_held (user : Addr) (step : Steps s call s') :
    heldIn (s.depositsOf user) ≤ heldIn (s'.depositsOf user) + call.withdraws user s := by
  by_cases hmoves : call.MovesStake user
  · obtain ⟨deps, env, info, msg⟩ := call
    obtain ⟨rfl, hmsg⟩ := hmoves
    obtain ⟨msgs, done⟩ := steps_iff.mp step
    cases msg with
    | unstake request =>
      dsimp only [Call.withdraws]
      rw [if_pos rfl]
      exact unstake_held done
    | restake amount => exact restake_held done
    | _ => exact hmsg.elim
  · exact (steps_untouched hmoves step).held.trans (Nat.le_add_right _ _)

/-- In every run, whoever sends what, a user's principal is still there or was withdrawn by the
    user's own unstakes after it had matured. -/
theorem principal_kept {start : State} {withdrawn : Nat}
    (run : RunWhere (WithdrawingSteps user) (fun _ _ => True) (start, 0) (s, withdrawn)) :
    heldIn (start.depositsOf user) ≤ heldIn (s.depositsOf user) + withdrawn := by
  have hkeeps : ∀ (p : State × Nat) (call : Call) (p' : State × Nat),
      heldIn (start.depositsOf user) ≤ heldIn (p.1.depositsOf user) + p.2 → True →
      WithdrawingSteps user p call p' →
      heldIn (start.depositsOf user) ≤ heldIn (p'.1.depositsOf user) + p'.2 := by
    intro p call p' hkept _ hstep
    have hone := steps_held user hstep.1
    have hcounted := hstep.2
    omega
  exact RunWhere.keeps hkeeps run (Nat.le_add_right _ _)

/-- In every run without an unstake or a restake of a user, the user's unstaking deposits are as
    they were and no less is staked. -/
theorem stake_untouched {start : State}
    (run : RunWhere Steps (fun _ call => ¬ call.MovesStake user) start s) :
    unstakingOf (s.depositsOf user) = unstakingOf (start.depositsOf user) ∧
      stakedIn (start.depositsOf user) ≤ stakedIn (s.depositsOf user) := by
  have hkeeps : ∀ (mid : State) (call : Call) (s' : State), Untouched user start mid →
      ¬ call.MovesStake user → Steps mid call s' → Untouched user start s' :=
    fun _ _ _ untouched keeps step => untouched.trans (steps_untouched keeps step)
  have huntouched := RunWhere.keeps hkeeps run (.refl user start)
  exact ⟨huntouched.unstaking, huntouched.staked⟩

end Runs

def sampleUnstaking : List Call :=
  [sampleStake 10 "ann", sampleCall 86410 "ann" (.unstake (some 500000))]

def sampleMatured : List Call :=
  [sampleStake 432020 "bob", sampleCall 432030 "ann" (.unstake (some 500000))]

/-- A step with what it withdraws. -/
def Call.execWithdrawing (user : Addr) (p : State × Nat) (call : Call) : Option (State × Nat) :=
  (Call.exec p.1 call).map fun s => (s, p.2 + call.withdraws user p.1)

theorem execWithdrawing_steps {user : Addr} {p p' : State × Nat} {call : Call}
    (done : Call.execWithdrawing user p call = some p') : WithdrawingSteps user p call p' := by
  obtain ⟨s, hstep, rfl⟩ := Option.map_eq_some_iff.mp done
  exact ⟨hstep, rfl⟩

/-- On the sample chain what is withdrawn after it matured is missing, and nothing else. -/
theorem principal_kept_matured :
    ∃ start s, execAll Call.exec sampleUnstaking sampleStart = some start ∧
      execAll (Call.execWithdrawing "ann") sampleMatured (start, 0) = some (s, 500000) ∧
      heldIn (start.depositsOf "ann") = 2000493 ∧ heldIn (s.depositsOf "ann") = 1501972 ∧
      heldIn (start.depositsOf "ann") ≤ heldIn (s.depositsOf "ann") + 500000 := by
  have hreads : ((execAll Call.exec sampleUnstaking sampleStart).bind fun start =>
      (execAll (Call.execWithdrawing "ann") sampleMatured (start, 0)).map fun p =>
        (heldIn (start.depositsOf "ann"), heldIn (p.1.depositsOf "ann"), p.2)) =
      some (2000493, 1501972, 500000) := by
    decide +kernel
  simp only [Option.bind_eq_some_iff, Option.map_eq_some_iff, Prod.mk.injEq] at hreads
  obtain ⟨start, hstart, ⟨s, withdrawn⟩, hrun, hheld, hleft, rfl⟩ := hreads
  have hsteps : RunWhere (WithdrawingSteps "ann") (fun _ _ => True) (start, 0) (s, 500000) := by
    refine execAll_run ?_ (fun _ _ _ => trivial) hrun
    exact fun _ _ _ h => execWithdrawing_steps h
  exact ⟨start, s, hstart, hrun, hheld, hleft, principal_kept hsteps⟩

def sampleOthers : List Call :=
  [sampleStake 86420 "bob", sampleCall 172820 "bob" (.unstake none),
    sampleCall 172830 "bob" (.restake 2000000), sampleCall 172840 "ann" (.claimRewards none false)]

/-- On the sample chain they leave the part that is unstaking as it was. -/
theorem stake_untouched_others :
    ∃ start s, execAll Call.exec sampleUnstaking sampleStart = some start ∧
      execAll Call.exec sampleOthers start = some s ∧
      heldIn (unstakingOf (start.depositsOf "ann")) = 500000 ∧
      unstakingOf (s.depositsOf "ann") = unstakingOf (start.depositsOf "ann") ∧
      stakedIn (start.depositsOf "ann") ≤ stakedIn (s.depositsOf "ann") := by
  have hreads : ((execAll Call.exec sampleUnstaking sampleStart).bind fun start =>
      (execAll Call.exec sampleOthers start).map fun _ =>
        heldIn (unstakingOf (start.depositsOf "ann"))) = some 500000 := by
    decide +kernel
  simp only [Option.bind_eq_some_iff, Option.map_eq_some_iff] at hreads
  obtain ⟨start, hstart, s, hrun, hheld⟩ := hreads
  have hallowed : ∀ call ∈ sampleOthers, ∀ _ : State, ¬ call.MovesStake "ann" := by
    intro call mem _ hmoves
    simp only [sampleOthers, List.mem_cons, List.not_mem_nil, or_false] at mem
    rcases mem with rfl | rfl | rfl | rfl
    · exact hmoves.2
    · exact absurd hmoves.1 (by decide)
    · exact absurd hmoves.1 (by decide)
    · exact hmoves.2
  exact ⟨start, s, hstart, hrun, hheld,
    stake_untouched (execAll_run (fun _ _ _ h => h) hallowed hrun)⟩

end Membrane.Staking
