import Membrane.Lib.Run
import Membrane.Lib.Traverse
import Membrane.Staking.Contract

/-!
# What a claim changes

A claim of a user's rewards condenses the user's staked deposits into one that is paid until
now, books the commission of the user's delegates and changes nothing else of the stake. The
payment adds the interest as a deposit, if there is any.
-/

namespace Membrane.Staking

open Outcome

/-! ## Stake -/

def stakedOf (deposits : List StakeDeposit) : List StakeDeposit :=
  deposits.filter fun deposit => deposit.unstakeStartTime.isNone

/-- The deposits that are unstaking. -/
def unstakingOf (deposits : List StakeDeposit) : List StakeDeposit :=
  deposits.filter fun deposit => deposit.unstakeStartTime.isSome

/-- The stake in deposits that are not unstaking. -/
def stakedIn (deposits : List StakeDeposit) : Nat :=
  ((stakedOf deposits).map StakeDeposit.amount).sum

/-- The deposits of a user, none if nothing is stored. -/
def State.depositsOf (s : State) (user : Addr) : List StakeDeposit := (s.staked.lookup user).getD []

section Deposits

variable {deposits deposits' : List StakeDeposit} {deposit : StakeDeposit}

@[simp] theorem stakedOf_append :
    stakedOf (deposits ++ deposits') = stakedOf deposits ++ stakedOf deposits' :=
  List.filter_append _ _

@[simp] theorem stakedIn_append :
    stakedIn (deposits ++ deposits') = stakedIn deposits + stakedIn deposits' := by
  simp [stakedIn]

@[simp] theorem stakedOf_nil : stakedOf [] = [] := rfl

@[simp] theorem stakedIn_nil : stakedIn [] = 0 := rfl

theorem mem_stakedOf : deposit ∈ stakedOf deposits ↔
    deposit ∈ deposits ∧ deposit.unstakeStartTime = none := by
  simp [stakedOf]

theorem mem_unstakingOf : deposit ∈ unstakingOf deposits ↔
    deposit ∈ deposits ∧ deposit.unstakeStartTime ≠ none := by
  simp [unstakingOf, Option.isSome_iff_ne_none]

theorem stakedOf_cons_staked (staked : deposit.unstakeStartTime = none) :
    stakedOf (deposit :: deposits) = deposit :: stakedOf deposits := by
  simp [stakedOf, staked]

theorem stakedOf_cons_unstaking (unstaking : deposit.unstakeStartTime ≠ none) :
    stakedOf (deposit :: deposits) = stakedOf deposits := by
  simp [stakedOf, unstaking]

theorem stakedIn_single (staked : deposit.unstakeStartTime = none) :
    stakedIn [deposit] = deposit.amount := by
  simp [stakedIn, stakedOf_cons_staked staked]

theorem stakedIn_cons_staked (staked : deposit.unstakeStartTime = none) :
    stakedIn (deposit :: deposits) = deposit.amount + stakedIn deposits := by
  rw [stakedIn, stakedOf_cons_staked staked]
  rfl

theorem stakedIn_cons_unstaking (unstaking : deposit.unstakeStartTime ≠ none) :
    stakedIn (deposit :: deposits) = stakedIn deposits := by
  rw [stakedIn, stakedOf_cons_unstaking unstaking]
  rfl

theorem stakedOf_unstaking (unstaking : ∀ d ∈ deposits, d.unstakeStartTime ≠ none) :
    stakedOf deposits = [] := by
  refine List.filter_eq_nil_iff.mpr fun d mem => ?_
  simpa using unstaking d mem

theorem stakedOf_unstakingOf : stakedOf (unstakingOf deposits) = [] :=
  stakedOf_unstaking fun _ mem => (mem_unstakingOf.mp mem).2

end Deposits

section Lookups

variable {s : State} {user other : Addr} {deposits : List StakeDeposit}

@[simp] theorem depositsOf_save_same : (s.saveStaked user deposits).depositsOf user = deposits := by
  simp [State.depositsOf, State.saveStaked, AList.lookup_insert]

theorem depositsOf_save_ne (ne : other ≠ user) :
    (s.saveStaked user deposits).depositsOf other = s.depositsOf other := by
  simp [State.depositsOf, State.saveStaked, AList.lookup_insert_ne ne]

theorem depositsOf_of_staked {s' : State} (staked : s'.staked = s.staked) :
    s'.depositsOf user = s.depositsOf user := by
  rw [State.depositsOf, State.depositsOf, staked]

end Lookups

/-! ## Frames -/

/-- Nothing but the delegations and the claims of delegates differs. -/
structure SameStake (s s' : State) : Prop where
  staked : s'.staked = s.staked
  totals : s'.stakingTotals = s.stakingTotals
  config : s'.config = s.config
  events : s'.feeEvents = s.feeEvents
  schedule : s'.incentiveScheduling = s.incentiveScheduling
  vestingTime : s'.vestingStakeTime = s.vestingStakeTime

namespace SameStake

variable {s s' s'' : State}

theorem refl (s : State) : SameStake s s := ⟨rfl, rfl, rfl, rfl, rfl, rfl⟩

theorem trans (first : SameStake s s') (second : SameStake s' s'') : SameStake s s'' where
  staked := second.staked.trans first.staked
  totals := second.totals.trans first.totals
  config := second.config.trans first.config
  events := second.events.trans first.events
  schedule := second.schedule.trans first.schedule
  vestingTime := second.vestingTime.trans first.vestingTime

end SameStake

section Frames

variable {s s' : State} {env : Env} {user : Addr}

theorem saveDelegations_same {info : DelegationInfo} : SameStake s (s.saveDelegations user info) :=
  ⟨rfl, rfl, rfl, rfl, rfl, rfl⟩

theorem updateDelegations_same {f : DelegationInfo → Outcome StdError DelegationInfo}
    (done : updateDelegations user f s = .ok s') : SameStake s s' := by
  simp only [updateDelegations, bind_eq_ok] at done
  obtain ⟨_, -, _, -, hsave⟩ := done
  obtain rfl := pure_eq_ok.mp hsave
  exact saveDelegations_same

theorem addDelegateClaims_same {claims : List Coin} {interest : Nat}
    (done : addDelegateClaims user claims interest s = .ok s') : SameStake s s' := by
  unfold addDelegateClaims at done
  split at done
  · simp only [bind_eq_ok] at done
    obtain ⟨_, -, _, -, hsave⟩ := done
    obtain rfl := pure_eq_ok.mp hsave
    exact ⟨rfl, rfl, rfl, rfl, rfl, rfl⟩
  · obtain rfl := pure_eq_ok.mp done
    exact ⟨rfl, rfl, rfl, rfl, rfl, rfl⟩

theorem claimForDelegate_same {config : Config} {schedule : StakeDistributionLog}
    {events : List FeeEvent} {delegate : Delegation}
    (done : claimForDelegate env user config schedule events s delegate = .ok s') :
    SameStake s s' := by
  simp only [claimForDelegate, bind_eq_ok] at done
  obtain ⟨_, -, s₁, hdelegate, s₂, huser, _, -, _, -, _, -, hclaims⟩ := done
  exact ((updateDelegations_same hdelegate).trans (updateDelegations_same huser)).trans
    (addDelegateClaims_same hclaims)

theorem claimForDelegates_same {config : Config} {schedule : StakeDistributionLog}
    {events : List FeeEvent} {delegates : List Delegation}
    (done : delegates.foldlM (claimForDelegate env user config schedule events) s = .ok s') :
    SameStake s s' := by
  refine foldlM_keeps (fun mid => SameStake s mid) ?_ delegates s s' (.refl s) done
  intro mid delegate mid' same step
  exact same.trans (claimForDelegate_same step)

end Frames

/-! ## Claiming -/

def condensed (blockTime : Nat) (user : Addr) (deposits : List StakeDeposit) : List StakeDeposit :=
  unstakingOf deposits ++ [⟨user, stakedIn deposits,
    earliestStakeTime blockTime (stakedOf deposits), none, some blockTime⟩]

theorem stakedOf_condensed {blockTime : Nat} {user : Addr} {deposits : List StakeDeposit} :
    stakedOf (condensed blockTime user deposits) = [⟨user, stakedIn deposits,
      earliestStakeTime blockTime (stakedOf deposits), none, some blockTime⟩] := by
  rw [condensed, stakedOf_append, stakedOf_unstakingOf]
  rfl

theorem stakedIn_condensed {blockTime : Nat} {user : Addr} {deposits : List StakeDeposit} :
    stakedIn (condensed blockTime user deposits) = stakedIn deposits := by
  rw [stakedIn, stakedOf_condensed]
  exact Nat.add_zero _

/-- What a claim changes of the stake: the deposits of the user, if there are any, and else the time
    of the vesting contract and its multiplier. -/
structure Claimed (env : Env) (user : Addr) (s s' : State) : Prop where
  totals : s'.stakingTotals = s.stakingTotals
  events : s'.feeEvents = s.feeEvents
  schedule : s'.incentiveScheduling = s.incentiveScheduling
  vesting : s'.config.vestingContract = s.config.vestingContract
  proxy : s'.config.osmosisProxy = s.config.osmosisProxy
  staked : (s.depositsOf user = [] ∧ s'.staked = s.staked) ∨
    (s.depositsOf user ≠ [] ∧
      s'.staked = s.staked.insert user (condensed env.blockTime user (s.depositsOf user)))
  vestingTime : s'.vestingStakeTime = s.vestingStakeTime ∨ s'.vestingStakeTime = env.blockTime
  vestingPaid : s.depositsOf user = [] → s.config.vestingContract = some user →
    s'.vestingStakeTime = env.blockTime

section Claiming

variable {s s' : State} {env : Env} {user : Addr} {claims : List Asset} {interest : Nat}

theorem claimDeposits_claimed {deposits : List StakeDeposit} (found : s.depositsOf user = deposits)
    (some : deposits ≠ []) (done : claimDeposits env user deposits s = .ok (s', claims, interest)) :
    Claimed env user s s' := by
  simp only [claimDeposits, bind_eq_ok] at done
  obtain ⟨total, htotal, ⟨earned, accrued⟩, -, hrest⟩ := done
  obtain rfl : total = stakedIn deposits := Uint128.sum_eq htotal
  have hsaved : ∀ mid, SameStake (s.saveStaked user (condensed env.blockTime user deposits)) mid →
      Claimed env user s mid := by
    intro mid same
    refine ⟨same.totals, same.events, same.schedule, ?_, ?_, .inr ⟨found ▸ some, ?_⟩,
      .inl same.vestingTime, fun hnone => absurd (found ▸ hnone) some⟩
    · rw [same.config]
      rfl
    · rw [same.config]
      rfl
    · rw [same.staked, found]
      rfl
  split at hrest
  · obtain ⟨rfl, -⟩ := Prod.mk.inj (pure_eq_ok.mp hrest)
    exact hsaved _ (.refl _)
  · rw [bind_eq_ok] at hrest
    obtain ⟨mid, hfold, hmid⟩ := hrest
    obtain ⟨rfl, -⟩ := Prod.mk.inj (pure_eq_ok.mp hmid)
    exact hsaved _ (claimForDelegates_same hfold)

theorem claimVesting_claimed (found : s.depositsOf user = [])
    (done : claimVesting env user s = .ok (s', claims, interest)) : Claimed env user s s' := by
  simp only [claimVesting, bind_eq_ok] at done
  obtain ⟨_, -, _, -, hmid⟩ := done
  obtain ⟨rfl, -⟩ := Prod.mk.inj (pure_eq_ok.mp hmid)
  refine ⟨rfl, rfl, rfl, ?_, ?_, .inl ⟨found, rfl⟩, .inr rfl, fun _ _ => rfl⟩
  · dsimp only
    split <;> rfl
  · dsimp only
    split <;> rfl

theorem getUserClaimables_claimed
    (done : getUserClaimables env user s = .ok (s', claims, interest)) : Claimed env user s s' := by
  unfold getUserClaimables at done
  dsimp only at done
  split at done
  · rename_i hsome
    exact claimDeposits_claimed rfl hsome done
  · rename_i hnone
    have hempty : s.depositsOf user = [] := not_not.mp hnone
    split at done
    · exact claimVesting_claimed hempty done
    · rename_i hvesting
      obtain ⟨rfl, -⟩ := Prod.mk.inj (pure_eq_ok.mp done)
      exact ⟨rfl, rfl, rfl, rfl, rfl, .inl ⟨hempty, rfl⟩, .inl rfl,
        fun _ hcontract => absurd hcontract hvesting⟩

namespace Claimed

variable {other : Addr}

theorem depositsOf_ne (claimed : Claimed env user s s') (ne : other ≠ user) :
    s'.depositsOf other = s.depositsOf other := by
  rcases claimed.staked with ⟨-, hstaked⟩ | ⟨-, hstaked⟩
  · exact depositsOf_of_staked hstaked
  · rw [State.depositsOf, State.depositsOf, hstaked, AList.lookup_insert_ne ne]

theorem depositsOf_self (claimed : Claimed env user s s') :
    (s.depositsOf user = [] ∧ s'.depositsOf user = []) ∨
      (s.depositsOf user ≠ [] ∧
        s'.depositsOf user = condensed env.blockTime user (s.depositsOf user)) := by
  rcases claimed.staked with ⟨hempty, hstaked⟩ | ⟨hsome, hstaked⟩
  · exact .inl ⟨hempty, (depositsOf_of_staked hstaked).trans hempty⟩
  · refine .inr ⟨hsome, ?_⟩
    rw [State.depositsOf, hstaked, AList.lookup_insert]
    rfl

theorem paid (claimed : Claimed env user s s') :
    ∀ deposit ∈ stakedOf (s'.depositsOf user), deposit.paidUntil = env.blockTime := by
  intro deposit mem
  rcases claimed.depositsOf_self with ⟨-, hempty⟩ | ⟨-, hcondensed⟩
  · rw [hempty] at mem
    cases mem
  · rw [hcondensed, stakedOf_condensed, List.mem_singleton] at mem
    rw [mem]
    rfl

end Claimed

end Claiming

/-! ## Payment -/

section Payment

variable {s s' : State} {deps : Deps} {env : Env} {config : Config} {user : Addr}

def Totals.plus (totals : Totals) (vestingContract : Option Addr) (staker : Addr) (amount : Nat) :
    Totals :=
  if vestingContract = some staker then
    { totals with vestingContract := totals.vestingContract + amount }
  else { totals with stakers := totals.stakers + amount }

theorem addStakingDeposit_spec {amount : Nat}
    (done : addStakingDeposit env config user amount s = .ok s') :
    s' = { s.saveStaked user
        (s.depositsOf user ++ [⟨user, amount, env.blockTime, none, none⟩]) with
      stakingTotals := s.stakingTotals.plus config.vestingContract user amount } := by
  simp only [addStakingDeposit, bind_eq_ok] at done
  obtain ⟨totals, htotals, hsave⟩ := done
  obtain rfl := pure_eq_ok.mp hsave
  unfold Totals.plus
  split at htotals
  · rename_i hvesting
    simp only [bind_eq_ok, Uint128.add_eq_ok] at htotals
    obtain ⟨_, ⟨-, rfl⟩, htotals⟩ := htotals
    rw [if_pos hvesting, ← pure_eq_ok.mp htotals]
    rfl
  · rename_i hvesting
    simp only [bind_eq_ok, Uint128.add_eq_ok] at htotals
    obtain ⟨_, ⟨-, rfl⟩, htotals⟩ := htotals
    rw [if_neg hvesting, ← pure_eq_ok.mp htotals]
    rfl

theorem createRewardsMsgs_spec {claims : List Asset} {interest : Nat} {coins : List Coin}
    {msgs : List (CosmosMsg OutMsg)}
    (done : createRewardsMsgs deps env config claims interest user coins s = .ok (s', msgs)) :
    ∃ mid, SameStake s mid ∧ mid.delegations = s.delegations ∧
      (s' = mid ∨ ∃ amount, addStakingDeposit env config user amount mid = .ok s') := by
  simp only [createRewardsMsgs, bind_eq_ok, addrValidate_eq_ok] at done
  obtain ⟨_, -, _, ⟨-, rfl⟩, ⟨mid, accrued, paid⟩, hbooked, ⟨after, minted⟩, hstaked, hrest⟩ := done
  have hafter : s' = after := by
    dsimp only at hrest
    split at hrest
    · exact (Prod.mk.inj (pure_eq_ok.mp hrest)).1.symm
    · rw [bind_eq_ok] at hrest
      obtain ⟨_, -, hrest⟩ := hrest
      exact (Prod.mk.inj (pure_eq_ok.mp hrest)).1.symm
  subst hafter
  refine ⟨mid, ?_, ?_, ?_⟩
  · split at hbooked
    · rw [bind_eq_ok] at hbooked
      obtain ⟨_, -, hbooked⟩ := hbooked
      obtain ⟨rfl, -⟩ := Prod.mk.inj (pure_eq_ok.mp hbooked)
      exact ⟨rfl, rfl, rfl, rfl, rfl, rfl⟩
    · obtain ⟨rfl, -⟩ := Prod.mk.inj (pure_eq_ok.mp hbooked)
      exact .refl s
  · split at hbooked
    · rw [bind_eq_ok] at hbooked
      obtain ⟨_, -, hbooked⟩ := hbooked
      obtain ⟨rfl, -⟩ := Prod.mk.inj (pure_eq_ok.mp hbooked)
      rfl
    · obtain ⟨rfl, -⟩ := Prod.mk.inj (pure_eq_ok.mp hbooked)
      rfl
  · dsimp only at hstaked
    split at hstaked
    · simp only [bind_eq_ok] at hstaked
      obtain ⟨_, hadd, _, -, hstaked⟩ := hstaked
      obtain ⟨rfl, -⟩ := Prod.mk.inj (pure_eq_ok.mp hstaked)
      exact .inr ⟨accrued, hadd⟩
    · exact .inl (Prod.mk.inj (pure_eq_ok.mp hstaked)).1.symm

end Payment

/-! ## Unstaking and restaking -/

section Handlers

variable {s s' : State} {deps : Deps} {env : Env} {info : MessageInfo} {user : Addr} {call : Call}

def unstakedFrom (blockTime amount : Nat) (deposits : List StakeDeposit) : Unstaking :=
  (stakedOf deposits).foldl (unstakeDeposit blockTime) ⟨[], [], amount⟩

def Unstaking.left (u : Unstaking) : List StakeDeposit :=
  (u.deposits.filter fun deposit => deposit.amount ≠ 0) ++ u.returning

theorem unstakesFor_unstaking {config : Config} {blockTime : Nat} {compare : Nat → Nat → Bool}
    {deposit : StakeDeposit} (done : unstakesFor config blockTime compare deposit = .ok true) :
    deposit.unstakeStartTime ≠ none := by
  intro hnone
  rw [unstakesFor, hnone] at done
  cases pure_eq_ok.mp done

def maturedIn (config : Config) (blockTime : Nat) (deposits : List StakeDeposit) : Nat :=
  ((deposits.filter fun deposit =>
    holds (unstakesFor config blockTime (fun elapsed period => decide (period ≤ elapsed))
      deposit)).map StakeDeposit.amount).sum

theorem withdrawFromState_matured {amount interest withdrawable : Nat} {claims : List Asset}
    (done : withdrawFromState env user amount s = .ok (s', claims, interest, withdrawable)) :
    withdrawable = maturedIn s.config env.blockTime (s.depositsOf user) := by
  simp only [withdrawFromState, bind_eq_ok, State.loadStaked, ofOption_eq_ok] at done
  obtain ⟨deposits, hload, matured, hmatured, total, htotal, hrest⟩ := done
  have hdeposits : s.depositsOf user = deposits := by rw [State.depositsOf, hload]; rfl
  split at hrest
  · cases hrest
  simp only [bind_eq_ok] at hrest
  obtain ⟨_, -, _, -, hsave⟩ := hrest
  cases pure_eq_ok.mp hsave
  rw [Uint128.sum_eq htotal, hdeposits, (filterM_spec hmatured).2]
  rfl

theorem withdrawFromState_spec {amount interest withdrawable : Nat} {claims : List Asset}
    (done : withdrawFromState env user amount s = .ok (s', claims, interest, withdrawable)) :
    ∃ mid unstaking, getUserClaimables env user s = .ok (mid, claims, interest) ∧
      (∀ deposit ∈ unstaking, deposit ∈ s.depositsOf user ∧ deposit.unstakeStartTime ≠ none) ∧
      (unstakedFrom env.blockTime (amount - withdrawable) (s.depositsOf user)).withdrawalAmount =
        0 ∧
      s' = mid.saveStaked user (unstaking ++
        (unstakedFrom env.blockTime (amount - withdrawable) (s.depositsOf user)).left) := by
  simp only [withdrawFromState, bind_eq_ok, State.loadStaked, ofOption_eq_ok] at done
  obtain ⟨deposits, hload, matured, -, total, -, hrest⟩ := done
  have hdeposits : s.depositsOf user = deposits := by rw [State.depositsOf, hload]; rfl
  split at hrest
  · cases hrest
  rename_i hleft
  simp only [bind_eq_ok] at hrest
  obtain ⟨unstaking, hunstaking, ⟨mid, earned, accrued⟩, hclaim, hsave⟩ := hrest
  cases pure_eq_ok.mp hsave
  refine ⟨mid, unstaking, hclaim, ?_, ?_, ?_⟩
  · intro deposit mem
    obtain ⟨hmem, hholds⟩ := (mem_filterM hunstaking).mp mem
    exact ⟨hdeposits ▸ hmem, unstakesFor_unstaking hholds⟩
  · rw [hdeposits]
    exact not_not.mp hleft
  · rw [hdeposits]
    rfl

theorem removeDelegated_same {delegate : Addr} (done : removeDelegated user delegate s = .ok s') :
    SameStake s s' := by
  simp only [removeDelegated, bind_eq_ok] at done
  obtain ⟨_, -, _, -, hsave⟩ := done
  obtain rfl := pure_eq_ok.mp hsave
  exact saveDelegations_same

theorem lowerDelegated_same {delegate : Addr} {amount : Nat}
    (done : lowerDelegated user delegate amount s = .ok s') : SameStake s s' := by
  simp only [lowerDelegated, bind_eq_ok] at done
  obtain ⟨_, -, _, -, hsave⟩ := done
  obtain rfl := pure_eq_ok.mp hsave
  exact saveDelegations_same

theorem undelegateOne_same {acc acc' : Undelegating × State} {entry : Delegation × Nat}
    (done : undelegateOne user acc entry = .ok acc') : SameStake acc.2 acc'.2 := by
  unfold undelegateOne at done
  dsimp only at done
  split at done
  · cases pure_eq_ok.mp done
    exact .refl _
  · split at done
    · obtain ⟨mid, hremove, hmid⟩ := bind_eq_ok.mp done
      cases pure_eq_ok.mp hmid
      exact removeDelegated_same hremove
    · obtain ⟨listed, -, hlower⟩ := bind_eq_ok.mp done
      split at hlower
      · simp only [bind_eq_ok] at hlower
        obtain ⟨_, -, mid, hlower, hmid⟩ := hlower
        cases pure_eq_ok.mp hmid
        exact lowerDelegated_same hlower
      · cases pure_eq_ok.mp hlower
        exact .refl _

theorem undelegateExcess_same {total amount : Nat}
    (done : undelegateExcess user total amount s = .ok s') : SameStake s s' := by
  unfold undelegateExcess at done
  split at done
  · cases pure_eq_ok.mp done
    exact .refl _
  · obtain ⟨delegated, -, hexcess⟩ := bind_eq_ok.mp done
    dsimp only at hexcess
    split at hexcess
    · simp only [bind_eq_ok] at hexcess
      obtain ⟨⟨u, mid⟩, hloop, _, -, hsave⟩ := hexcess
      cases pure_eq_ok.mp hsave
      have hsame : SameStake s mid := foldlM_keeps (fun acc => SameStake s acc.2)
        (fun _ _ _ same step => same.trans (undelegateOne_same step)) _ _ _ (.refl s) hloop
      exact hsame.trans saveDelegations_same
    · cases pure_eq_ok.mp hexcess
      exact .refl _

theorem depositsOf_of_lookup {deposits : List StakeDeposit}
    (found : s.staked.lookup user = some deposits) : s.depositsOf user = deposits := by
  rw [State.depositsOf, found]
  rfl

/-- What deposits hold, staked or unstaking. -/
def heldIn (deposits : List StakeDeposit) : Nat := (deposits.map StakeDeposit.amount).sum

theorem unstake_spec {request : Option Nat} {msgs : List (CosmosMsg OutMsg)}
    (done : unstake deps env info request s = .ok (s', msgs)) :
    ∃ (amount withdrawable interest : Nat) (claims : List Asset) (coins : List Coin)
      (withdrawn undelegated paid : State) (totals : Totals),
      amount = min (request.getD (heldIn (s.depositsOf info.sender)))
        (heldIn (s.depositsOf info.sender)) ∧
      withdrawFromState env info.sender amount s = .ok (withdrawn, claims, interest, withdrawable) ∧
      withdrawable + heldIn (withdrawn.depositsOf info.sender) =
        heldIn (s.depositsOf info.sender) ∧
      SameStake withdrawn undelegated ∧
      createRewardsMsgs deps env s.config claims interest info.sender coins undelegated =
        .ok (paid, msgs) ∧
      subtractUnstaked s.config info.sender (amount - withdrawable) paid.stakingTotals =
        .ok totals ∧
      s' = { paid with stakingTotals := totals } := by
  simp only [unstake, bind_eq_ok, liftStd_eq_ok, guardErr_eq_ok] at done
  obtain ⟨_, -, deposits, hload, total, htotal, ⟨withdrawn, claims, interest, withdrawable⟩,
    hwithdraw, after, hafter, newTotal, hnew, stray, hstray, _, hvalid, ⟨undelegated, coins⟩,
    hundelegate, ⟨paid, sent⟩, hpay, totals, htotals, hsave⟩ := done
  cases pure_eq_ok.mp hsave
  have hdeposits : s.depositsOf info.sender = deposits :=
    depositsOf_of_lookup (ofOption_eq_ok.mp hload)
  have hleft : withdrawn.depositsOf info.sender = after :=
    depositsOf_of_lookup (ofOption_eq_ok.mp hafter)
  obtain rfl : total = heldIn (s.depositsOf info.sender) := by
    rw [hdeposits]
    exact Uint128.sum_eq htotal
  obtain rfl : newTotal = heldIn (withdrawn.depositsOf info.sender) := by
    rw [hleft]
    exact Uint128.sum_eq hnew
  refine ⟨_, withdrawable, interest, claims, coins, withdrawn, undelegated, paid, totals, rfl,
    hwithdraw, ?_, ?_, hpay, htotals, rfl⟩
  · split at hstray
    · exact absurd (pure_eq_ok.mp hstray).symm hvalid
    · simp only [bind_eq_ok, Uint128.add_eq_ok] at hstray
      obtain ⟨_, ⟨-, rfl⟩, hstray⟩ := hstray
      by_contra hne
      exact hvalid ((pure_eq_ok.mp hstray).symm.trans (decide_eq_true hne))
  split at hundelegate
  · obtain ⟨mid, hexcess, hmid⟩ := bind_eq_ok.mp hundelegate
    cases pure_eq_ok.mp hmid
    exact undelegateExcess_same (liftStd_eq_ok.mp hexcess)
  · cases pure_eq_ok.mp hundelegate
    exact .refl _

theorem restake_spec {amount : Nat} {msgs : List (CosmosMsg OutMsg)}
    (done : restake deps env info amount s = .ok (s', msgs)) :
    ∃ (mid : State) (claims : List Asset) (interest : Nat) (restaked : List StakeDeposit)
      (left : Nat), getUserClaimables env info.sender s = .ok (mid, claims, interest) ∧
      (s.depositsOf info.sender).foldl (restakeDeposit env.blockTime) ([], amount) =
        (restaked, left) ∧
      createRewardsMsgs deps env s.config claims interest info.sender []
        { mid.saveStaked info.sender restaked with
          stakingTotals := { mid.stakingTotals with
            stakers := mid.stakingTotals.stakers + (amount - left) } } = .ok (s', msgs) := by
  simp only [restake, bind_eq_ok, liftStd_eq_ok, State.loadStaked, ofOption_eq_ok,
    Uint128.add_eq_ok] at done
  obtain ⟨deposits, hload, ⟨mid, claims, interest⟩, hclaim, _, ⟨-, rfl⟩, hpay⟩ := done
  rw [depositsOf_of_lookup hload]
  exact ⟨mid, claims, interest, _, _, hclaim, rfl, hpay⟩

theorem setCommission_same {commission : Decimal} :
    SameStake s (setCommission user commission s) := by
  unfold setCommission
  split
  · exact saveDelegations_same
  · exact .refl s

theorem updateFlags_same {governator : Addr} {update : DelegationUpdate} :
    SameStake s (updateFlags user governator update s) := by
  unfold updateFlags
  split
  · dsimp only
    split
    · split
      · exact saveDelegations_same.trans saveDelegations_same
      · exact saveDelegations_same
    · split
      · exact saveDelegations_same
      · exact .refl s
  · exact .refl s

theorem saveOrRemove_same {delegations : DelegationInfo} :
    SameStake s (saveOrRemove user delegations s) := by
  unfold saveOrRemove
  split
  · exact ⟨rfl, rfl, rfl, rfl, rfl, rfl⟩
  · exact saveDelegations_same

theorem delegateTo_same {governator : Addr} {update : DelegationUpdate} {userInfo : DelegationInfo}
    {total : Nat} (done : delegateTo env user governator update userInfo total s = .ok s') :
    SameStake s s' := by
  simp only [delegateTo, bind_eq_ok] at done
  obtain ⟨_, -, _, -, _, -, _, -, _, -, hsave⟩ := done
  cases pure_eq_ok.mp hsave
  exact saveDelegations_same.trans saveDelegations_same

theorem undelegateFrom_same {governator : Addr} {update : DelegationUpdate}
    {userInfo : DelegationInfo} {total : Nat}
    (done : undelegateFrom user governator update userInfo total s = .ok s') : SameStake s s' := by
  simp only [undelegateFrom, bind_eq_ok] at done
  obtain ⟨_, -, _, -, _, -, _, -, _, -, _, -, hsave⟩ := done
  cases pure_eq_ok.mp hsave
  exact saveOrRemove_same.trans saveOrRemove_same

theorem delegateFluidOne_same {governator : Addr} {acc acc' : FluidDelegating × State}
    {entry : Delegation × Nat} (done : delegateFluidOne env user governator acc entry = .ok acc') :
    SameStake acc.2 acc'.2 := by
  unfold delegateFluidOne at done
  dsimp only at done
  split at done
  · cases pure_eq_ok.mp done
    exact .refl _
  · simp only [bind_eq_ok] at done
    obtain ⟨_, -, _, -, _, -, _, -, _, -, hsave⟩ := done
    cases pure_eq_ok.mp hsave
    exact saveDelegations_same.trans saveDelegations_same

def ClaimedAndSent (deps : Deps) (env : Env) (user recipient : Addr) (s s' : State) : Prop :=
  ∃ (mid : State) (claims : List Asset) (interest sent : Nat) (msgs : List (CosmosMsg OutMsg)),
    getUserClaimables env user s = .ok (mid, claims, interest) ∧
      createRewardsMsgs deps env s.config claims sent recipient [] mid = .ok (s', msgs)

theorem executeUpdateDelegations_spec {update : DelegationUpdate} {msgs : List (CosmosMsg OutMsg)}
    (done : executeUpdateDelegations deps env info update s = .ok (s', msgs)) :
    ∃ paid, ((paid = s ∧ (update.delegate = none ∨ update.governatorAddr = none)) ∨
      ClaimedAndSent deps env info.sender info.sender s paid) ∧ SameStake paid s' := by
  unfold executeUpdateDelegations at done
  dsimp only at done
  split at done
  · split at done
    · rename_i hnone _
      cases pure_eq_ok.mp done
      exact ⟨s, .inl ⟨rfl, .inr hnone⟩, setCommission_same⟩
    · rename_i hnone _
      cases pure_eq_ok.mp done
      exact ⟨s, .inl ⟨rfl, .inr hnone⟩, .refl s⟩
  · simp only [updateDelegationsTo, bind_eq_ok] at done
    obtain ⟨governator, -, _, -, _, -, _, -, _, -, _, -, ⟨mid, sent⟩, hmoved, hsave⟩ := done
    cases pure_eq_ok.mp hsave
    have hpaid : ∃ paid, ((paid = s ∧ (update.delegate = none ∨ update.governatorAddr = none)) ∨
        ClaimedAndSent deps env info.sender info.sender s paid) ∧ SameStake paid mid := by
      split at hmoved
      · simp only [bind_eq_ok, liftStd_eq_ok] at hmoved
        obtain ⟨⟨claimed, claims, interest⟩, hclaim, ⟨paid, msgs⟩, hpay, moved, hmove, hmid⟩ :=
          hmoved
        cases pure_eq_ok.mp hmid
        refine ⟨paid, .inr ⟨claimed, claims, interest, interest, msgs, hclaim, hpay⟩, ?_⟩
        split at hmove
        · exact delegateTo_same hmove
        · exact undelegateFrom_same hmove
      · rename_i hnone
        cases pure_eq_ok.mp hmoved
        exact ⟨s, .inl ⟨rfl, .inl hnone⟩, .refl s⟩
    obtain ⟨paid, hclaimed, hmoved⟩ := hpaid
    refine ⟨paid, hclaimed, hmoved.trans (SameStake.trans ?_ updateFlags_same)⟩
    split
    · exact setCommission_same
    · exact .refl mid
  · cases done

theorem delegateFluidDelegations_spec {governatorAddr : String} {amount : Option Nat}
    {msgs : List (CosmosMsg OutMsg)}
    (done : delegateFluidDelegations deps env info governatorAddr amount s = .ok (s', msgs)) :
    ∃ paid, ClaimedAndSent deps env info.sender info.sender s paid ∧ SameStake paid s' := by
  simp only [delegateFluidDelegations, bind_eq_ok, liftStd_eq_ok] at done
  obtain ⟨governator, -, _, -, _, -, ⟨mid, claims, interest⟩, hclaim, ⟨paid, sent⟩, hpay, _, -,
    _, -, _, -, _, -, ⟨f, moved⟩, hloop, hsave⟩ := done
  cases pure_eq_ok.mp hsave
  have hsame : SameStake paid moved := foldlM_keeps (fun acc => SameStake paid acc.2)
    (fun _ _ _ same step => same.trans (delegateFluidOne_same step)) _ _ _ (.refl paid) hloop
  exact ⟨paid, ⟨mid, claims, interest, interest, sent, hclaim, hpay⟩,
    hsame.trans saveDelegations_same⟩

theorem claimRewards_spec {sendTo : Option String} {restake : Bool}
    {msgs : List (CosmosMsg OutMsg)}
    (done : claimRewards deps env info sendTo restake s = .ok (s', msgs)) :
    ∃ recipient, ClaimedAndSent deps env info.sender recipient s s' := by
  simp only [claimRewards, bind_eq_ok, liftStd_eq_ok] at done
  obtain ⟨⟨mid, claims, interest⟩, hclaim, recipient, -, ⟨paid, sent⟩, hpay, hrest⟩ := done
  refine ⟨recipient, mid, claims, interest, 0, sent, hclaim, ?_⟩
  split at hrest
  · cases hrest
  · simp only [bind_eq_ok] at hrest
    obtain ⟨_, -, _, -, hsave⟩ := hrest
    cases pure_eq_ok.mp hsave
    exact hpay

theorem stake_spec {recipient : Option String} {msgs : List (CosmosMsg OutMsg)}
    (done : stake deps env info recipient s = .ok (s', msgs)) :
    ∃ staker amount, addStakingDeposit env s.config staker amount s = .ok s' := by
  simp only [stake, bind_eq_ok, liftStd_eq_ok] at done
  obtain ⟨asset, -, staker, -, after, hadd, hsave⟩ := done
  cases pure_eq_ok.mp hsave
  exact ⟨staker, asset.amount, hadd⟩

theorem addFeeEvents_spec {assets : List Asset} (done : addFeeEvents deps env assets s = .ok s') :
    ∃ totals events, totals.stakers = s.stakingTotals.stakers ∧
      s' = { s with stakingTotals := totals, feeEvents := events } := by
  simp only [addFeeEvents, bind_eq_ok] at done
  obtain ⟨⟨totals, counted⟩, htotals, _, -, _, -, events, -, hsave⟩ := done
  refine ⟨totals, _, ?_, (pure_eq_ok.mp hsave).symm⟩
  split at htotals
  · simp only [bind_eq_ok] at htotals
    obtain ⟨_, -, _, -, _, -, htotals⟩ := htotals
    cases pure_eq_ok.mp htotals
    rfl
  · cases pure_eq_ok.mp htotals
    rfl

theorem executeDepositFee_spec {msgs : List (CosmosMsg OutMsg)}
    (done : executeDepositFee deps env info s = .ok (s', msgs)) :
    ∃ totals events, totals.stakers = s.stakingTotals.stakers ∧
      s' = { s with stakingTotals := totals, feeEvents := events } := by
  have hdeposit : ∀ assets, depositFee deps env info assets s = .ok (s', msgs) →
      ∃ totals events, totals.stakers = s.stakingTotals.stakers ∧
        s' = { s with stakingTotals := totals, feeEvents := events } := by
    intro assets hfee
    simp only [depositFee, bind_eq_ok] at hfee
    obtain ⟨cdt, -, _, -, hrest⟩ := hfee
    split at hrest
    all_goals
      dsimp only at hrest
      split at hrest
      · obtain ⟨after, hadd, hsave⟩ := bind_eq_ok.mp hrest
        cases pure_eq_ok.mp hsave
        exact addFeeEvents_spec hadd
      · cases pure_eq_ok.mp hrest
        exact ⟨s.stakingTotals, s.feeEvents, rfl, rfl⟩
  simp only [executeDepositFee, bind_eq_ok] at done
  obtain ⟨_, -, hrest⟩ := done
  split at hrest
  · simp only [bind_eq_ok, liftStd_eq_ok] at hrest
    obtain ⟨_, -, _, -, hfee⟩ := hrest
    exact hdeposit _ hfee
  · exact hdeposit _ (liftStd_eq_ok.mp hrest)

theorem trimFeeEvents_spec {msgs : List (CosmosMsg OutMsg)}
    (done : trimFeeEvents info s = .ok (s', msgs)) :
    ∃ events, s' = { s with feeEvents := events } := by
  simp only [trimFeeEvents, bind_eq_ok] at done
  obtain ⟨_, -, _, -, hsave⟩ := done
  exact ⟨_, (Prod.mk.inj (pure_eq_ok.mp hsave)).1.symm⟩

theorem validateOptional_eq {addrValid : String → Bool} {addr : Option String}
    {current contract : Option Addr}
    (done : validateOptional addrValid addr current = .ok contract) :
    contract = addr.or current := by
  cases addr with
  | none => exact (pure_eq_ok.mp done).symm
  | some addr =>
    simp only [validateOptional, bind_eq_ok, liftStd_eq_ok, addrValidate_eq_ok] at done
    obtain ⟨_, ⟨-, rfl⟩, done⟩ := done
    exact (pure_eq_ok.mp done).symm

theorem updateConfig_spec {addrValid : String → Bool} {update : UpdateConfig}
    {msgs : List (CosmosMsg OutMsg)}
    (done : updateConfig addrValid env info update s = .ok (s', msgs)) :
    s'.staked = s.staked ∧ s'.stakingTotals = s.stakingTotals ∧
      s'.vestingStakeTime = s.vestingStakeTime ∧
      s'.config.vestingContract = update.vestingContract.or s.config.vestingContract := by
  simp only [updateConfig, bind_eq_ok] at done
  obtain ⟨_, -, _, -, vesting, hvesting, _, -, _, -, _, -, _, -, hsave⟩ := done
  cases pure_eq_ok.mp hsave
  exact ⟨rfl, rfl, rfl, validateOptional_eq hvesting⟩

end Handlers

theorem steps_iff {s s' : State} {call : Call} :
    Steps s call s' ↔ ∃ msgs, execute call.deps call.env call.info call.msg s = .ok (s', msgs) := by
  unfold Steps Call.exec
  rcases hdone : execute call.deps call.env call.info call.msg s with error | ⟨after, msgs⟩
  · simp
  · simp

end Membrane.Staking
