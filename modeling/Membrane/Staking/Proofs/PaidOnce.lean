import Membrane.Staking.Proofs.Totals

/-!
# Rewards are paid once

A claim pays a user's deposits until the time of the block. What follows in blocks of that time
leaves the deposits paid: a new deposit starts at that time, and an unstake and a restake put back
deposits that are as old as they were. So each further claim at that time pays nothing.
-/

namespace Membrane.Staking

open Outcome

/-! ## What is paid -/

/-- Nothing can be claimed for the user's own stake at a time: each staked deposit that holds
    something is paid until then, and so is the vesting contract while it has no deposit. -/
structure PaidUntil (t : Nat) (user : Addr) (s : State) : Prop where
  deposits : ∀ deposit ∈ stakedOf (s.depositsOf user), deposit.amount ≠ 0 → t ≤ deposit.paidUntil
  vesting : s.depositsOf user = [] → s.config.vestingContract = some user → t ≤ s.vestingStakeTime

def Nothing (claims : List Asset) : Prop := ∀ claim ∈ claims, claim.amount = 0

section Claims

variable {s s' : State} {config : Config} {schedule : StakeDistributionLog} {env : Env}
  {events : List FeeEvent} {deposit : StakeDeposit} {delegated delegatedTo : List Delegation}
  {total : Nat} {rate : Decimal} {claims : List Asset} {interest : Nat}

theorem accumulateInterest_none {stake : Nat} (none : stake = 0 ∨ interest = 0) {earned : Nat}
    (done : accumulateInterest stake rate interest = .ok earned) : earned = 0 := by
  simp only [accumulateInterest, bind_eq_ok] at done
  obtain ⟨ratio, hratio, applied, happlied, hearned⟩ := done
  rw [Decimal.mulUint_eq_ok hearned]
  rcases none with rfl | rfl
  · rw [Nat.zero_mul, Nat.zero_div]
  · obtain ⟨-, -, rfl⟩ := Decimal.fromRatio_eq_ok.mp hratio
    rw [Decimal.checkedMul, ofOption_eq_ok, Decimal.fits_eq_some] at happlied
    obtain ⟨-, rfl⟩ := happlied
    simp

theorem commissioned_zero {subtraction addition : Decimal} {amount : Nat}
    (done : commissioned 0 subtraction addition = .ok amount) : amount = 0 := by
  have hzero : ∀ {ratio whole product : Decimal},
      (Decimal.fromRatio 0 1 : Outcome StdError Decimal) = .ok whole →
      decimalMultiplication ratio whole = .ok product → product.toUintFloor = 0 := by
    intro ratio whole product hwhole hproduct
    rw [Decimal.fromRatio_one hwhole] at hproduct
    rw [(decimalMultiplication_eq_ok.mp hproduct).2]
    simp [Decimal.toUintFloor]
  simp only [commissioned, bind_eq_ok] at done
  obtain ⟨kept, hkept, hadded⟩ := done
  have hnone : kept = 0 := by
    split at hkept
    · simp only [bind_eq_ok] at hkept
      obtain ⟨_, -, whole, hwhole, product, hproduct, hkept⟩ := hkept
      rw [← pure_eq_ok.mp hkept]
      exact hzero hwhole hproduct
    · exact (pure_eq_ok.mp hkept).symm
  subst hnone
  split at hadded
  · simp only [bind_eq_ok] at hadded
    obtain ⟨_, -, whole, hwhole, product, hproduct, hadded⟩ := hadded
    rw [← pure_eq_ok.mp hadded]
    exact hzero hwhole hproduct
  · exact (pure_eq_ok.mp hadded).symm

theorem addClaim_nothing {claim : Asset} {added : List Asset} (nothing : Nothing claims)
    (zero : claim.amount = 0) (done : addClaim claims claim = .ok added) : Nothing added := by
  unfold addClaim at done
  split at done
  · simp only [bind_eq_ok, index_eq_ok, Uint128.add_eq_ok, setIndex_eq_ok] at done
    obtain ⟨asset, hasset, _, ⟨-, rfl⟩, -, rfl⟩ := done
    intro other mem
    rcases List.mem_or_eq_of_mem_set mem with hmem | rfl
    · exact nothing other hmem
    · have hzero := nothing asset (List.mem_of_getElem? hasset)
      dsimp only
      omega
  · obtain rfl := pure_eq_ok.mp done
    intro other mem
    rcases List.mem_append.mp mem with hmem | hmem
    · exact nothing other hmem
    · rw [List.mem_singleton.mp hmem]
      exact zero

theorem getDepositClaimables_nothing (paid : deposit.amount ≠ 0 → env.blockTime ≤ deposit.paidUntil)
    (done : getDepositClaimables s config schedule env events deposit delegated delegatedTo total
      rate = .ok (claims, interest)) : Nothing claims ∧ interest = 0 := by
  simp only [getDepositClaimables, bind_eq_ok] at done
  obtain ⟨⟨subtraction, addition⟩, -, amount, hamount, earned, hclaims, duration, -, since,
    -, hrest⟩ :=
    done
  have hnone : amount = 0 ∨ env.blockTime ≤ deposit.paidUntil := by
    by_cases hzero : deposit.amount = 0
    · rw [hzero] at hamount
      exact .inl (commissioned_zero hamount)
    · exact .inr (paid hzero)
  have hearned : Nothing earned := by
    rcases hnone with rfl | hpaid
    · refine foldlM_keeps Nothing ?_ _ _ _ (fun _ mem => absurd mem List.not_mem_nil) hclaims
      intro acc event acc' hnothing step
      simp only [bind_eq_ok] at step
      obtain ⟨share, hshare, hadd⟩ := step
      refine addClaim_nothing hnothing ?_ hadd
      rw [Decimal.mulUint_eq_ok hshare]
      simp
    · have hevents : events.filter (fun event => Experienced env.blockTime deposit event) = [] := by
        refine List.filter_eq_nil_iff.mpr fun event _ holds => ?_
        have hexperienced : Experienced env.blockTime deposit event := of_decide_eq_true holds
        have hafter := hexperienced.1
        have hbefore := hexperienced.2
        omega
      rw [hevents] at hclaims
      obtain rfl := pure_eq_ok.mp hclaims
      exact fun _ mem => absurd mem List.not_mem_nil
  split at hrest
  all_goals
    split at hrest
    · simp only [bind_eq_ok, subUint_eq_ok] at hrest
      obtain ⟨elapsed, ⟨-, helapsed⟩, accrued, haccrued, hmade⟩ := hrest
      obtain ⟨rfl, rfl⟩ := Prod.mk.inj (pure_eq_ok.mp hmade)
      refine ⟨hearned, accumulateInterest_none ?_ haccrued⟩
      rcases hnone with hzero | hpaid
      · exact .inl hzero
      · exact .inr (by omega)
    · obtain ⟨rfl, rfl⟩ := Prod.mk.inj (pure_eq_ok.mp hrest)
      exact ⟨hearned, rfl⟩

theorem addDepositClaimables_nothing {acc : List Asset × Nat}
    (paid : deposit.amount ≠ 0 → env.blockTime ≤ deposit.paidUntil)
    (before : Nothing acc.1 ∧ acc.2 = 0)
    (done : addDepositClaimables s config schedule env events delegatedTo delegated total rate acc
      deposit = .ok (claims, interest)) : Nothing claims ∧ interest = 0 := by
  simp only [addDepositClaimables, bind_eq_ok, Uint128.add_eq_ok] at done
  obtain ⟨⟨earned, accrued⟩, hearned, sum, ⟨-, hsum⟩, added, hadded, hmade⟩ := done
  obtain ⟨rfl, rfl⟩ := Prod.mk.inj (pure_eq_ok.mp hmade)
  obtain ⟨hnothing, hzero⟩ := getDepositClaimables_nothing paid hearned
  refine ⟨?_, by dsimp only at hsum; omega⟩
  refine foldlM_keeps_mem Nothing _ _ _ ?_ before.1 hadded
  intro mid claim mid' mem hmid step
  exact addClaim_nothing hmid (hnothing claim mem) step

theorem getUserClaimables_nothing {user : Addr} (paid : PaidUntil env.blockTime user s)
    (done : getUserClaimables env user s = .ok (s', claims, interest)) :
    Nothing claims ∧ interest = 0 := by
  have hfilter : ∀ {all : List Asset}, Nothing all →
      Nothing (all.filter fun claim => claim.amount ≠ 0) :=
    fun hall claim mem => hall claim (List.mem_filter.mp mem).1
  unfold getUserClaimables at done
  dsimp only at done
  split at done
  · simp only [claimDeposits, bind_eq_ok] at done
    obtain ⟨total, -, ⟨earned, accrued⟩, hearned, hrest⟩ := done
    have hnothing : Nothing earned ∧ accrued = 0 := by
      refine foldlM_keeps_mem (fun acc : List Asset × Nat => Nothing acc.1 ∧ acc.2 = 0) _ _ _ ?_
        ⟨fun _ mem => absurd mem List.not_mem_nil, rfl⟩ hearned
      intro acc deposit acc' mem hbefore step
      exact addDepositClaimables_nothing (paid.deposits deposit mem) hbefore step
    split at hrest
    · obtain ⟨-, rfl, rfl⟩ := hrest
      exact hnothing
    · rw [bind_eq_ok] at hrest
      obtain ⟨mid, -, hmade⟩ := hrest
      cases pure_eq_ok.mp hmade
      exact ⟨hfilter hnothing.1, hnothing.2⟩
  · rename_i hempty
    split at done
    · rename_i hvesting
      simp only [claimVesting, bind_eq_ok] at done
      obtain ⟨total, -, ⟨earned, accrued⟩, hearned, hmade⟩ := done
      cases pure_eq_ok.mp hmade
      refine ⟨hfilter (getDepositClaimables_nothing ?_ hearned).1, rfl⟩
      exact fun _ => paid.vesting (not_not.mp hempty) hvesting
    · cases pure_eq_ok.mp done
      exact ⟨fun _ mem => absurd mem List.not_mem_nil, rfl⟩

end Claims

/-! ## What keeps it paid -/

section Keeping

variable {s s' : State} {deps : Deps} {env : Env} {info : MessageInfo} {user sender : Addr}

theorem PaidUntil.of_same {t : Nat} (paid : PaidUntil t user s)
    (staked : s'.depositsOf user = s.depositsOf user)
    (vesting : s'.config.vestingContract = s.config.vestingContract)
    (time : s.vestingStakeTime ≤ s'.vestingStakeTime ∨ t ≤ s'.vestingStakeTime) :
    PaidUntil t user s' := by
  refine ⟨staked ▸ paid.deposits, fun hempty hvesting => ?_⟩
  have hpaid := paid.vesting (staked ▸ hempty) (vesting ▸ hvesting)
  omega

theorem PaidUntil.of_sameStake {t : Nat} (paid : PaidUntil t user s) (same : SameStake s s') :
    PaidUntil t user s' :=
  paid.of_same (depositsOf_of_staked same.staked) (by rw [same.config])
    (.inl (by rw [same.vestingTime]))

theorem addStakingDeposit_paid {config : Config} {amount : Nat}
    (paid : PaidUntil env.blockTime user s)
    (done : addStakingDeposit env config sender amount s = .ok s') :
    PaidUntil env.blockTime user s' := by
  obtain rfl := addStakingDeposit_spec done
  by_cases hsame : user = sender
  · subst hsame
    have hdeposits : State.depositsOf { s.saveStaked user
          (s.depositsOf user ++ [⟨user, amount, env.blockTime, none, none⟩]) with
        stakingTotals := s.stakingTotals.plus config.vestingContract user amount } user =
        s.depositsOf user ++ [⟨user, amount, env.blockTime, none, none⟩] := depositsOf_save_same
    refine ⟨fun deposit mem => ?_, fun hempty => ?_⟩
    · rw [hdeposits, stakedOf_append] at mem
      rcases List.mem_append.mp mem with hold | hnew
      · exact paid.deposits deposit hold
      · obtain rfl := List.mem_singleton.mp hnew
        exact fun _ => Nat.le_refl _
    · rw [hdeposits] at hempty
      exact absurd hempty (by simp)
  · exact paid.of_same (depositsOf_save_ne hsame) rfl (.inl (Nat.le_refl _))

theorem createRewardsMsgs_paid {config : Config} {claims : List Asset} {interest : Nat}
    {coins : List Coin} {msgs : List (CosmosMsg OutMsg)} (paid : PaidUntil env.blockTime user s)
    (done : createRewardsMsgs deps env config claims interest sender coins s = .ok (s', msgs)) :
    PaidUntil env.blockTime user s' := by
  obtain ⟨mid, hsame, -, rfl | ⟨amount, hadd⟩⟩ := createRewardsMsgs_spec done
  · exact paid.of_sameStake hsame
  · exact addStakingDeposit_paid (paid.of_sameStake hsame) hadd

theorem Claimed.paidUntil (claimed : Claimed env user s s') : PaidUntil env.blockTime user s' := by
  refine ⟨fun deposit mem _ => (claimed.paid deposit mem).ge, fun hempty hvesting => ?_⟩
  rcases claimed.depositsOf_self with ⟨hnone, -⟩ | ⟨-, hcondensed⟩
  · exact (claimed.vestingPaid hnone (claimed.vesting ▸ hvesting)).ge
  · rw [hcondensed] at hempty
    exact absurd hempty (by simp [condensed])

theorem PaidUntil.of_claimed (paid : PaidUntil env.blockTime user s)
    (claimed : Claimed env sender s s') : PaidUntil env.blockTime user s' := by
  by_cases hsame : user = sender
  · exact hsame ▸ claimed.paidUntil
  · refine paid.of_same (claimed.depositsOf_ne hsame) claimed.vesting ?_
    rcases claimed.vestingTime with htime | htime
    · exact .inl htime.ge
    · exact .inr htime.ge

theorem ClaimedAndSent.paid {recipient : Addr} (paid : PaidUntil env.blockTime user s)
    (claimed : ClaimedAndSent deps env sender recipient s s') :
    PaidUntil env.blockTime user s' := by
  obtain ⟨mid, claims, interest, sent, msgs, hclaim, hpay⟩ := claimed
  exact createRewardsMsgs_paid (paid.of_claimed (getUserClaimables_claimed hclaim)) hpay

theorem ClaimedAndSent.paidUntil {recipient : Addr}
    (claimed : ClaimedAndSent deps env user recipient s s') : PaidUntil env.blockTime user s' := by
  obtain ⟨mid, claims, interest, sent, msgs, hclaim, hpay⟩ := claimed
  exact createRewardsMsgs_paid (getUserClaimables_claimed hclaim).paidUntil hpay

/-! ## Unstaking and restaking -/

def unreached : Nat → List StakeDeposit → List StakeDeposit
  | _, [] => []
  | 0, deposits => deposits
  | amount + 1, deposit :: rest => unreached (amount + 1 - deposit.amount) rest

theorem unreached_zero {deposits : List StakeDeposit} : unreached 0 deposits = deposits := by
  cases deposits <;> rfl

theorem unreached_cons {amount : Nat} {deposit : StakeDeposit} {rest : List StakeDeposit}
    (some : amount ≠ 0) :
    unreached amount (deposit :: rest) = unreached (amount - deposit.amount) rest := by
  cases amount with
  | zero => exact absurd rfl some
  | succ amount => rfl

theorem unreached_subset : ∀ {deposits : List StakeDeposit} {amount : Nat},
    unreached amount deposits ⊆ deposits := by
  intro deposits
  induction deposits with
  | nil =>
    intro amount
    cases amount <;> exact fun _ mem => mem
  | cons deposit rest ih =>
    intro amount
    cases amount with
    | zero => exact fun _ mem => mem
    | succ amount => exact fun _ mem => List.mem_cons_of_mem _ (ih mem)

theorem unstakeDeposit_amount {blockTime : Nat} {u : Unstaking} {deposit : StakeDeposit}
    (staked : deposit.unstakeStartTime = none) :
    (unstakeDeposit blockTime u deposit).withdrawalAmount = u.withdrawalAmount -
      deposit.amount := by
  unfold unstakeDeposit
  split
  · simp only [staked, if_true]
    omega
  · split
    · rfl
    · dsimp only
      omega

theorem unstakeDeposit_left {blockTime : Nat} {u : Unstaking} {deposit d : StakeDeposit}
    (staked : deposit.unstakeStartTime = none)
    (mem : d ∈ stakedOf ((unstakeDeposit blockTime u deposit).deposits ++
      (unstakeDeposit blockTime u deposit).returning)) :
    d ∈ stakedOf (u.deposits ++ u.returning) ∨ d.lastAccrued = some blockTime ∨
      (u.withdrawalAmount = 0 ∧ d = deposit) := by
  obtain ⟨hmem, hstaked⟩ := mem_stakedOf.mp mem
  have hold : d ∈ u.deposits ++ u.returning → d ∈ stakedOf (u.deposits ++ u.returning) :=
    fun h => mem_stakedOf.mpr ⟨h, hstaked⟩
  unfold unstakeDeposit at hmem
  split at hmem
  · simp only [staked, if_true, List.mem_append, List.mem_singleton] at hmem
    rcases hmem with (h | rfl) | h | rfl
    · exact .inl (hold (List.mem_append_left _ h))
    · cases hstaked
    · exact .inl (hold (List.mem_append_right _ h))
    · exact .inr (.inl rfl)
  · split at hmem
    · simp only [List.mem_append, List.mem_singleton] at hmem
      rcases hmem with (h | rfl) | h
      · exact .inl (hold (List.mem_append_left _ h))
      · cases hstaked
      · exact .inl (hold (List.mem_append_right _ h))
    · simp only [List.mem_append, List.mem_singleton] at hmem
      rcases hmem with (h | rfl) | h
      · exact .inl (hold (List.mem_append_left _ h))
      · exact .inr (.inr ⟨by omega, rfl⟩)
      · exact .inl (hold (List.mem_append_right _ h))

theorem unstakeDeposits_left (blockTime : Nat) : ∀ (deposits : List StakeDeposit) (u : Unstaking),
    (∀ d ∈ deposits, d.unstakeStartTime = none) →
    ∀ d ∈ stakedOf ((deposits.foldl (unstakeDeposit blockTime) u).deposits ++
        (deposits.foldl (unstakeDeposit blockTime) u).returning),
      d ∈ stakedOf (u.deposits ++ u.returning) ∨ d.lastAccrued = some blockTime ∨
        d ∈ unreached u.withdrawalAmount deposits := by
  intro deposits
  induction deposits with
  | nil =>
    intro u _ d mem
    exact .inl mem
  | cons deposit rest ih =>
    intro u staked d mem
    have hstaked := staked deposit List.mem_cons_self
    rw [List.foldl_cons] at mem
    rcases ih _ (fun d hd => staked d (List.mem_cons_of_mem _ hd)) d mem with hthere | hnow | hrest
    · rcases unstakeDeposit_left hstaked hthere with hold | hnow | ⟨hzero, rfl⟩
      · exact .inl hold
      · exact .inr (.inl hnow)
      · rw [hzero, unreached_zero]
        exact .inr (.inr List.mem_cons_self)
    · exact .inr (.inl hnow)
    · rw [unstakeDeposit_amount hstaked] at hrest
      by_cases hzero : u.withdrawalAmount = 0
      · rw [hzero, unreached_zero]
        exact .inr (.inr (List.mem_cons_of_mem _ (unreached_subset hrest)))
      · rw [unreached_cons hzero]
        exact .inr (.inr hrest)

theorem unstakedFrom_mem {blockTime amount : Nat} {deposits : List StakeDeposit} {d : StakeDeposit}
    (mem : d ∈ stakedOf (unstakedFrom blockTime amount deposits).left) :
    d.lastAccrued = some blockTime ∨ d ∈ unreached amount (stakedOf deposits) := by
  obtain ⟨hmem, hstaked⟩ := mem_stakedOf.mp mem
  have hall : d ∈ stakedOf ((unstakedFrom blockTime amount deposits).deposits ++
      (unstakedFrom blockTime amount deposits).returning) := by
    refine mem_stakedOf.mpr ⟨?_, hstaked⟩
    rcases List.mem_append.mp hmem with h | h
    · exact List.mem_append_left _ (List.mem_filter.mp h).1
    · exact List.mem_append_right _ h
  rcases unstakeDeposits_left blockTime (stakedOf deposits) ⟨[], [], amount⟩
    (fun d mem => (mem_stakedOf.mp mem).2) d hall with hnone | hleft
  · exact absurd hnone List.not_mem_nil
  · exact hleft

theorem withdrawFromState_paid {amount interest withdrawable : Nat} {claims : List Asset}
    (isStaker : s.config.vestingContract ≠ some user)
    (paid : ∀ deposit ∈ unreached (amount - withdrawable) (stakedOf (s.depositsOf user)),
      deposit.amount ≠ 0 → env.blockTime ≤ deposit.paidUntil)
    (done : withdrawFromState env user amount s = .ok (s', claims, interest, withdrawable)) :
    PaidUntil env.blockTime user s' := by
  obtain ⟨mid, unstaking, hclaim, hunstaking, hall, rfl⟩ := withdrawFromState_spec done
  have hclaimed := getUserClaimables_claimed hclaim
  refine ⟨fun deposit mem some => ?_, fun _ hvesting => ?_⟩
  · rw [depositsOf_save_same, stakedOf_append,
      stakedOf_unstaking fun d mem => (hunstaking d mem).2, List.nil_append] at mem
    rcases unstakedFrom_mem mem with hnow | hleft
    · rw [StakeDeposit.paidUntil, hnow]
      exact Nat.le_refl _
    · exact paid deposit hleft some
  · exact absurd (hclaimed.vesting ▸ hvesting) isStaker

theorem PaidUntil.of_withdrawal {amount interest withdrawable : Nat} {claims : List Asset}
    (paid : PaidUntil env.blockTime user s) (ne : user ≠ sender)
    (done : withdrawFromState env sender amount s = .ok (s', claims, interest, withdrawable)) :
    PaidUntil env.blockTime user s' := by
  obtain ⟨mid, unstaking, hclaim, -, -, rfl⟩ := withdrawFromState_spec done
  exact (paid.of_claimed (getUserClaimables_claimed hclaim)).of_same (depositsOf_save_ne ne) rfl
    (.inl (Nat.le_refl _))

theorem restakeDeposits_mem (blockTime : Nat) :
    ∀ (deposits : List StakeDeposit) (acc : List StakeDeposit × Nat),
    ∀ d ∈ stakedOf (deposits.foldl (restakeDeposit blockTime) acc).1,
      d ∈ stakedOf acc.1 ∨ d.lastAccrued = some blockTime ∨ d ∈ stakedOf deposits := by
  intro deposits
  induction deposits with
  | nil =>
    intro acc d mem
    exact .inl mem
  | cons deposit rest ih =>
    intro acc d mem
    have hkept : d ∈ stakedOf rest → d ∈ stakedOf (deposit :: rest) := fun h =>
      mem_stakedOf.mpr ⟨List.mem_cons_of_mem _ (mem_stakedOf.mp h).1, (mem_stakedOf.mp h).2⟩
    rw [List.foldl_cons] at mem
    rcases ih _ d mem with hthere | hnow | hrest
    · unfold restakeDeposit at hthere
      split at hthere
      · rw [stakedOf_append] at hthere
        rcases List.mem_append.mp hthere with hold | hnew
        · exact .inl hold
        · obtain rfl := List.mem_singleton.mp (mem_stakedOf.mp hnew).1
          exact .inr (.inl rfl)
      · rw [stakedOf_append] at hthere
        rcases List.mem_append.mp hthere with hold | hnew
        · exact .inl hold
        · obtain rfl := List.mem_singleton.mp (mem_stakedOf.mp hnew).1
          exact .inr (.inr (mem_stakedOf.mpr ⟨List.mem_cons_self, (mem_stakedOf.mp hnew).2⟩))
    · exact .inr (.inl hnow)
    · exact .inr (.inr (hkept hrest))

theorem restakeDeposits_length (blockTime : Nat) :
    ∀ (deposits : List StakeDeposit) (acc : List StakeDeposit × Nat),
    (deposits.foldl (restakeDeposit blockTime) acc).1.length = acc.1.length + deposits.length := by
  intro deposits
  induction deposits with
  | nil =>
    intro acc
    rfl
  | cons deposit rest ih =>
    intro acc
    have hone : (restakeDeposit blockTime acc deposit).1.length = acc.1.length + 1 := by
      unfold restakeDeposit
      split <;> simp
    rw [List.foldl_cons, ih, hone, List.length_cons]
    omega

theorem restake_paidUntil {amount : Nat} {msgs : List (CosmosMsg OutMsg)}
    (paid : ∀ deposit ∈ stakedOf (s.depositsOf info.sender), deposit.amount ≠ 0 →
      env.blockTime ≤ deposit.paidUntil)
    (done : restake deps env info amount s = .ok (s', msgs)) :
    PaidUntil env.blockTime info.sender s' := by
  obtain ⟨mid, claims, interest, restaked, left, hclaim, hloop, hpay⟩ := restake_spec done
  have hclaimed := getUserClaimables_claimed hclaim
  have hsaved : PaidUntil env.blockTime info.sender (mid.saveStaked info.sender restaked) := by
    refine ⟨fun deposit mem some => ?_, fun hempty hvesting => ?_⟩
    · rw [depositsOf_save_same] at mem
      have hfrom := restakeDeposits_mem env.blockTime (s.depositsOf info.sender) ([], amount)
      rw [hloop] at hfrom
      rcases hfrom deposit mem with hnone | hnow | hold
      · exact absurd hnone List.not_mem_nil
      · rw [StakeDeposit.paidUntil, hnow]
        exact Nat.le_refl _
      · exact paid deposit hold some
    · rw [depositsOf_save_same] at hempty
      have hlength := restakeDeposits_length env.blockTime (s.depositsOf info.sender) ([], amount)
      rw [hloop, hempty] at hlength
      have hnone : s.depositsOf info.sender = [] :=
        List.length_eq_zero_iff.mp (by simpa using hlength.symm)
      exact (hclaimed.vestingPaid hnone (hclaimed.vesting ▸ hvesting)).ge
  refine createRewardsMsgs_paid (hsaved.of_same (depositsOf_of_staked ?_) ?_ (.inl ?_)) hpay
  · rfl
  · rfl
  · exact Nat.le_refl _

theorem PaidUntil.of_restake {amount : Nat} {msgs : List (CosmosMsg OutMsg)}
    (paid : PaidUntil env.blockTime user s) (ne : user ≠ info.sender)
    (done : restake deps env info amount s = .ok (s', msgs)) : PaidUntil env.blockTime user s' := by
  obtain ⟨mid, claims, interest, restaked, left, hclaim, -, hpay⟩ := restake_spec done
  have hmid := paid.of_claimed (getUserClaimables_claimed hclaim)
  have hsaved : PaidUntil env.blockTime user (mid.saveStaked info.sender restaked) :=
    hmid.of_same (depositsOf_save_ne ne) rfl (.inl (Nat.le_refl _))
  refine createRewardsMsgs_paid (hsaved.of_same (depositsOf_of_staked ?_) ?_ (.inl ?_)) hpay
  · rfl
  · rfl
  · exact Nat.le_refl _

theorem unstake_after {request : Option Nat} {msgs : List (CosmosMsg OutMsg)}
    (done : unstake deps env info request s = .ok (s', msgs))
    (withdrawal : ∀ amount withdrawable withdrawn claims interest,
      amount = min (request.getD (heldIn (s.depositsOf info.sender)))
        (heldIn (s.depositsOf info.sender)) →
      withdrawable = maturedIn s.config env.blockTime (s.depositsOf info.sender) →
      withdrawFromState env info.sender amount s = .ok (withdrawn, claims, interest, withdrawable) →
      PaidUntil env.blockTime user withdrawn) : PaidUntil env.blockTime user s' := by
  obtain ⟨amount, withdrawable, interest, claims, coins, withdrawn, undelegated, paid, totals,
    hamount, hwithdraw, -, hsame, hpay, -, rfl⟩ := unstake_spec done
  have hpaid := withdrawal amount withdrawable withdrawn claims interest hamount
    (withdrawFromState_matured hwithdraw) hwithdraw
  exact (createRewardsMsgs_paid (hpaid.of_sameStake hsame) hpay).of_same
    (depositsOf_of_staked rfl) rfl (.inl (Nat.le_refl _))

end Keeping

/-! ## Runs -/

def newlyUnstaked (s : State) (env : Env) (sender : Addr) (request : Option Nat) : Nat :=
  min (request.getD (heldIn (s.depositsOf sender))) (heldIn (s.depositsOf sender)) -
    maturedIn s.config env.blockTime (s.depositsOf sender)

/-- Whether a message pays the sender's stake up to now. A restake puts the staked deposits back as
    they were, and an unstake those that it does not reach. -/
def Call.Pays (s : State) (call : Call) : Prop :=
  match call.msg with
  | .claimRewards _ _ => True
  | .updateDelegations update => update.delegate ≠ none ∧ update.governatorAddr ≠ none
  | .delegateFluidDelegations _ _ => True
  | .restake _ => ∀ deposit ∈ stakedOf (s.depositsOf call.info.sender), deposit.amount ≠ 0 →
      call.env.blockTime ≤ deposit.paidUntil
  | .unstake request => s.config.vestingContract ≠ some call.info.sender ∧
      ∀ deposit ∈ unreached (newlyUnstaked s call.env call.info.sender request)
        (stakedOf (s.depositsOf call.info.sender)), deposit.amount ≠ 0 →
          call.env.blockTime ≤ deposit.paidUntil
  | _ => False

/-- Whether a message is sent at a time, keeps which address is the vesting contract and is no
    unstake of the vesting contract. -/
def Call.IsAt (t : Nat) (s : State) (call : Call) : Prop :=
  call.env.blockTime = t ∧
    match call.msg with
    | .updateConfig update =>
      update.vestingContract.or s.config.vestingContract = s.config.vestingContract
    | .unstake _ => s.config.vestingContract ≠ some call.info.sender
    | _ => True

instance (t : Nat) (s : State) : ∀ call : Call, Decidable (call.IsAt t s)
  | ⟨_, _, _, .updateConfig _⟩ => inferInstanceAs (Decidable (_ = _ ∧ _ = _))
  | ⟨_, _, _, .unstake _⟩ => inferInstanceAs (Decidable (_ = _ ∧ _ ≠ _))
  | ⟨_, _, _, .stake _⟩ => inferInstanceAs (Decidable (_ = _ ∧ True))
  | ⟨_, _, _, .restake _⟩ => inferInstanceAs (Decidable (_ = _ ∧ True))
  | ⟨_, _, _, .claimRewards _ _⟩ => inferInstanceAs (Decidable (_ = _ ∧ True))
  | ⟨_, _, _, .updateDelegations _⟩ => inferInstanceAs (Decidable (_ = _ ∧ True))
  | ⟨_, _, _, .delegateFluidDelegations _ _⟩ => inferInstanceAs (Decidable (_ = _ ∧ True))
  | ⟨_, _, _, .depositFee⟩ => inferInstanceAs (Decidable (_ = _ ∧ True))
  | ⟨_, _, _, .trimFeeEvents⟩ => inferInstanceAs (Decidable (_ = _ ∧ True))

section Runs

variable {s s' : State} {call : Call} {user : Addr}

theorem steps_pays (pays : call.Pays s) (step : Steps s call s') :
    PaidUntil call.env.blockTime call.info.sender s' := by
  obtain ⟨deps, env, info, msg⟩ := call
  obtain ⟨msgs, done⟩ := steps_iff.mp step
  cases msg with
  | claimRewards sendTo restake =>
    obtain ⟨recipient, hclaimed⟩ := claimRewards_spec done
    exact hclaimed.paidUntil
  | updateDelegations update =>
    obtain ⟨paid, ⟨-, hnone⟩ | hclaimed, hsame⟩ := executeUpdateDelegations_spec done
    · rcases hnone with hnone | hnone
      · exact absurd hnone pays.1
      · exact absurd hnone pays.2
    · exact hclaimed.paidUntil.of_sameStake hsame
  | delegateFluidDelegations governatorAddr amount =>
    obtain ⟨paid, hclaimed, hsame⟩ := delegateFluidDelegations_spec done
    exact hclaimed.paidUntil.of_sameStake hsame
  | restake amount => exact restake_paidUntil pays done
  | unstake request =>
    refine unstake_after done fun amount withdrawable withdrawn claims interest hamount hmatured
      hwithdraw => ?_
    refine withdrawFromState_paid pays.1 ?_ hwithdraw
    rw [hamount, hmatured]
    exact pays.2
  | updateConfig update => exact pays.elim
  | stake recipient => exact pays.elim
  | depositFee => exact pays.elim
  | trimFeeEvents => exact pays.elim

theorem steps_paid {t : Nat} (isAt : call.IsAt t s) (paid : PaidUntil t user s)
    (step : Steps s call s') : PaidUntil t user s' := by
  obtain ⟨deps, env, info, msg⟩ := call
  obtain ⟨msgs, done⟩ := steps_iff.mp step
  obtain ⟨rfl, isAt⟩ := isAt
  dsimp only at paid isAt done ⊢
  cases msg with
  | updateConfig update =>
    obtain ⟨hstaked, -, htime, hvesting⟩ := updateConfig_spec done
    exact paid.of_same (depositsOf_of_staked hstaked) (hvesting.trans isAt) (.inl htime.ge)
  | stake recipient =>
    obtain ⟨staker, amount, hadd⟩ := stake_spec done
    exact addStakingDeposit_paid paid hadd
  | unstake request =>
    refine unstake_after done fun amount withdrawable withdrawn claims interest _ _ hwithdraw => ?_
    by_cases hsender : user = info.sender
    · subst hsender
      exact withdrawFromState_paid isAt
        (fun deposit mem => paid.deposits deposit (unreached_subset mem)) hwithdraw
    · exact paid.of_withdrawal hsender hwithdraw
  | restake amount =>
    by_cases hsender : user = info.sender
    · subst hsender
      exact restake_paidUntil paid.deposits done
    · exact paid.of_restake hsender done
  | claimRewards sendTo restake =>
    obtain ⟨recipient, hclaimed⟩ := claimRewards_spec done
    exact hclaimed.paid paid
  | updateDelegations update =>
    obtain ⟨mid, ⟨rfl, -⟩ | hclaimed, hsame⟩ := executeUpdateDelegations_spec done
    · exact paid.of_sameStake hsame
    · exact (hclaimed.paid paid).of_sameStake hsame
  | delegateFluidDelegations governatorAddr amount =>
    obtain ⟨mid, hclaimed, hsame⟩ := delegateFluidDelegations_spec done
    exact (hclaimed.paid paid).of_sameStake hsame
  | depositFee =>
    obtain ⟨totals, events, -, rfl⟩ := executeDepositFee_spec done
    exact paid.of_same rfl rfl (.inl (Nat.le_refl _))
  | trimFeeEvents =>
    obtain ⟨events, rfl⟩ := trimFeeEvents_spec done
    exact paid.of_same rfl rfl (.inl (Nat.le_refl _))

/-- After a message that pays its sender's stake, whatever else is sent at the same time, a claim of
    that sender at that time pays nothing. -/
theorem paid_once {before start s : State} {call : Call} (first : Steps before call start)
    (pays : call.Pays before)
    (run : RunWhere Steps (fun s next => next.IsAt call.env.blockTime s) start s) :
    ∀ env claimed claims interest, env.blockTime = call.env.blockTime →
      getUserClaimables env call.info.sender s = .ok (claimed, claims, interest) →
      (∀ claim ∈ claims, claim.amount = 0) ∧ interest = 0 := by
  have hkeeps : ∀ s (next : Call) s', PaidUntil call.env.blockTime call.info.sender s →
      next.IsAt call.env.blockTime s → Steps s next s' →
      PaidUntil call.env.blockTime call.info.sender s' :=
    fun _ _ _ paid isAt step => steps_paid isAt paid step
  have hpaid := RunWhere.keeps hkeeps run (steps_pays pays first)
  intro env claimed claims interest htime done
  exact getUserClaimables_nothing (htime ▸ hpaid) done

end Runs

theorem fee_positive : 0 < 1000 := by decide

def sampleFee (time : Nat) : Call :=
  ⟨sampleDeps, ⟨time, "staking"⟩, .oneCoin "cdp" ⟨"cdt", 1000⟩ fee_positive, .depositFee⟩

def sampleEarned : List Call := [sampleStake 10 "ann", sampleFee 20]

/-- The stake is claimed, unstaked in part, restaked and staked again in one block. -/
def sampleBlock : List Call :=
  [sampleCall 86410 "ann" (.unstake (some 500000)), sampleCall 86410 "ann" (.restake 1),
    sampleStake 86410 "ann"]

/-- On the sample chain a claim pays the fee and the interest, and a further claim in the block of
    several messages nothing. -/
theorem paid_once_in_a_block :
    ∃ before start s claimed claims interest,
      execAll Call.exec sampleEarned sampleStart = some before ∧
      (getUserClaimables ⟨86410, "staking"⟩ "ann" before).map Prod.snd =
        .ok ([⟨.nativeToken "cdt", 1000⟩], 493) ∧
      Steps before (sampleCall 86410 "ann" (.claimRewards none false)) start ∧
      execAll (execWhere Call.exec (Call.IsAt 86410)) sampleBlock start = some s ∧
      getUserClaimables ⟨86410, "staking"⟩ "ann" s = .ok (claimed, claims, interest) ∧
      (∀ claim ∈ claims, claim.amount = 0) ∧ interest = 0 := by
  have hreads : ((execAll Call.exec sampleEarned sampleStart).bind fun before =>
      (Call.exec before (sampleCall 86410 "ann" (.claimRewards none false))).bind fun start =>
      (execAll (execWhere Call.exec (Call.IsAt 86410)) sampleBlock start).map fun s =>
        ((getUserClaimables ⟨86410, "staking"⟩ "ann" before).map Prod.snd,
          (getUserClaimables ⟨86410, "staking"⟩ "ann" s).toOption.isSome)) =
      some (.ok ([⟨.nativeToken "cdt", 1000⟩], 493), true) := by
    decide +kernel
  simp only [Option.bind_eq_some_iff, Option.map_eq_some_iff, Prod.mk.injEq] at hreads
  obtain ⟨before, hbefore, start, hstart, s, hrun, hearned, hsome⟩ := hreads
  rcases hdone : getUserClaimables ⟨86410, "staking"⟩ "ann" s with fault | ⟨claimed,
    claims, interest⟩
  · rw [hdone] at hsome
    cases hsome
  · exact ⟨before, start, s, claimed, claims, interest, hbefore, hearned, hstart, hrun, hdone,
      paid_once hstart trivial (execWhere_run (fun _ _ _ h => h) hrun) _ _ _ _ rfl hdone⟩

end Membrane.Staking
