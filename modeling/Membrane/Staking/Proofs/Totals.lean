import Membrane.Lib.Errors
import Membrane.Lib.Traverse
import Membrane.Staking.Proofs.Claims

/-!
# The total of the stake

`STAKING_TOTALS.stakers` is the stake of all addresses but the vesting contract that is not
unstaking. Claims, payments, stakes and unstakes move both by the same amount. A restake counts
what was asked for but restakes deposits whole, so it keeps the two equal only where the deposits
add up to the request.
-/

namespace Membrane.Staking

open Outcome

/-- The stake of addresses other than the vesting contract that is not unstaking. -/
def stakersStake (s : State) : Nat :=
  KeyMap.total stakedIn (match s.config.vestingContract with
    | some vesting => s.staked.erase vesting
    | none => s.staked)

section Writes

variable {s s' : State} {user : Addr} {deposits : List StakeDeposit}

theorem measureAt_staked :
    KeyMap.measureAt stakedIn s.staked user = stakedIn (s.depositsOf user) := by
  unfold KeyMap.measureAt State.depositsOf
  cases s.staked.lookup user <;> rfl

theorem stakersStake_of_same (vesting : s'.config.vestingContract = s.config.vestingContract)
    (staked : s'.staked = s.staked) : stakersStake s' = stakersStake s := by
  rw [stakersStake, stakersStake, vesting, staked]

theorem stakersStake_vesting (vesting : s'.config.vestingContract = s.config.vestingContract)
    (staked : s'.staked = s.staked.insert user deposits)
    (isVesting : s.config.vestingContract = some user) : stakersStake s' = stakersStake s := by
  rw [stakersStake, stakersStake, vesting, isVesting, staked]
  exact congrArg (KeyMap.total stakedIn) (KeyMap.erase_insert s.staked user deposits)

theorem stakersStake_write (vesting : s'.config.vestingContract = s.config.vestingContract)
    (staked : s'.staked = s.staked.insert user deposits)
    (isStaker : s.config.vestingContract ≠ some user) :
    stakersStake s' + stakedIn (s.depositsOf user) = stakersStake s + stakedIn deposits := by
  have hinsert := KeyMap.total_insert stakedIn s.staked user deposits
  rw [measureAt_staked] at hinsert
  rw [stakersStake, stakersStake, vesting, staked]
  cases hv : s.config.vestingContract with
  | none => exact hinsert
  | some contract =>
    have hne : contract ≠ user := fun h => isStaker (h ▸ hv)
    have hold := KeyMap.total_erase stakedIn s.staked contract
    have hnew := KeyMap.total_erase stakedIn (s.staked.insert user deposits) contract
    rw [KeyMap.measureAt_insert, if_neg hne] at hnew
    dsimp only
    omega

theorem stakedIn_le_stakersStake (isStaker : s.config.vestingContract ≠ some user) :
    stakedIn (s.depositsOf user) ≤ stakersStake s := by
  rw [← measureAt_staked, stakersStake]
  cases hv : s.config.vestingContract with
  | none => exact KeyMap.measureAt_le_total stakedIn s.staked user
  | some contract =>
    have hne : user ≠ contract := fun h => isStaker (h ▸ hv)
    have hle := KeyMap.measureAt_le_total stakedIn (s.staked.erase contract) user
    rwa [KeyMap.measureAt, AList.lookup_erase_ne hne] at hle

theorem stakersStake_keep (vesting : s'.config.vestingContract = s.config.vestingContract)
    (staked : s'.staked = s.staked.insert user deposits)
    (same : stakedIn deposits = stakedIn (s.depositsOf user)) :
    stakersStake s' = stakersStake s := by
  by_cases hv : s.config.vestingContract = some user
  · exact stakersStake_vesting vesting staked hv
  · have h := stakersStake_write vesting staked hv
    omega

theorem stakersStake_save_vesting (isVesting : s.config.vestingContract = some user) :
    stakersStake (s.saveStaked user deposits) = stakersStake s := by
  refine @stakersStake_vesting s _ user deposits ?_ ?_ isVesting
  · rfl
  · rfl

theorem stakersStake_save (isStaker : s.config.vestingContract ≠ some user) :
    stakersStake (s.saveStaked user deposits) + stakedIn (s.depositsOf user) =
      stakersStake s + stakedIn deposits := by
  refine stakersStake_write ?_ ?_ isStaker
  · rfl
  · rfl

end Writes

/-! ## Even moves -/

structure Even (s s' : State) : Prop where
  vesting : s'.config.vestingContract = s.config.vestingContract
  even : s'.stakingTotals.stakers + stakersStake s = s.stakingTotals.stakers + stakersStake s'

namespace Even

variable {s s' s'' : State}

theorem trans (first : Even s s') (second : Even s' s'') : Even s s'' := by
  refine ⟨second.vesting.trans first.vesting, ?_⟩
  have h := first.even
  have h' := second.even
  omega

theorem of_same (vesting : s'.config.vestingContract = s.config.vestingContract)
    (staked : s'.staked = s.staked) (totals : s'.stakingTotals.stakers = s.stakingTotals.stakers) :
    Even s s' := by
  refine ⟨vesting, ?_⟩
  rw [totals, stakersStake_of_same vesting staked]

theorem of_sameStake (same : SameStake s s') : Even s s' :=
  of_same (by rw [same.config]) same.staked (by rw [same.totals])

theorem balanced (moved : Even s s') (balanced : s.stakingTotals.stakers = stakersStake s) :
    s'.stakingTotals.stakers = stakersStake s' := by
  have h := moved.even
  omega

end Even

section Moves

variable {s s' : State} {deps : Deps} {env : Env} {config : Config} {user : Addr}

theorem Claimed.even (claimed : Claimed env user s s') : Even s s' := by
  refine ⟨claimed.vesting, ?_⟩
  rw [claimed.totals]
  rcases claimed.staked with ⟨-, hstaked⟩ | ⟨-, hstaked⟩
  · rw [stakersStake_of_same claimed.vesting hstaked]
  · rw [stakersStake_keep claimed.vesting hstaked stakedIn_condensed]

theorem addStakingDeposit_even {amount : Nat}
    (vesting : config.vestingContract = s.config.vestingContract)
    (done : addStakingDeposit env config user amount s = .ok s') : Even s s' := by
  have hspec := addStakingDeposit_spec done
  have hvesting : s'.config.vestingContract = s.config.vestingContract := by rw [hspec]; rfl
  have hstaked : s'.staked = s.staked.insert user
      (s.depositsOf user ++ [⟨user, amount, env.blockTime, none, none⟩]) := by rw [hspec]; rfl
  have htotals : s'.stakingTotals = s.stakingTotals.plus s.config.vestingContract user amount := by
    rw [hspec, ← vesting]
  refine ⟨hvesting, ?_⟩
  rw [htotals, Totals.plus]
  by_cases hv : s.config.vestingContract = some user
  · rw [if_pos hv, stakersStake_vesting hvesting hstaked hv]
  · have hwrite := stakersStake_write hvesting hstaked hv
    rw [stakedIn_append, stakedIn_single rfl] at hwrite
    rw [if_neg hv]
    dsimp only at hwrite ⊢
    omega

theorem createRewardsMsgs_even {claims : List Asset} {interest : Nat} {coins : List Coin}
    {msgs : List (CosmosMsg OutMsg)}
    (vesting : config.vestingContract = s.config.vestingContract)
    (done : createRewardsMsgs deps env config claims interest user coins s = .ok (s', msgs)) :
    Even s s' := by
  obtain ⟨mid, hsame, -, rfl | ⟨amount, hadd⟩⟩ := createRewardsMsgs_spec done
  · exact .of_sameStake hsame
  · exact (Even.of_sameStake hsame).trans (addStakingDeposit_even (hsame.config ▸ vesting) hadd)

theorem createRewardsMsgs_totals {claims : List Asset} {interest : Nat} {coins : List Coin}
    {msgs : List (CosmosMsg OutMsg)}
    (done : createRewardsMsgs deps env config claims interest user coins s = .ok (s', msgs)) :
    s.stakingTotals.stakers ≤ s'.stakingTotals.stakers := by
  obtain ⟨mid, hsame, -, rfl | ⟨amount, hadd⟩⟩ := createRewardsMsgs_spec done
  · rw [hsame.totals]
  · rw [addStakingDeposit_spec hadd, ← hsame.totals]
    dsimp only
    unfold Totals.plus
    split
    · exact Nat.le_refl _
    · exact Nat.le_add_right _ _

end Moves

/-! ## Unstaking -/

/-- The deposits of the loop and the parts that stay staked. -/
def Unstaking.stake (u : Unstaking) : Nat := stakedIn u.deposits + stakedIn u.returning

section Unstaking

variable {blockTime : Nat} {u : Unstaking} {deposit : StakeDeposit} {deposits : List StakeDeposit}

theorem unstakeDeposit_stake (blockTime : Nat) (u : Unstaking)
    (staked : deposit.unstakeStartTime = none) :
    (unstakeDeposit blockTime u deposit).stake + u.withdrawalAmount =
      u.stake + deposit.amount + (unstakeDeposit blockTime u deposit).withdrawalAmount := by
  unfold unstakeDeposit Unstaking.stake
  split
  · rename_i hpart
    simp only [staked, if_true, stakedIn_append]
    rw [stakedIn_cons_unstaking (by simp), stakedIn_nil, stakedIn_single rfl]
    dsimp only
    omega
  · split
    · rename_i hwhole
      simp only [stakedIn_append]
      rw [stakedIn_cons_unstaking (by simp), stakedIn_nil]
      omega
    · dsimp only
      rw [stakedIn_append, stakedIn_single staked]
      omega

theorem unstakeDeposits_stake (blockTime : Nat) : ∀ {deposits : List StakeDeposit} (u : Unstaking),
    (∀ deposit ∈ deposits, deposit.unstakeStartTime = none) →
    (deposits.foldl (unstakeDeposit blockTime) u).stake + u.withdrawalAmount =
      u.stake + stakedIn deposits +
        (deposits.foldl (unstakeDeposit blockTime) u).withdrawalAmount := by
  intro deposits
  induction deposits with
  | nil =>
    intro u _
    rfl
  | cons deposit rest ih =>
    intro u staked
    have hone := unstakeDeposit_stake blockTime u (staked deposit List.mem_cons_self)
    have hrest := ih (unstakeDeposit blockTime u deposit)
      fun d mem => staked d (List.mem_cons_of_mem _ mem)
    rw [List.foldl_cons, stakedIn_cons_staked (staked deposit List.mem_cons_self)]
    omega

theorem stakedIn_stakedOf : stakedIn (stakedOf deposits) = stakedIn deposits := by
  rw [stakedIn, stakedIn, stakedOf, stakedOf, List.filter_filter]
  simp only [Bool.and_self]

theorem stakedIn_filter_ne_zero : ∀ {deposits : List StakeDeposit},
    stakedIn (deposits.filter fun deposit => deposit.amount ≠ 0) = stakedIn deposits := by
  intro deposits
  induction deposits with
  | nil => rfl
  | cons deposit rest ih =>
    rw [List.filter_cons]
    by_cases hstaked : deposit.unstakeStartTime = none
    · rw [stakedIn_cons_staked hstaked]
      split
      · rw [stakedIn_cons_staked hstaked, ih]
      · rename_i hzero
        have : deposit.amount = 0 := by simpa using hzero
        omega
    · rw [stakedIn_cons_unstaking hstaked]
      split
      · rw [stakedIn_cons_unstaking hstaked, ih]
      · exact ih

theorem unstakedFrom_left {amount : Nat} (deposits : List StakeDeposit)
    (done : (unstakedFrom blockTime amount deposits).withdrawalAmount = 0) :
    stakedIn (unstakedFrom blockTime amount deposits).left + amount = stakedIn deposits := by
  have hfold := unstakeDeposits_stake blockTime ⟨[], [], amount⟩
    fun d (mem : d ∈ stakedOf deposits) => (mem_stakedOf.mp mem).2
  rw [stakedIn_stakedOf] at hfold
  rw [Unstaking.left, stakedIn_append, stakedIn_filter_ne_zero]
  unfold unstakedFrom at done ⊢
  rw [done] at hfold
  simp only [Unstaking.stake, stakedIn_nil] at hfold
  omega

end Unstaking

section Unstake

variable {s s' : State} {deps : Deps} {env : Env} {info : MessageInfo} {user : Addr}

theorem withdrawFromState_moves {amount interest withdrawable : Nat} {claims : List Asset}
    (done : withdrawFromState env user amount s = .ok (s', claims, interest, withdrawable)) :
    s'.config.vestingContract = s.config.vestingContract ∧ s'.stakingTotals = s.stakingTotals ∧
      amount - withdrawable ≤ stakedIn (s.depositsOf user) ∧
      stakersStake s' + (if s.config.vestingContract = some user then 0
        else amount - withdrawable) = stakersStake s := by
  obtain ⟨mid, unstaking, hclaim, hunstaking, hall, rfl⟩ := withdrawFromState_spec done
  have hclaimed := getUserClaimables_claimed hclaim
  have hleft := unstakedFrom_left (s.depositsOf user) hall
  refine ⟨hclaimed.vesting, hclaimed.totals, by omega, ?_⟩
  have heven := hclaimed.even.even
  rw [hclaimed.totals] at heven
  split
  · rename_i hv
    rw [stakersStake_save_vesting (hclaimed.vesting.trans hv)]
    omega
  · rename_i hv
    have hwrite := @stakersStake_save mid user (unstaking ++
      (unstakedFrom env.blockTime (amount - withdrawable) (s.depositsOf user)).left)
      fun h => hv (hclaimed.vesting ▸ h)
    have hnone : stakedIn unstaking = 0 := by
      rw [stakedIn, stakedOf_unstaking fun d mem => (hunstaking d mem).2]
      rfl
    have hmid : stakedIn (mid.depositsOf user) = stakedIn (s.depositsOf user) := by
      rcases hclaimed.depositsOf_self with ⟨hempty, hmid⟩ | ⟨-, hmid⟩
      · rw [hempty, hmid]
      · rw [hmid, stakedIn_condensed]
    rw [stakedIn_append, hnone, hmid] at hwrite
    omega

theorem subtractUnstaked_spec {config : Config} {amount : Nat} {totals totals' : Totals}
    (done : subtractUnstaked config user amount totals = .ok totals') :
    totals'.stakers + (if config.vestingContract = some user then 0 else amount) =
      totals.stakers := by
  unfold subtractUnstaked at done
  split at done
  · rename_i hv
    split at done
    · cases pure_eq_ok.mp done
      rw [if_pos hv]
      rfl
    · cases done
  · rename_i hv
    split at done
    · rename_i left hleft
      cases pure_eq_ok.mp done
      rw [if_neg hv]
      have hsub := Uint128.checkedSub_eq_some.mp hleft
      dsimp only
      omega
    · cases done

theorem unstake_even {request : Option Nat} {msgs : List (CosmosMsg OutMsg)}
    (done : unstake deps env info request s = .ok (s', msgs)) : Even s s' := by
  obtain ⟨amount, withdrawable, interest, claims, coins, withdrawn, undelegated, paid, totals,
    -, hwithdraw, -, hsame, hpay, htotals, rfl⟩ := unstake_spec done
  obtain ⟨hvesting, hsameTotals, -, hstake⟩ := withdrawFromState_moves hwithdraw
  have hconfig : undelegated.config.vestingContract = s.config.vestingContract := by
    rw [hsame.config, hvesting]
  have heven := (Even.of_sameStake hsame).trans (createRewardsMsgs_even hconfig.symm hpay)
  have hsubtract := subtractUnstaked_spec htotals
  refine ⟨heven.vesting.trans hvesting, ?_⟩
  have hmoved := heven.even
  rw [hsameTotals] at hmoved
  have hkeep : stakersStake { paid with stakingTotals := totals } = stakersStake paid :=
    stakersStake_of_same rfl rfl
  rw [hkeep]
  dsimp only
  omega

end Unstake

/-! ## Restaking -/

def unstakingAmounts (deposits : List StakeDeposit) : List Nat :=
  (unstakingOf deposits).map StakeDeposit.amount

/-- Whether a request restakes deposits that add up to it: all of them and no more is asked for, or
    the first ones hold as much as is asked for. -/
def RestakesWhole (amounts : List Nat) (restakeAmount : Nat) : Prop :=
  amounts.sum ≤ restakeAmount ∨ ∃ n, (amounts.take n).sum = restakeAmount

theorem exists_take_iff {amounts : List Nat} {total : Nat} :
    (∃ n, (amounts.take n).sum = total) ↔
      ∃ n ∈ List.range (amounts.length + 1), (amounts.take n).sum = total := by
  constructor
  · rintro ⟨n, hsum⟩
    refine ⟨min n amounts.length, List.mem_range.mpr (by omega), ?_⟩
    rwa [List.take_eq_take_min] at hsum
  · rintro ⟨n, -, hsum⟩
    exact ⟨n, hsum⟩

instance (amounts : List Nat) (restakeAmount : Nat) :
    Decidable (RestakesWhole amounts restakeAmount) :=
  decidable_of_iff (amounts.sum ≤ restakeAmount ∨
    ∃ n ∈ List.range (amounts.length + 1), (amounts.take n).sum = restakeAmount)
    (or_congr_right exists_take_iff.symm)

section Restake

variable {s s' : State} {deps : Deps} {env : Env} {info : MessageInfo} {blockTime : Nat}

theorem restakesWhole_zero {amounts : List Nat} : RestakesWhole amounts 0 := .inr ⟨0, rfl⟩

theorem RestakesWhole.le {amount left : Nat} {amounts : List Nat} (some : left ≠ 0)
    (whole : RestakesWhole (amount :: amounts) left) : amount ≤ left := by
  rcases whole with hall | ⟨n, hfirst⟩
  · rw [List.sum_cons] at hall
    omega
  · cases n with
    | zero => exact absurd hfirst.symm some
    | succ n =>
      rw [List.take_succ_cons, List.sum_cons] at hfirst
      omega

theorem RestakesWhole.tail {amount left : Nat} {amounts : List Nat} (some : left ≠ 0)
    (whole : RestakesWhole (amount :: amounts) left) : RestakesWhole amounts (left - amount) := by
  rcases whole with hall | ⟨n, hfirst⟩
  · rw [List.sum_cons] at hall
    exact .inl (by omega)
  · cases n with
    | zero => exact absurd hfirst.symm some
    | succ n =>
      rw [List.take_succ_cons, List.sum_cons] at hfirst
      exact .inr ⟨n, by omega⟩

theorem unstakingAmounts_cons_staked {deposit : StakeDeposit} {deposits : List StakeDeposit}
    (staked : deposit.unstakeStartTime = none) :
    unstakingAmounts (deposit :: deposits) = unstakingAmounts deposits := by
  simp [unstakingAmounts, unstakingOf, staked]

theorem unstakingAmounts_cons_unstaking {deposit : StakeDeposit} {deposits : List StakeDeposit}
    (unstaking : deposit.unstakeStartTime ≠ none) :
    unstakingAmounts (deposit :: deposits) = deposit.amount :: unstakingAmounts deposits := by
  simp [unstakingAmounts, unstakingOf, Option.isSome_iff_ne_none, unstaking]

theorem restakeDeposits_stake (blockTime : Nat) :
    ∀ (deposits : List StakeDeposit) (acc : List StakeDeposit × Nat),
    RestakesWhole (unstakingAmounts deposits) acc.2 →
    stakedIn (deposits.foldl (restakeDeposit blockTime) acc).1 +
        (deposits.foldl (restakeDeposit blockTime) acc).2 =
      stakedIn acc.1 + stakedIn deposits + acc.2 := by
  intro deposits
  induction deposits with
  | nil =>
    intro acc _
    rfl
  | cons deposit rest ih =>
    intro acc whole
    rw [List.foldl_cons]
    by_cases hstaked : deposit.unstakeStartTime = none
    · have hskip : restakeDeposit blockTime acc deposit = (acc.1 ++ [deposit], acc.2) := by
        simp [restakeDeposit, hstaked]
      rw [unstakingAmounts_cons_staked hstaked] at whole
      rw [hskip, ih (acc.1 ++ [deposit], acc.2) whole, stakedIn_append, stakedIn_single hstaked,
        stakedIn_cons_staked hstaked]
      dsimp only
      omega
    · rw [unstakingAmounts_cons_unstaking hstaked] at whole
      by_cases hzero : acc.2 = 0
      · have hskip : restakeDeposit blockTime acc deposit = (acc.1 ++ [deposit], acc.2) := by
          simp [restakeDeposit, hzero]
        have hnone : RestakesWhole (unstakingAmounts rest) acc.2 := hzero ▸ restakesWhole_zero
        rw [hskip, ih (acc.1 ++ [deposit], acc.2) hnone, stakedIn_append,
          stakedIn_cons_unstaking hstaked, stakedIn_nil,
          stakedIn_cons_unstaking hstaked]
        dsimp only
        omega
      · have hle := whole.le hzero
        have hone : restakeDeposit blockTime acc deposit =
            (acc.1 ++ [{ deposit with unstakeStartTime := none, lastAccrued := some blockTime }],
              acc.2 - deposit.amount) := by
          have hleft : (if acc.2 ≤ deposit.amount then 0 else acc.2 - deposit.amount) =
              acc.2 - deposit.amount := by
            split <;> omega
          rw [restakeDeposit, if_pos ⟨hzero, by simpa [Option.isSome_iff_ne_none] using hstaked⟩,
            hleft]
        rw [hone, ih _ (whole.tail hzero), stakedIn_append, stakedIn_single rfl,
          stakedIn_cons_unstaking hstaked]
        dsimp only
        omega

theorem restakeDeposits_none (blockTime : Nat) :
    ∀ (deposits : List StakeDeposit) (acc : List StakeDeposit × Nat),
    acc.2 = 0 ∨ (unstakingAmounts deposits).sum = 0 →
    (deposits.foldl (restakeDeposit blockTime) acc).2 = acc.2 := by
  intro deposits
  induction deposits with
  | nil =>
    intro acc _
    rfl
  | cons deposit rest ih =>
    intro acc none
    rw [List.foldl_cons]
    by_cases hskips : acc.2 = 0 ∨ deposit.unstakeStartTime = .none
    · have hskip : restakeDeposit blockTime acc deposit = (acc.1 ++ [deposit], acc.2) := by
        rcases hskips with hzero | hstaked
        · simp [restakeDeposit, hzero]
        · simp [restakeDeposit, hstaked]
      rw [hskip]
      refine ih _ (none.imp_right fun hsum => ?_)
      by_cases hstaked : deposit.unstakeStartTime = .none
      · rwa [unstakingAmounts_cons_staked hstaked] at hsum
      · rw [unstakingAmounts_cons_unstaking hstaked, List.sum_cons] at hsum
        omega
    · obtain ⟨hsome, hunstaking⟩ := not_or.mp hskips
      have hsum := none.resolve_left hsome
      rw [unstakingAmounts_cons_unstaking hunstaking, List.sum_cons] at hsum
      have hleft : (restakeDeposit blockTime acc deposit).2 = acc.2 := by
        rw [restakeDeposit,
          if_pos ⟨hsome, by simpa [Option.isSome_iff_ne_none] using hunstaking⟩]
        dsimp only
        split <;> omega
      rw [ih _ (.inr (by omega)), hleft]

theorem restakeDeposits_le (blockTime : Nat) :
    ∀ (deposits : List StakeDeposit) (acc : List StakeDeposit × Nat),
    (deposits.foldl (restakeDeposit blockTime) acc).2 ≤ acc.2 := by
  intro deposits
  induction deposits with
  | nil =>
    intro acc
    exact Nat.le_refl _
  | cons deposit rest ih =>
    intro acc
    have hone : (restakeDeposit blockTime acc deposit).2 ≤ acc.2 := by
      unfold restakeDeposit
      split
      · dsimp only
        split <;> omega
      · exact Nat.le_refl _
    exact (ih _).trans hone

/-- Whether a restake counts what it restakes: the deposits add up to the request, and for the
    vesting contract, whose stake is not counted, nothing is restaked. -/
def CountsRestake (s : State) (sender : Addr) (restakeAmount : Nat) : Prop :=
  if s.config.vestingContract = some sender then
    restakeAmount = 0 ∨ (unstakingAmounts (s.depositsOf sender)).sum = 0
  else RestakesWhole (unstakingAmounts (s.depositsOf sender)) restakeAmount

instance (s : State) (sender : Addr) (restakeAmount : Nat) :
    Decidable (CountsRestake s sender restakeAmount) :=
  inferInstanceAs (Decidable (if s.config.vestingContract = some sender then
    restakeAmount = 0 ∨ (unstakingAmounts (s.depositsOf sender)).sum = 0
    else RestakesWhole (unstakingAmounts (s.depositsOf sender)) restakeAmount))

theorem restake_even {amount : Nat} {msgs : List (CosmosMsg OutMsg)}
    (counts : CountsRestake s info.sender amount)
    (done : restake deps env info amount s = .ok (s', msgs)) : Even s s' := by
  obtain ⟨mid, claims, interest, restaked, left, hclaim, hloop, hpay⟩ := restake_spec done
  have hclaimed := getUserClaimables_claimed hclaim
  refine Even.trans ?_ (createRewardsMsgs_even ?_ hpay)
  swap
  · exact hclaimed.vesting.symm
  refine ⟨hclaimed.vesting, ?_⟩
  have heven := hclaimed.even.even
  have hkeep : stakersStake { mid.saveStaked info.sender restaked with
      stakingTotals := { mid.stakingTotals with
        stakers := mid.stakingTotals.stakers + (amount - left) } } =
      stakersStake (mid.saveStaked info.sender restaked) := stakersStake_of_same rfl rfl
  rw [hkeep]
  dsimp only
  have hle := restakeDeposits_le env.blockTime (s.depositsOf info.sender) ([], amount)
  rw [hloop] at hle
  dsimp only at hle
  unfold CountsRestake at counts
  split at counts
  · rename_i hv
    have hnone := restakeDeposits_none env.blockTime _ ([], amount) counts
    rw [hloop] at hnone
    rw [stakersStake_save_vesting (hclaimed.vesting.trans hv)]
    dsimp only at hnone
    omega
  · rename_i hv
    have hstake := restakeDeposits_stake env.blockTime _ ([], amount) counts
    rw [hloop] at hstake
    have hwrite := @stakersStake_save mid info.sender restaked fun h => hv (hclaimed.vesting ▸ h)
    have hmid : stakedIn (mid.depositsOf info.sender) = stakedIn (s.depositsOf info.sender) := by
      rcases hclaimed.depositsOf_self with ⟨hempty, hmid⟩ | ⟨-, hmid⟩
      · rw [hempty, hmid]
      · rw [hmid, stakedIn_condensed]
    rw [hmid] at hwrite
    simp only [stakedIn_nil] at hstake
    omega

end Restake

/-! ## Runs -/

/-- Whether a call keeps the total: it does not change which address is the vesting contract, and a
    restake counts what it restakes. -/
def Call.KeepsTotal (s : State) (call : Call) : Prop :=
  match call.msg with
  | .updateConfig update => update.vestingContract.or s.config.vestingContract =
      s.config.vestingContract
  | .restake amount => CountsRestake s call.info.sender amount
  | _ => True

instance (s : State) : ∀ call : Call, Decidable (call.KeepsTotal s)
  | ⟨_, _, _, .updateConfig _⟩ => inferInstanceAs (Decidable (_ = _))
  | ⟨_, _, _, .restake _⟩ => inferInstanceAs (Decidable (CountsRestake _ _ _))
  | ⟨_, _, _, .stake _⟩ => isTrue trivial
  | ⟨_, _, _, .unstake _⟩ => isTrue trivial
  | ⟨_, _, _, .claimRewards _ _⟩ => isTrue trivial
  | ⟨_, _, _, .updateDelegations _⟩ => isTrue trivial
  | ⟨_, _, _, .delegateFluidDelegations _ _⟩ => isTrue trivial
  | ⟨_, _, _, .depositFee⟩ => isTrue trivial
  | ⟨_, _, _, .trimFeeEvents⟩ => isTrue trivial

section Runs

variable {s s' : State} {deps : Deps} {env : Env} {info : MessageInfo} {call : Call}

theorem ClaimedAndSent.even {user recipient : Addr}
    (claimed : ClaimedAndSent deps env user recipient s s') : Even s s' := by
  obtain ⟨mid, claims, interest, sent, msgs, hclaim, hpay⟩ := claimed
  have hclaimed := getUserClaimables_claimed hclaim
  exact hclaimed.even.trans (createRewardsMsgs_even hclaimed.vesting.symm hpay)

theorem steps_even (keeps : call.KeepsTotal s) (step : Steps s call s') : Even s s' := by
  obtain ⟨deps, env, info, msg⟩ := call
  obtain ⟨msgs, done⟩ := steps_iff.mp step
  cases msg with
  | updateConfig update =>
    obtain ⟨hstaked, htotals, -, hvesting⟩ := updateConfig_spec done
    exact .of_same (hvesting.trans keeps) hstaked (by rw [htotals])
  | stake recipient =>
    obtain ⟨staker, amount, hadd⟩ := stake_spec done
    exact addStakingDeposit_even rfl hadd
  | unstake request => exact unstake_even done
  | restake amount => exact restake_even keeps done
  | claimRewards sendTo restake =>
    obtain ⟨recipient, hclaimed⟩ := claimRewards_spec done
    exact hclaimed.even
  | updateDelegations update =>
    obtain ⟨paid, ⟨rfl, -⟩ | hclaimed, hsame⟩ := executeUpdateDelegations_spec done
    · exact .of_sameStake hsame
    · exact hclaimed.even.trans (.of_sameStake hsame)
  | delegateFluidDelegations governatorAddr amount =>
    obtain ⟨paid, hclaimed, hsame⟩ := delegateFluidDelegations_spec done
    exact hclaimed.even.trans (.of_sameStake hsame)
  | depositFee =>
    obtain ⟨totals, events, htotals, rfl⟩ := executeDepositFee_spec done
    exact .of_same rfl rfl htotals
  | trimFeeEvents =>
    obtain ⟨events, rfl⟩ := trimFeeEvents_spec done
    exact .of_same rfl rfl rfl

theorem genesis_balanced (genesis : Genesis s) : s.stakingTotals.stakers = stakersStake s := by
  obtain ⟨addrValid, env, info, msg, done⟩ := genesis
  simp only [instantiate, bind_eq_ok] at done
  obtain ⟨_, -, vesting, -, _, -, _, -, _, -, _, -, hsave⟩ := done
  cases pure_eq_ok.mp hsave
  cases vesting <;> rfl

/-! ## Accounting errors -/

/-- The error of `unstake` for a total that is less than what is newly unstaked. -/
def AccountingError (e : ContractError) : Prop :=
  ∃ total amount : Nat,
    e = .customError ("Staker total accounting error. Stakers: " ++ toString total ++
      ", Withdraw: " ++ toString amount) ∨
    e = .customError ("Vesting total accounting error. Vesting: " ++ toString total ++
      ", Withdraw: " ++ toString amount)

theorem AccountingError.head {text : String} (isError : AccountingError (.customError text)) :
    text.toList.head? = some 'S' ∨ text.toList.head? = some 'V' := by
  obtain ⟨total, amount, h | h⟩ := isError
  · cases h
    left
    simp [String.toList_append]
  · cases h
    right
    simp [String.toList_append]

theorem not_accountingError_std (e : StdError) : ¬ AccountingError (.std e) := by
  rintro ⟨total, amount, h | h⟩ <;> cases h

theorem not_accountingError {text : String} {c : Char} (first : text.toList.head? = some c)
    (notStaker : c ≠ 'S') (notVesting : c ≠ 'V') : ¬ AccountingError (.customError text) := by
  intro isError
  rcases isError.head with h | h
  · exact notStaker (Option.some.inj (first.symm.trans h))
  · exact notVesting (Option.some.inj (first.symm.trans h))

theorem liftStd_errs {α : Type} (x : Outcome StdError α) :
    ErrsWithin (fun e => ¬ AccountingError e) (liftStd x) :=
  .mapErr not_accountingError_std

theorem canThisAddrUnstake_errs {user : Addr} {config : Config} :
    ErrsWithin (fun e => ¬ AccountingError e) (canThisAddrUnstake deps user config) := by
  refine .bind (.unwrap _) fun governance _ => .bind (liftStd_errs _) fun proposals _ =>
    .bind (.guardErr fun _ => ?_) fun _ _ => .forM (fun proposal => .guardErr fun _ => ?_) _
  · exact not_accountingError (c := 'C') (by simp) (by decide) (by decide)
  · exact not_accountingError (c := 'C') (by simp [String.toList_append]) (by decide) (by decide)

theorem userStake_errs {user : Addr} :
    ErrsWithin (fun e => ¬ AccountingError e) (s.userStake user) :=
  .ofOption (not_accountingError (c := 'U') (by simp) (by decide) (by decide))

theorem subtractUnstaked_errs {amount : Nat} {totals : Totals}
    (isStaker : s.config.vestingContract ≠ some info.sender) (covered : amount ≤ totals.stakers) :
    ErrsWithin (fun e => ¬ AccountingError e)
      (subtractUnstaked s.config info.sender amount totals) := by
  rw [subtractUnstaked, if_neg isStaker, Uint128.checkedSub_eq_some.mpr ⟨covered, rfl⟩]
  exact .pure _

theorem unstake_errs {request : Option Nat} (balanced : s.stakingTotals.stakers = stakersStake s)
    (isStaker : s.config.vestingContract ≠ some info.sender) :
    ErrsWithin (fun e => ¬ AccountingError e) (unstake deps env info request s) := by
  refine .bind canThisAddrUnstake_errs fun _ _ => .bind userStake_errs fun deposits _ =>
    .bind (liftStd_errs _) fun total _ => .bind (liftStd_errs _) fun withdrawal hwithdraw =>
    .bind userStake_errs fun after _ => .bind (liftStd_errs _) fun newTotal _ =>
    .bind ?_ fun stray _ => .bind (.guardErr fun _ => ?_) fun _ _ =>
    .bind ?_ fun undelegated hundelegate => .bind (liftStd_errs _) fun paid hpay =>
    .bind ?_ fun totals _ => .pure _
  · exact .ite (.pure _) (.of_errorless (.bind (Uint128.add_errorless _ _) fun _ => .pure _))
  · exact not_accountingError (c := 'I') (by simp [String.toList_append]) (by decide) (by decide)
  · exact .ite (.bind (liftStd_errs _) fun _ _ => .pure _) (.pure _)
  · refine subtractUnstaked_errs isStaker ?_
    obtain ⟨withdrawn, claims, interest, withdrawable⟩ := withdrawal
    obtain ⟨hvesting, htotals, hle, -⟩ := withdrawFromState_moves (liftStd_eq_ok.mp hwithdraw)
    have hsame : SameStake withdrawn undelegated.1 := by
      split at hundelegate
      · obtain ⟨mid, hexcess, hmid⟩ := bind_eq_ok.mp hundelegate
        cases pure_eq_ok.mp hmid
        exact undelegateExcess_same (liftStd_eq_ok.mp hexcess)
      · cases pure_eq_ok.mp hundelegate
        exact .refl _
    have hstake : stakedIn (s.depositsOf info.sender) ≤ stakersStake s :=
      stakedIn_le_stakersStake isStaker
    have hgrown := createRewardsMsgs_totals (liftStd_eq_ok.mp hpay)
    have hundelegated : undelegated.1.stakingTotals = s.stakingTotals := hsame.totals.trans htotals
    rw [hundelegated] at hgrown
    dsimp only at hle ⊢
    omega

/-- In every run that keeps which address is the vesting contract and in which each restake counts
    what it restakes, the total is the stake of the stakers, and no staker's unstake fails with an
    accounting error. -/
theorem total_is_stake {start : State} (genesis : Genesis start)
    (run : RunWhere Steps (fun s call => call.KeepsTotal s) start s) :
    s.stakingTotals.stakers = stakersStake s ∧
      ∀ deps env info request e, s.config.vestingContract ≠ some info.sender →
        unstake deps env info request s = .error (.err e) → ¬ AccountingError e := by
  have hkeeps : ∀ s (call : Call) s', s.stakingTotals.stakers = stakersStake s → call.KeepsTotal s →
      Steps s call s' → s'.stakingTotals.stakers = stakersStake s' :=
    fun _ _ _ balanced keeps step => (steps_even keeps step).balanced balanced
  have hbalanced := RunWhere.keeps hkeeps run (genesis_balanced genesis)
  exact ⟨hbalanced, fun deps env info request e isStaker failed =>
    (unstake_errs hbalanced isStaker).isAllowed e failed⟩

end Runs

/-! ## A sample chain -/

/-- A chain on which every address is valid, no proposal is open and the contract holds what it
    sends. -/
def sampleDeps : Deps where
  addrValid _ := true
  creditAsset _ := .ok (.nativeToken "cdt")
  recipients _ := .ok []
  allBalances _ := .ok [⟨"cdt", 1000⟩, ⟨"mbrn", 5000000⟩]
  activeProposals _ _ := .ok []
  votedFor _ _ _ := false

def sampleMsg : InstantiateMsg where
  owner := none
  positionsContract := some "cdp"
  auctionContract := none
  vestingContract := some "vesting"
  governanceContract := some "governance"
  osmosisProxy := some "proxy"
  incentiveSchedule := none
  unstakingPeriod := none
  mbrnDenom := "mbrn"

def sampleStart : State where
  config := {
    owner := "owner"
    mbrnDenom := "mbrn"
    incentiveSchedule := ⟨Decimal.percent 9, 240⟩
    unstakingPeriod := 4
    maxCommissionRate := Decimal.percent 10
    keepRawCdt := true
    vestingRevMultiplier := Decimal.percent 20
    positionsContract := some "cdp"
    auctionContract := none
    vestingContract := some "vesting"
    governanceContract := some "governance"
    osmosisProxy := some "proxy" }
  stakingTotals := ⟨0, 0⟩
  staked := ∅
  delegations := ∅
  delegateClaims := ∅
  feeEvents := []
  incentiveScheduling := ⟨⟨Decimal.percent 9, 240⟩, 0⟩
  vestingStakeTime := 0
  vestingRevMultiplier := none
  ownershipTransfer := none

theorem sampleStart_genesis : Genesis sampleStart :=
  ⟨fun _ => true, ⟨0, "staking"⟩, .noFunds "owner", sampleMsg, rfl⟩

def sampleCall (time : Nat) (sender : Addr) (msg : ExecuteMsg) : Call :=
  ⟨sampleDeps, ⟨time, "staking"⟩, .noFunds sender, msg⟩

theorem two_mbrn_positive : 0 < 2000000 := by decide

def sampleStake (time : Nat) (sender : Addr) : Call :=
  ⟨sampleDeps, ⟨time, "staking"⟩, .oneCoin sender ⟨"mbrn", 2000000⟩ two_mbrn_positive, .stake none⟩

/-- A stake is unstaked in part, restaked, and unstaked again, a day apart. -/
def sampleRestaking : List Call :=
  [sampleStake 10 "ann", sampleCall 86410 "ann" (.unstake (some 500000)),
    sampleCall 172810 "ann" (.restake 500000), sampleStake 172820 "bob",
    sampleCall 345620 "ann" (.unstake (some 1200000)),
    sampleCall 432020 "bob" (.claimRewards none true)]

/-- On the sample chain the total is what two stakers have staked, with the interest. -/
theorem total_is_stake_restaking :
    ∃ s, execAll (execWhere Call.exec Call.KeepsTotal) sampleRestaking sampleStart = some s ∧
      s.stakingTotals.stakers = stakersStake s ∧ stakersStake s = 2802217 := by
  have hreads : (execAll (execWhere Call.exec Call.KeepsTotal) sampleRestaking sampleStart).map
      stakersStake = some 2802217 := by
    decide +kernel
  obtain ⟨s, hrun, hstake⟩ := Option.map_eq_some_iff.mp hreads
  exact ⟨s, hrun, (total_is_stake sampleStart_genesis (execWhere_run (fun _ _ _ h => h) hrun)).1,
    hstake⟩

end Membrane.Staking
