import Membrane.Lib.Truncation
import Membrane.Staking.State
import Membrane.Vesting.Proofs.Overdraw

/-!
# Shares of the fees

The fees of the contract's stake are split by what remains of each allocation, over
the stake the staking contract answers. That answer is computed from the recipients
of this contract, so the ratios add up to one at most and no asset is credited
beyond what is claimed of it.
-/

namespace Membrane.Vesting

open Outcome

/-- The amount of an asset in claims. -/
def claimsOf (info : AssetInfo) (claims : List Asset) : Nat :=
  (claims.map fun claim => if claim.info = info then claim.amount else 0).sum

/-- The amount of an asset that the recipients can claim. -/
def creditedTo (info : AssetInfo) (recipients : List Recipient) : Nat :=
  (recipients.map fun recipient => claimsOf info recipient.claimables).sum

def Recipient.unwithdrawn (recipient : Recipient) : Nat :=
  recipient.allocation.elim 0 fun allocation => allocation.amount - allocation.amountWithdrawn

/-- The staking contract takes this contract for its vesting contract, and reads its
    recipients to answer for its stake. -/
structure Wired (deps : Deps) (env : Env) (s : State) (stakingDeps : Staking.Deps)
    (staking : Staking.State) : Prop where
  answers : ∀ total, deps.userStake s.config.stakingContract env.contractAddress = .ok total →
    ∃ deposits, Staking.queryUserStake stakingDeps env.contractAddress staking =
      .ok ⟨total, deposits⟩
  vesting : staking.config.vestingContract = some env.contractAddress
  recipients : stakingDeps.recipients env.contractAddress = .ok s.recipients

/-! ## The total vesting -/

theorem foldlM_adds {ε α : Type} {step : Nat → α → Outcome ε Nat} {measure : α → Nat}
    (adds : ∀ acc a acc', step acc a = .ok acc' → acc' = acc + measure a) (l : List α) :
    ∀ {start total : Nat}, l.foldlM step start = .ok total →
      total = start + (l.map measure).sum := by
  induction l with
  | nil =>
    intro start total done
    rw [List.foldlM_nil, pure_eq_ok] at done
    rw [← done]
    rfl
  | cons a rest ih =>
    intro start total done
    rw [List.foldlM_cons, bind_eq_ok] at done
    obtain ⟨mid, hhead, hrest⟩ := done
    rw [ih hrest, adds start a mid hhead, List.map_cons, List.sum_cons, Nat.add_assoc]

theorem getTotalVesting_total {ε : Type} {recipients : List Recipient} {total : Nat}
    (done : (getTotalVesting recipients : Outcome ε Nat) = .ok total) :
    total = (recipients.map Recipient.unwithdrawn).sum := by
  unfold getTotalVesting at done
  have hadds := @foldlM_adds _ _ _ Recipient.unwithdrawn ?_ recipients _ _ done
  · rw [hadds, Nat.zero_add]
  intro acc recipient acc' hstep
  cases hallocation : recipient.allocation with
  | none =>
    rw [hallocation] at hstep
    rw [Recipient.unwithdrawn, hallocation]
    exact (pure_eq_ok.mp hstep).symm
  | some a =>
    rw [hallocation] at hstep
    simp only [bind_eq_ok, Allocation.remaining, subUint_eq_ok, Uint128.add_eq_ok] at hstep
    obtain ⟨_, ⟨-, rfl⟩, -, rfl⟩ := hstep
    rw [Recipient.unwithdrawn, hallocation]
    rfl

theorem sum_allocated (recipients : List Recipient) :
    ((recipients.filter fun recipient => recipient.allocation.isSome).map
      Recipient.unwithdrawn).sum = (recipients.map Recipient.unwithdrawn).sum := by
  induction recipients with
  | nil => rfl
  | cons recipient rest ih =>
    cases hallocation : recipient.allocation with
    | none =>
      have hnothing : recipient.unwithdrawn = 0 := by
        rw [Recipient.unwithdrawn, hallocation]
        rfl
      simp [hallocation, hnothing, ih]
    | some a => simp [hallocation, ih]

/-! ## Ratios -/

theorem getAllocationRatios_spec {deps : Deps} {env : Env} {config : Config}
    {recipients : List Recipient} {ratios : List Decimal}
    (done : getAllocationRatios deps env config recipients = .ok ratios) :
    ∃ staked, deps.userStake config.stakingContract env.contractAddress = .ok staked ∧
      ratios.map Decimal.atomics =
        recipients.map fun recipient => recipient.unwithdrawn * Decimal.fractional / staked := by
  rw [getAllocationRatios, bind_eq_ok] at done
  obtain ⟨staked, hstaked, done⟩ := done
  refine ⟨staked, ofExcept_eq_ok.mp hstaked, ?_⟩
  have heach := mapM_forall₂ done
  clear done
  induction heach with
  | nil => rfl
  | @cons recipient ratio rest ratios hhead _ ih =>
    simp only [bind_eq_ok, unwrap_eq_ok, Allocation.remaining, subUint_eq_ok,
      decimalDivision_eq_ok] at hhead
    obtain ⟨a, hallocation, _, ⟨-, rfl⟩, part, hpart, whole, hwhole, -, -, rfl⟩ := hhead
    rw [Decimal.fromRatio_one hpart, Decimal.fromRatio_one hwhole]
    simp only [List.map_cons, ih, List.cons.injEq, and_true]
    rw [Nat.mul_div_mul_right _ _ (by decide : 0 < Decimal.fractional), Recipient.unwithdrawn,
      hallocation]
    rfl

theorem ratios_le_one {deps : Deps} {env : Env} {s : State} {stakingDeps : Staking.Deps}
    {staking : Staking.State} {ratios : List Decimal}
    (wired : Wired deps env s stakingDeps staking)
    (done : getAllocationRatios deps env s.config
      (s.recipients.filter fun recipient => recipient.allocation.isSome) = .ok ratios) :
    (ratios.map Decimal.atomics).sum ≤ Decimal.fractional := by
  obtain ⟨staked, hstaked, hratios⟩ := getAllocationRatios_spec done
  obtain ⟨deposits, hanswer⟩ := wired.answers staked hstaked
  have htotal : staked = (s.recipients.map Recipient.unwithdrawn).sum := by
    simp only [Staking.queryUserStake, bind_eq_ok, addrValidate_eq_ok] at hanswer
    obtain ⟨address, ⟨-, rfl⟩, hanswer⟩ := hanswer
    rw [if_pos wired.vesting] at hanswer
    simp only [Staking.getTotalVesting, bind_eq_ok, ofExcept_eq_ok, wired.recipients,
      pure_eq_ok] at hanswer
    obtain ⟨total, ⟨_, hread, htotal⟩, heq⟩ := hanswer
    obtain rfl : s.recipients = _ := Except.ok.inj hread
    obtain rfl : total = staked := congrArg Staking.StakerResponse.totalStaked heq
    exact getTotalVesting_total htotal
  rw [hratios, htotal, ← sum_allocated]
  exact sum_shares_le _ _

/-! ## Crediting -/

theorem creditClaim_credits {claimAsset : Asset} {recipient recipient' : Recipient}
    {ratio : Decimal} (info : AssetInfo)
    (done : creditClaim claimAsset recipient ratio = .ok recipient') :
    claimsOf info recipient'.claimables = claimsOf info recipient.claimables +
      if claimAsset.info = info then claimAsset.amount * ratio.atomics / Decimal.fractional
      else 0 := by
  rw [creditClaim, bind_eq_ok] at done
  obtain ⟨share, hshare, done⟩ := done
  rw [← Decimal.mulUint_eq_ok hshare]
  split at done
  case h_1 index hfind =>
    simp only [bind_eq_ok, index_eq_ok, Uint128.add_eq_ok, setIndex_eq_ok, pure_eq_ok] at done
    obtain ⟨claim, hclaim, _, ⟨-, rfl⟩, _, ⟨hlt, rfl⟩, rfl⟩ := done
    have hinfo : claim.info = claimAsset.info := by
      have hfound := (List.findIdx?_eq_some_iff_getElem.mp hfind).2.1
      have hsame : recipient.claimables[index] = claim :=
        Option.some.inj ((List.getElem?_eq_getElem hlt).symm.trans hclaim)
      rw [hsame] at hfound
      simpa using hfound
    have hset := ListEdit.sum_set (fun claim => if claim.info = info then claim.amount else 0)
      { claim with amount := claim.amount + share } hclaim
    simp only [hinfo] at hset
    simp only [claimsOf, hinfo]
    by_cases hthis : claimAsset.info = info
    · simp only [if_pos hthis] at hset ⊢
      omega
    · simp only [if_neg hthis] at hset ⊢
      omega
  case h_2 =>
    rw [pure_eq_ok] at done
    subst done
    simp [claimsOf]

theorem creditClaims_credits {ratios : List Decimal} {recipients recipients' : List Recipient}
    {claimAsset : Asset} (info : AssetInfo)
    (whole : (ratios.map Decimal.atomics).sum ≤ Decimal.fractional)
    (done : creditClaims ratios recipients claimAsset = .ok recipients') :
    creditedTo info recipients' ≤
      creditedTo info recipients + if claimAsset.info = info then claimAsset.amount else 0 := by
  let part (ratio : Decimal) : Nat :=
    if claimAsset.info = info then claimAsset.amount * ratio.atomics / Decimal.fractional else 0
  -- the rounds from an index on use the ratios from that index on
  have hfrom : ∀ (recipients recipients' : List Recipient) (k : Nat),
      List.Forall₂ (fun entry recipient' =>
        (do creditClaim claimAsset entry.1 (← Outcome.index ratios entry.2)) = .ok recipient')
        (recipients.zipIdx k) recipients' →
      creditedTo info recipients' ≤
        creditedTo info recipients + ((ratios.drop k).map part).sum := by
    intro recipients
    induction recipients with
    | nil =>
      intro recipients' k heach
      cases heach
      exact Nat.zero_le _
    | cons recipient rest ih =>
      intro recipients' k heach
      rw [List.zipIdx_cons] at heach
      cases heach with
      | cons hhead hrest =>
        simp only [bind_eq_ok, index_eq_ok] at hhead
        obtain ⟨ratio, hratio, hcredit⟩ := hhead
        have hlt : k < ratios.length := (List.getElem?_eq_some_iff.mp hratio).1
        have hget : ratios[k] = ratio := (List.getElem?_eq_some_iff.mp hratio).2
        have hone := creditClaim_credits info hcredit
        have hothers := ih _ (k + 1) hrest
        rw [List.drop_eq_getElem_cons hlt, hget]
        simp only [creditedTo, List.map_cons, List.sum_cons, hone] at hothers ⊢
        have hpart : part ratio = if claimAsset.info = info then
          claimAsset.amount * ratio.atomics / Decimal.fractional else 0 := rfl
        omega
  have hcredited := hfrom recipients recipients' 0 (mapM_forall₂ done)
  refine Nat.le_trans hcredited (Nat.add_le_add_left ?_ _)
  rw [List.drop_zero]
  by_cases hthis : claimAsset.info = info
  · simp only [part, if_pos hthis]
    calc (ratios.map fun ratio => claimAsset.amount * ratio.atomics / Decimal.fractional).sum
        ≤ (ratios.map fun ratio => claimAsset.amount * ratio.atomics).sum / Decimal.fractional :=
          sum_map_div_le _ _ ratios
      _ = claimAsset.amount * (ratios.map Decimal.atomics).sum / Decimal.fractional := by
          rw [List.sum_map_mul_left]
      _ ≤ claimAsset.amount * Decimal.fractional / Decimal.fractional :=
          Nat.div_le_div_right (Nat.mul_le_mul_left _ whole)
      _ = claimAsset.amount := Nat.mul_div_cancel _ (by decide)
  · simp [part, if_neg hthis]

theorem foldlM_creditClaims_credits {ratios : List Decimal} (info : AssetInfo)
    (whole : (ratios.map Decimal.atomics).sum ≤ Decimal.fractional) :
    ∀ {claimables : List Asset} {recipients recipients' : List Recipient},
      claimables.foldlM (creditClaims ratios) recipients = .ok recipients' →
      creditedTo info recipients' ≤ creditedTo info recipients + claimsOf info claimables := by
  intro claimables
  induction claimables with
  | nil =>
    intro recipients recipients' done
    rw [List.foldlM_nil, pure_eq_ok] at done
    rw [done]
    exact Nat.le_add_right _ _
  | cons claimAsset rest ih =>
    intro recipients recipients' done
    rw [List.foldlM_cons, bind_eq_ok] at done
    obtain ⟨mid, hhead, hrest⟩ := done
    have hfirst := creditClaims_credits info whole hhead
    have hothers := ih hrest
    rw [claimsOf, List.map_cons, List.sum_cons]
    rw [claimsOf] at hothers
    omega

theorem creditedTo_append (info : AssetInfo) (recipients recipients' : List Recipient) :
    creditedTo info (recipients ++ recipients') =
      creditedTo info recipients + creditedTo info recipients' := by
  simp [creditedTo]

theorem creditedTo_perm (info : AssetInfo) {recipients recipients' : List Recipient}
    (perm : recipients.Perm recipients') :
    creditedTo info recipients = creditedTo info recipients' :=
  (perm.map _).sum_eq

/-! ## The whole claim -/

/-- The recipients are credited with no more of an asset than is claimed of it; those
    without an allocation are unchanged, and nobody is dropped or duplicated. -/
theorem fees_within_claim {deps : Deps} {env : Env} {s s' : State} {response : Response OutMsg}
    {stakingDeps : Staking.Deps} {staking : Staking.State} {claimables : List Asset}
    (wired : Wired deps env s stakingDeps staking)
    (rewards : deps.userRewards s.config.stakingContract env.contractAddress = .ok claimables)
    (done : claimFeesForContract deps env s = .ok (s', response)) :
    (∀ info, creditedTo info s'.recipients ≤
      creditedTo info s.recipients + claimsOf info claimables) ∧
    (s'.recipients.filter fun recipient => recipient.allocation.isNone) =
      (s.recipients.filter fun recipient => recipient.allocation.isNone) ∧
    (holdings s'.recipients).Perm (holdings s.recipients) := by
  have hperm : (holdings s'.recipients).Perm (holdings s.recipients) := by
    obtain ⟨recipients, rfl, hperm, -⟩ := claimFeesForContract_spec done
    exact hperm
  simp only [claimFeesForContract, rewards, bind_eq_ok, liftStd_eq_ok, ofExcept_eq_ok] at done
  obtain ⟨_, hread, done⟩ := done
  obtain rfl := Except.ok.inj hread
  split at done
  case isTrue =>
    simp only [pure_eq_ok, Prod.mk.injEq] at done
    obtain ⟨rfl, -⟩ := done
    exact ⟨fun _ => Nat.le_add_right _ _, rfl, .refl _⟩
  case isFalse =>
    simp only [bind_eq_ok, liftStd_eq_ok, pure_eq_ok, Prod.mk.injEq] at done
    obtain ⟨ratios, hratios, allocated, hcredited, rfl, -⟩ := done
    have hwhole := ratios_le_one wired hratios
    refine ⟨fun info => ?_, ?_, hperm⟩
    · have hallocated := foldlM_creditClaims_credits info hwhole hcredited
      have hsplit := creditedTo_perm info (List.filter_append_perm
        (fun recipient : Recipient => recipient.allocation.isSome) s.recipients)
      simp only [creditedTo_append, Option.not_isSome] at hsplit ⊢
      omega
    · -- the credited recipients still have their allocations
      have hholdings : holdings allocated =
          holdings (s.recipients.filter fun recipient => recipient.allocation.isSome) :=
        foldlM_keeps (fun recipients => holdings recipients =
            holdings (s.recipients.filter fun recipient => recipient.allocation.isSome))
          (fun _ _ _ hinv hround => (creditClaims_holdings hround).trans hinv) claimables _ _ rfl
          hcredited
      have hsome : ∀ recipient ∈ allocated, ¬ recipient.allocation.isNone = true := by
        intro recipient hmem
        have hheld : recipient.holding ∈ holdings
            (s.recipients.filter fun recipient => recipient.allocation.isSome) :=
          hholdings ▸ List.mem_map_of_mem hmem
        obtain ⟨before, hbefore, heq⟩ := List.mem_map.mp hheld
        have hallocation : before.allocation = recipient.allocation := congrArg Prod.snd heq
        have hgiven := (List.mem_filter.mp hbefore).2
        rw [hallocation] at hgiven
        simp [Option.isSome_iff_ne_none.mp hgiven]
      simp only [List.filter_append, List.filter_filter, Bool.and_self]
      rw [List.filter_eq_nil_iff.mpr hsome, List.append_nil]

/-! ## A claim on a sample chain -/

def sampleStaking : Staking.State where
  config := ⟨"gov", "umbrn", ⟨⟨0⟩, 0⟩, 4, ⟨0⟩, false, Decimal.one, none, none, some "vesting", none,
    none⟩
  stakingTotals := ⟨0, 0⟩
  staked := ∅
  delegations := ∅
  delegateClaims := ∅
  feeEvents := []
  incentiveScheduling := ⟨⟨⟨0⟩, 0⟩, 0⟩
  vestingStakeTime := 0
  vestingRevMultiplier := none
  ownershipTransfer := none

def sampleStakingDeps (recipients : List Recipient) : Staking.Deps where
  addrValid _ := true
  creditAsset _ := .ok (.nativeToken "ucdt")
  recipients _ := .ok recipients
  allBalances _ := .ok []
  activeProposals _ _ := .ok []
  votedFor _ _ _ := false

/-- A chain on which the contract has rewards and a stake. -/
def rewardedDeps : Deps where
  addrValid _ := true
  userRewards _ _ := .ok [⟨.nativeToken "ucdt", 1000⟩]
  userStake _ _ := .ok 1500000000

theorem fees_within_claim_half :
    ∃ l s' response, afterGenesis halfWithdrawn = some l ∧
      claimFeesForContract rewardedDeps (atTime year) l.state = .ok (s', response) ∧
      creditedTo (.nativeToken "ucdt") s'.recipients = 998 ∧
      creditedTo (.nativeToken "ucdt") s'.recipients ≤
        creditedTo (.nativeToken "ucdt") l.state.recipients + 1000 := by
  have hsample : (afterGenesis halfWithdrawn).any (fun l =>
      decide (Staking.queryUserStake (sampleStakingDeps l.state.recipients) "vesting"
        sampleStaking = .ok ⟨1500000000, []⟩) &&
      (claimFeesForContract rewardedDeps (atTime year) l.state).toOption.any fun claimed =>
        creditedTo (.nativeToken "ucdt") claimed.1.recipients == 998) = true := by decide +kernel
  obtain ⟨l, hl, hsample⟩ := (Option.any_eq_true _ _).mp hsample
  rw [Bool.and_eq_true, decide_eq_true_eq] at hsample
  obtain ⟨hanswer, hclaim⟩ := hsample
  have hwired : Wired rewardedDeps (atTime year) l.state (sampleStakingDeps l.state.recipients)
      sampleStaking := by
    refine ⟨fun total htotal => ?_, rfl, rfl⟩
    obtain rfl : 1500000000 = total := Except.ok.inj htotal
    exact ⟨[], hanswer⟩
  cases hdone : claimFeesForContract rewardedDeps (atTime year) l.state with
  | error => simp [hdone, Except.toOption] at hclaim
  | ok claimed =>
    have hwithin := (fees_within_claim hwired rfl hdone).1 (.nativeToken "ucdt")
    exact ⟨l, claimed.1, claimed.2, hl, hdone,
      by simpa [hdone, Except.toOption] using hclaim, by simpa [claimsOf] using hwithin⟩

end Membrane.Vesting
