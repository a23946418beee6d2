import Membrane.Cdp.Proofs.Accounting
import Membrane.Cdp.Proofs.Entries
import Membrane.Cdp.Proofs.Spending

/-!
# The order of a redemption

A redemption goes through the premiums from the lowest on, and through the entries of each
in the order of its list, until its credit is used up. So debt is taken off at a premium only when
all that is redeemable at the lower ones has been, and off no position more than the limits of its
entries. -/

namespace Membrane.Cdp

open Outcome

/-! ## What a visit does to the debts -/

section Visit

variable {premium credit : Nat} {loop loop' : RedeemLoop} {entry : PositionRedemption}
  {position : Position}

theorem RedeemVisit.others {owner : Addr} {id : Nat}
    (visit : RedeemVisit premium loop loop' entry position credit)
    (same : position.positionId = entry.positionId)
    (other : ¬ (loop.user.positionOwner = owner ∧ entry.positionId = id)) :
    positionAt loop'.s.positions owner id = positionAt loop.s.positions owner id := by
  cases visit with
  | skipped _ state => rw [state]
  | redeemed _ round =>
    obtain ⟨position', hwrite, -, -⟩ := round.write
    refine hwrite.other_at ?_
    rw [same]
    exact (not_and_or.mp other).imp Ne.symm Ne.symm

theorem RedeemVisit.debt {nextId : Nat} (sound : SoundIds nextId loop.s.positions)
    (found : positionAt loop.s.positions loop.user.positionOwner entry.positionId = some position)
    (whole : loop.creditAmount = ⟨credit * Decimal.fractional⟩)
    (visit : RedeemVisit premium loop loop' entry position credit) :
    ∃ redeemed, redeemed ≤ entry.remainingLoanRepayment ∧ redeemed ≤ credit ∧
      loop'.creditAmount = ⟨(credit - redeemed) * Decimal.fractional⟩ ∧
      storedDebt loop'.s.positions loop.user.positionOwner entry.positionId + redeemed =
        position.creditAmount ∧
      (redeemed < credit → restrictsAll entry (collateralKinds position) = false →
        redeemed = min entry.remainingLoanRepayment position.creditAmount) := by
  cases visit with
  | skipped restricted state left =>
    refine ⟨0, Nat.zero_le _, Nat.zero_le _, left.trans whole, ?_, fun _ hopen => ?_⟩
    · rw [state, storedDebt_of_some found, Nat.add_zero]
    · rw [restricted] at hopen
      cases hopen
  | redeemed _ round =>
    obtain ⟨position', hwrite, hcredit, -⟩ := round.write
    have hafter := hwrite.new_at sound
    rw [positionAt_id found] at hafter
    refine ⟨_, ?_, Nat.min_le_right _ _, round.left, ?_, fun hless _ => ?_⟩
    · exact (Nat.min_le_left _ _).trans (Nat.min_le_left _ _)
    · rw [storedDebt_of_some hafter]
      exact hcredit
    · omega

end Visit

/-! ## How the debts stand -/

def About (owner : Addr) (id : Nat) (visit : Addr × PositionRedemption) : Prop :=
  visit.1 = owner ∧ visit.2.positionId = id

instance (owner : Addr) (id : Nat) (visit : Addr × PositionRedemption) :
    Decidable (About owner id visit) :=
  inferInstanceAs (Decidable (visit.1 = owner ∧ visit.2.positionId = id))

/-- The limits of the entries for a position together. -/
def entryLimits (owner : Addr) (id : Nat) (visits : List (Addr × PositionRedemption)) : Nat :=
  (visits.map fun visit =>
    if About owner id visit then visit.2.remainingLoanRepayment else 0).sum

theorem entryLimits_append (owner : Addr) (id : Nat)
    (visits visits' : List (Addr × PositionRedemption)) :
    entryLimits owner id (visits ++ visits') = entryLimits owner id visits +
      entryLimits owner id visits' := by
  rw [entryLimits, List.map_append, List.sum_append]
  rfl

def Exhausted (s : State) (store : Store) (visit : Addr × PositionRedemption) : Prop :=
  storedDebt store visit.1 visit.2.positionId + visitRedeemable s visit ≤
    storedDebt s.positions visit.1 visit.2.positionId

/-- Entries were served one after the other: when a position without an entry among the
    first has lost debt, all of these are exhausted. -/
def InOrder (s : State) (store : Store) (visits : List (Addr × PositionRedemption)) : Prop :=
  ∀ first rest, visits = first ++ rest → ∀ owner id,
    storedDebt store owner id < storedDebt s.positions owner id →
    (∀ visit ∈ first, ¬ About owner id visit) → ∀ visit ∈ first, Exhausted s store visit

structure Served (s : State) (visited : List (Addr × PositionRedemption)) (loop : RedeemLoop) :
    Prop where
  untouched : ∀ owner id, (∀ visit ∈ visited, ¬ About owner id visit) →
    positionAt loop.s.positions owner id = positionAt s.positions owner id
  lower : ∀ owner id, storedDebt loop.s.positions owner id ≤ storedDebt s.positions owner id
  limited : ∀ owner id, storedDebt s.positions owner id ≤
    storedDebt loop.s.positions owner id + entryLimits owner id visited
  exhausted : loop.creditAmount.isZero = false →
    ∀ visit ∈ visited, Exhausted s loop.s.positions visit
  inOrder : InOrder s loop.s.positions visited

theorem Exhausted.of_lower {s : State} {store store' : Store} {visit : Addr × PositionRedemption}
    (exhausted : Exhausted s store visit)
    (lower : ∀ owner id, storedDebt store' owner id ≤ storedDebt store owner id) :
    Exhausted s store' visit := by
  have h := lower visit.1 visit.2.positionId
  unfold Exhausted at exhausted ⊢
  omega

section Step

variable {s : State} {credit taken premium : Nat} {loop loop' : RedeemLoop}
  {visited : List (Addr × PositionRedemption)} {entry : PositionRedemption} {position : Position}

theorem Redeeming.visit_lower (before : Redeeming s credit (premium + 1) visited loop taken)
    (found : positionAt loop.s.positions loop.user.positionOwner entry.positionId = some position)
    (visit : RedeemVisit premium loop loop' entry position (credit - taken)) (owner : Addr)
    (id : Nat) :
    storedDebt loop'.s.positions owner id ≤ storedDebt loop.s.positions owner id := by
  by_cases same : loop.user.positionOwner = owner ∧ entry.positionId = id
  · obtain ⟨rfl, rfl⟩ := same
    obtain ⟨redeemed, -, -, -, hdebt, -⟩ := visit.debt before.sound found before.left
    rw [storedDebt_of_some found]
    omega
  · rw [storedDebt, storedDebt, visit.others (positionAt_id found) same]

theorem Redeeming.visit_exhausts (before : Redeeming s credit (premium + 1) visited loop taken)
    (served : Served s visited loop)
    (found : positionAt loop.s.positions loop.user.positionOwner entry.positionId = some position)
    (visit : RedeemVisit premium loop loop' entry position (credit - taken))
    (left : loop'.creditAmount.isZero = false) :
    Exhausted s loop'.s.positions (loop.user.positionOwner, entry) := by
  obtain ⟨redeemed, -, hbound, hcredit, hdebt, hall⟩ := visit.debt before.sound found before.left
  have hrestricted := before.restricted_eq found
  have hlower := served.lower loop.user.positionOwner entry.positionId
  rw [storedDebt_of_some found] at hlower
  unfold Exhausted
  dsimp only
  rw [visitRedeemable]
  split
  case isTrue => omega
  case isFalse hopen =>
    have hless : redeemed < credit - taken := by
      refine lt_of_le_of_ne hbound fun heq => ?_
      rw [hcredit, heq, Nat.sub_self, Nat.zero_mul] at left
      cases left
    have hmost := hall hless (hrestricted ▸ by simpa using hopen)
    change storedDebt loop'.s.positions loop.user.positionOwner entry.positionId +
      min entry.remainingLoanRepayment
        (storedDebt s.positions loop.user.positionOwner entry.positionId) ≤ _
    omega

theorem Redeeming.visit_idle (before : Redeeming s credit (premium + 1) visited loop taken)
    (found : positionAt loop.s.positions loop.user.positionOwner entry.positionId = some position)
    (visit : RedeemVisit premium loop loop' entry position (credit - taken))
    (empty : loop.creditAmount.isZero = true) (owner : Addr) (id : Nat) :
    storedDebt loop'.s.positions owner id = storedDebt loop.s.positions owner id := by
  by_cases same : loop.user.positionOwner = owner ∧ entry.positionId = id
  · obtain ⟨rfl, rfl⟩ := same
    obtain ⟨redeemed, -, hbound, -, hdebt, -⟩ := visit.debt before.sound found before.left
    have hused := before.used_up_iff.mp empty
    rw [storedDebt_of_some found]
    omega
  · rw [storedDebt, storedDebt, visit.others (positionAt_id found) same]

theorem Served.visit (served : Served s visited loop)
    (before : Redeeming s credit (premium + 1) visited loop taken)
    (found : positionAt loop.s.positions loop.user.positionOwner entry.positionId = some position)
    (visit : RedeemVisit premium loop loop' entry position (credit - taken)) :
    Served s (visited ++ [(loop.user.positionOwner, entry)]) loop' := by
  have hlower := before.visit_lower found visit
  have huntouched : ∀ owner id,
      (∀ v ∈ visited ++ [(loop.user.positionOwner, entry)], ¬ About owner id v) →
      positionAt loop'.s.positions owner id = positionAt s.positions owner id := by
    intro owner id out
    have hlast := out (loop.user.positionOwner, entry) (by simp)
    rw [visit.others (positionAt_id found) hlast]
    exact served.untouched owner id fun v mem => out v (List.mem_append_left _ mem)
  obtain ⟨redeemed, hlimit, hbound, hcredit, hdebt, -⟩ := visit.debt before.sound found before.left
  -- credit that is left over after the visit was there before it
  have hmore : loop'.creditAmount.isZero = false → loop.creditAmount.isZero = false := by
    intro left
    by_contra hzero
    have hused := before.used_up_iff.mp (by simpa using hzero)
    rw [hcredit, hused, Nat.sub_self, Nat.zero_sub, Nat.zero_mul] at left
    cases left
  refine ⟨huntouched, fun owner id => (hlower owner id).trans (served.lower owner id), ?_, ?_, ?_⟩
  · intro owner id
    have hbefore := served.limited owner id
    rw [entryLimits_append]
    by_cases same : loop.user.positionOwner = owner ∧ entry.positionId = id
    · obtain ⟨rfl, rfl⟩ := same
      rw [storedDebt_of_some found] at hbefore
      have hone : entryLimits loop.user.positionOwner entry.positionId
          [(loop.user.positionOwner, entry)] = entry.remainingLoanRepayment := by
        simp [entryLimits, About]
      omega
    · have hsame :
          storedDebt loop'.s.positions owner id = storedDebt loop.s.positions owner id := by
        rw [storedDebt, storedDebt, visit.others (positionAt_id found) same]
      omega
  · intro left v mem
    rcases List.mem_append.mp mem with hold | hnew
    · exact (served.exhausted (hmore left) v hold).of_lower hlower
    · rw [List.mem_singleton.mp hnew]
      exact before.visit_exhausts served found visit left
  · intro first rest cut owner id fell out v mem
    rcases List.eq_nil_or_concat rest with rfl | ⟨rest', last, rfl⟩
    · -- nothing outside of the visits loses debt
      rw [List.append_nil] at cut
      have hsame := huntouched owner id (cut ▸ out)
      rw [storedDebt, hsame] at fell
      exact absurd fell (lt_irrefl _)
    · rw [List.concat_eq_append, ← List.append_assoc] at cut
      obtain ⟨hvisited, -⟩ := List.append_inj' cut rfl
      cases hzero : loop.creditAmount.isZero with
      | false =>
        have hmem : v ∈ visited := hvisited ▸ List.mem_append_left rest' mem
        exact (served.exhausted hzero v hmem).of_lower hlower
      | true =>
        rw [before.visit_idle found visit hzero] at fell
        exact (served.inOrder first rest' hvisited owner id fell out v mem).of_lower hlower

end Step

theorem served_keptByVisits (s : State) (credit : Nat) : KeptByVisits s credit (Served s) := by
  refine ⟨?_, ?_⟩
  · intro visited loop loop' state left served
    refine ⟨?_, ?_, ?_, ?_, ?_⟩
    · rw [state]
      exact served.untouched
    · rw [state]
      exact served.lower
    · rw [state]
      exact served.limited
    · rw [state, left]
      exact served.exhausted
    · rw [state]
      exact served.inOrder
  · intro visited loop loop' taken premium entry position before found visit served
    exact served.visit before found visit

theorem Served.start {s : State} {loop : RedeemLoop} (same : loop.s = s) : Served s [] loop := by
  refine ⟨?_, ?_, ?_, ?_, ?_⟩
  · intro owner id _
    rw [same]
  · intro owner id
    rw [same]
  · intro owner id
    rw [same]
    exact Nat.le_add_right _ _
  · intro _ visit mem
    cases mem
  · intro first rest cut owner id _ _ visit mem
    rw [(List.append_eq_nil_iff.mp cut.symm).1] at mem
    cases mem

/-! ## The whole redemption -/

section Whole

variable {deps : Deps} {env : Env} {info : MessageInfo} {maxCollateralPremium : Nat}
  {s s' : State} {response : Response OutMsg}

theorem redeemForCollateral_served (sound : s.Sound)
    (done : redeemForCollateral deps env info maxCollateralPremium s = .ok (s', response)) :
    ∃ visited unvisited loop, loop.s = s' ∧ Served s visited loop ∧
      redemptionVisits s (List.range (maxCollateralPremium + 1)) = visited ++ unvisited := by
  obtain ⟨credit, loop, -, hloop, -, rfl, -⟩ := redeemForCollateral_loop done
  obtain ⟨count, taken, -, hserved, hle, -⟩ := (served_keptByVisits s credit).premiums
    (Redeeming.start credit sound) (.start rfl) hloop
  refine ⟨_, redemptionVisits s ((List.range (maxCollateralPremium + 1 - count)).map (count + ·)),
    loop, rfl, hserved, ?_⟩
  rw [redemptionVisits, redemptionVisits, redemptionVisits, ← List.flatMap_append, ← List.range_add]
  congr 2
  omega

/-- A redemption serves the entries at its premiums in order, from the lowest premium on: when
    a position without an entry among the first has lost debt, all that the first let be
    redeemed is off the debts of their positions. And no position loses more debt than the
    limits of its entries together. -/
theorem redemption_in_order {created : State} {first : Response OutMsg} {creator : MessageInfo}
    {msg : InstantiateMsg} {deps₀ : Deps} {env₀ : Env}
    (instantiated : instantiate deps₀ env₀ creator msg = .ok (created, first))
    (run : RunWhere transactionStep FromOutside created s)
    (done : redeemForCollateral deps env info maxCollateralPremium s = .ok (s', response)) :
    InOrder s s'.positions (redemptionVisits s (List.range (maxCollateralPremium + 1))) ∧
    ∀ owner id, storedDebt s.positions owner id ≤ storedDebt s'.positions owner id +
      entryLimits owner id (redemptionVisits s (List.range (maxCollateralPremium + 1))) := by
  have sound : s.Sound := runs_sound instantiated (fun _ _ houtside => houtside) run
  obtain ⟨visited, unvisited, loop, rfl, served, hvisits⟩ := redeemForCollateral_served sound done
  rw [hvisits]
  constructor
  · intro first rest cut owner id fell out
    rcases List.append_eq_append_iff.mp cut with ⟨between, rfl, -⟩ | ⟨between, hvisited, -⟩
    · -- all visits are among the first
      have hsame := served.untouched owner id fun v mem => out v (List.mem_append_left _ mem)
      rw [storedDebt, hsame] at fell
      exact absurd fell (lt_irrefl _)
    · exact served.inOrder first between hvisited owner id fell out
  · intro owner id
    have hlimited := served.limited owner id
    rw [entryLimits_append]
    omega

theorem mem_redemptionVisits {premiums : List Nat} {visit : Addr × PositionRedemption}
    (mem : visit ∈ redemptionVisits s premiums) :
    ∃ premium ∈ premiums, (visit.1, visit.2.positionId) ∈ entriesOf (usersAt s premium) := by
  obtain ⟨premium, hpremium, hvisit⟩ := List.mem_flatMap.mp mem
  obtain ⟨user, huser, hentry⟩ := List.mem_flatMap.mp hvisit
  obtain ⟨entry, hmem, rfl⟩ := List.mem_map.mp hentry
  exact ⟨premium, hpremium, mem_entriesOf.mpr ⟨user, huser, rfl, List.mem_map_of_mem hmem⟩⟩

end Whole

/-! ## On a sample chain -/

theorem twoOptIns_outside {call : Call} (mem : call ∈ twoOptIns) (s : State) :
    FromOutside s (.call call) := by
  simp only [twoOptIns, borrowing, List.cons_append, List.nil_append, List.mem_cons,
    List.not_mem_nil, or_false] at mem
  rcases mem with rfl | rfl | rfl | rfl | rfl | rfl | rfl
  all_goals trivial

/-- The second position is redeemed from, so the first has given up all of its limit. -/
theorem redemption_in_order_two_opt_ins :
    ∃ s s' response, sampleResponse twoOptIns sampleRedemption = some (s, s', response) ∧
      storedDebt s'.positions "user" 1 = 500000000 ∧
      storedDebt s'.positions "other" 2 = 800000000 ∧
      InOrder s s'.positions (redemptionVisits s (List.range 2)) ∧
      ∀ owner id, storedDebt s.positions owner id ≤ storedDebt s'.positions owner id +
        entryLimits owner id (redemptionVisits s (List.range 2)) := by
  have hdebts : (sampleResponse twoOptIns sampleRedemption).map (fun run =>
      (storedDebt run.2.1.positions "user" 1, storedDebt run.2.1.positions "other" 2)) =
        some (500000000, 800000000) := by decide +kernel
  obtain ⟨⟨s, s', response⟩, hrun, hdebts⟩ := Option.map_eq_some_iff.mp hdebts
  obtain ⟨huser, hother⟩ := Prod.mk.inj hdebts
  obtain ⟨hs, hdone⟩ := sampleResponse_spec hrun
  obtain ⟨created, first, hcreated, houtside⟩ :=
    afterGenesis_run (fun call mem s => twoOptIns_outside mem s) hs
  exact ⟨s, s', response, hrun, huser, hother, redemption_in_order hcreated houtside hdone⟩

end Membrane.Cdp
