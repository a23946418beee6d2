import Membrane.LiqQueue.Proofs.Settleable
import Membrane.LiqQueue.Proofs.Sizing

/-!
# Products that last

The product of a slot is rescaled once in a liquidation, by a factor of `10⁹`. It lasts where
what the liquidation leaves of it is at least a unit after that. A slot whose product is worn
down to a few units by liquidations that leave almost nothing loses it.
-/

namespace Membrane.LiqQueue

open Outcome

/-- The part of each bid that is left when a slot spends an amount, in atomics. -/
def PremiumSlot.leaves (slot : PremiumSlot) (required : Nat) : Nat :=
  Decimal256.fractional - required * Decimal256.fractional / slot.totalBidAmount

/-- What is left of the product, rescaled, is at least a unit. -/
def PremiumSlot.ProductLasts (slot : PremiumSlot) (required : Nat) : Prop :=
  Decimal256.fractional ≤ slot.productSnapshot.atomics * 1000000000 * slot.leaves required

instance (slot : PremiumSlot) (required : Nat) : Decidable (slot.ProductLasts required) :=
  inferInstanceAs (Decidable (_ ≤ _))

/-- A product that is something and at most one. -/
structure PremiumSlot.Divisible (slot : PremiumSlot) : Prop where
  positive : 0 < slot.productSnapshot.atomics
  atMostOne : slot.productSnapshot ≤ Decimal256.one

section

variable {slot slot' spent : PremiumSlot} {fill : PoolFill}

theorem Updated.product_iff (spends : slot.Spent fill spent)
    (part : fill.required ≠ slot.totalBidAmount)
    (updated : Updated spent slot'
      ⟨fill.required * Decimal256.fractional / slot.totalBidAmount⟩) :
    (slot'.currentScale =
      if slot.productSnapshot.atomics * slot.leaves fill.required / Decimal256.fractional <
          1000000000 then slot.currentScale + 1 else slot.currentScale) ∧
      (0 < slot'.productSnapshot.atomics ↔ slot.ProductLasts fill.required) := by
  have hspent : spent.productSnapshot = slot.productSnapshot ∧
      spent.currentScale = slot.currentScale := by
    rw [spends.frame]
    exact ⟨rfl, rfl⟩
  obtain ⟨hproduct, hscale⟩ := hspent
  cases updated with
  | restarted whole =>
    exact absurd (spends.expense_eq_one.mp (congrArg Decimal256.atomics whole)) part
  | scaled _ _ scale small product =>
    rw [hproduct] at small product
    refine ⟨?_, ?_⟩
    · rw [scale, hscale]
      exact (if_pos small).symm
    · rw [product]
      exact Nat.div_pos_iff.trans (and_iff_right Decimal256.fractional_pos)
  | lowered _ _ scale large product =>
    rw [hproduct] at large product
    refine ⟨?_, iff_of_true ?_ ?_⟩
    · rw [scale, hscale]
      exact (if_neg (Nat.not_lt_of_le large)).symm
    · rw [product]
      exact Nat.lt_of_lt_of_le (by decide) large
    · have hmul : 1000000000 * Decimal256.fractional ≤
          slot.productSnapshot.atomics * slot.leaves fill.required :=
        (Nat.le_div_iff_mul_le Decimal256.fractional_pos).mp large
      calc Decimal256.fractional
          ≤ 1000000000 * Decimal256.fractional * 1000000000 := by decide
        _ ≤ slot.productSnapshot.atomics * slot.leaves fill.required * 1000000000 :=
          Nat.mul_le_mul_right _ hmul
        _ = slot.productSnapshot.atomics * 1000000000 * slot.leaves fill.required :=
          Nat.mul_right_comm _ _ _

theorem executePoolLiquidation_product {sums sums' : EpochScaleSums} {premium collateral : Nat}
    {bidFor : String} {price creditPrice : PriceResponse256}
    (product : slot.productSnapshot ≤ Decimal256.one)
    (part : slot.required price creditPrice collateral < slot.totalBidAmount)
    (done : executePoolLiquidation sums slot premium bidFor collateral price creditPrice =
      .ok (sums', slot', fill)) :
    slot'.productSnapshot ≤ Decimal256.one ∧
      (slot'.currentScale =
        if slot.productSnapshot.atomics * slot.leaves (slot.required price creditPrice collateral) /
            Decimal256.fractional < 1000000000 then slot.currentScale + 1
        else slot.currentScale) ∧
      (0 < slot'.productSnapshot.atomics ↔
        slot.ProductLasts (slot.required price creditPrice collateral)) := by
  obtain ⟨hfill, spent, hspends, hupdate, -⟩ :=
    executePoolLiquidation_eq (Nat.ne_of_gt (Nat.zero_lt_of_lt part)) done
  have hrequired : fill.required = slot.required price creditPrice collateral := by
    rw [fillPool_eq hfill, if_neg (Nat.not_lt_of_lt part)]
  have hupdated := updateProduct_updated hupdate
  have hspent : spent.productSnapshot = slot.productSnapshot := by
    rw [hspends.frame]
  refine ⟨hupdated.product_le (by rw [hspent]; exact product), ?_⟩
  rw [← hrequired]
  exact hupdated.product_iff hspends (by omega)

end

/-! ## Runs -/

/-- The product of every slot that a call liquidates and does not empty lasts. -/
def Call.KeepsProducts (s : State) (call : Call) : Prop :=
  ∀ sums slot fill, call.Takes s sums slot fill → fill.required ≠ slot.totalBidAmount →
    slot.ProductLasts fill.required

theorem SlotMoves.divisible {sums sums' : SlotSums} {slot slot' : PremiumSlot} {move : SlotMove}
    (moves : SlotMoves sums slot move slot' sums')
    (lasts : ∀ fill, move = .liquidate fill → fill.required ≠ slot.totalBidAmount →
      slot.ProductLasts fill.required) (h : slot.Divisible) : slot'.Divisible := by
  rcases moves.frame with ⟨fill, rfl⟩ | ⟨hproduct, -⟩
  · cases moves with
    | @liquidate _ spent _ spends update =>
      have hupdated := updateProduct_updated update
      have hspent : spent.productSnapshot = slot.productSnapshot := by
        rw [spends.frame]
      refine ⟨?_, hupdated.product_le (by rw [hspent]; exact h.atMostOne)⟩
      by_cases hpart : fill.required = slot.totalBidAmount
      · have hwhole := spends.expense_eq_one.mpr hpart
        rw [hwhole] at update
        have hrestarted := updateProduct_updated update
        cases hrestarted with
        | restarted _ _ _ product =>
          rw [product]
          exact Decimal256.fractional_pos
        | scaled part => exact absurd part (Nat.lt_irrefl _)
        | lowered part => exact absurd part (Nat.lt_irrefl _)
      · exact (hupdated.product_iff spends hpart).2.mpr (lasts fill rfl hpart)
  · refine ⟨?_, ?_⟩
    · rw [hproduct]
      exact h.positive
    · rw [hproduct]
      exact h.atMostOne

theorem newSlot_divisible (premium : Nat) : (newSlot premium).Divisible :=
  ⟨Decimal256.fractional_pos, Nat.le_refl _⟩

theorem divisible_reachable {start s : State} (fresh : Fresh start)
    (run : RunWhere Steps (fun s call => call.KeepsProducts s) start s) :
    ∀ text queue, s.queues.lookup text = some queue → ∀ slot ∈ queue.slots, slot.Divisible := by
  obtain ⟨ledgers', hrun⟩ := Tracked.of_run run fun _ => Ledger.blank
  have hrule := Tracked.runs_keep (P := fun b => ∀ slot ∈ b.queue.slots, slot.Divisible)
    (fun s call bidFor maxPremium bidThreshold _ _ => addedQueue_slots newSlot_divisible _ _ _)
    (fun t call text queue hkeeps _ _ b m b' _ hdivisible hmakes hmoves => by
      refine hmoves.every_slot hdivisible newSlot_divisible ?_
      intro premium slot move slot' sums' hm hfound hmove hslot
      refine hmove.divisible (fun fill hfill hpart => ?_) hslot
      subst hm hfill
      cases hmakes with
      | submit _ _ made => cases made
      | retract _ _ _ _ _ _ retraction => cases retraction
      | liquidate _ made =>
        cases made with
        | liquidate found takes =>
          obtain rfl := Option.some.inj (found.symm.trans hfound)
          exact hkeeps _ _ _ takes hpart
      | claim _ _ made =>
        obtain ⟨_, _, _, _, _, hmade⟩ := made
        cases hmade)
    hrun (Tracked.tidy_start fresh) (Tracked.every_start _ fresh)
  exact fun text queue hqueue => hrule.2 text queue hqueue

/-- The product lasts: in every state that is reached by calls that keep the products, the
    product of every slot is something and at most one. A liquidation that asks for less than
    such a slot has goes on to the next scale where it rescales the product, and leaves a
    product where that lasts. -/
theorem product_lasts {start s : State} (fresh : Fresh start)
    (run : RunWhere Steps (fun s call => call.KeepsProducts s) start s) {text : String}
    {queue : Queue}
    (stored : s.queues.lookup text = some queue) {slot : PremiumSlot} (mem : slot ∈ queue.slots) :
    slot.Divisible ∧
      ∀ (visited slot' : PremiumSlot) (sums sums' : EpochScaleSums) (premium collateral : Nat)
        (bidFor : String) (price creditPrice : PriceResponse256) (fill : PoolFill),
        visited.productSnapshot = slot.productSnapshot →
        visited.required price creditPrice collateral < visited.totalBidAmount →
        executePoolLiquidation sums visited premium bidFor collateral price creditPrice =
          .ok (sums', slot', fill) →
        slot'.productSnapshot ≤ Decimal256.one ∧
          (slot'.currentScale =
            if visited.productSnapshot.atomics *
                visited.leaves (visited.required price creditPrice collateral) /
                Decimal256.fractional < 1000000000 then visited.currentScale + 1
            else visited.currentScale) ∧
          (0 < slot'.productSnapshot.atomics ↔
            visited.ProductLasts (visited.required price creditPrice collateral)) := by
  have hdivisible := divisible_reachable fresh run text queue stored slot mem
  refine ⟨hdivisible, ?_⟩
  intro visited slot' sums sums' premium collateral bidFor price creditPrice fill hsame hpart hdone
  exact executePoolLiquidation_product (by rw [hsame]; exact hdivisible.atMostOne) hpart hdone

/-! ## A sample run -/

def Call.TakenKeepsProducts (s : State) (call : Call) : Prop :=
  ∀ taken ∈ call.taken s, taken.2.2.required ≠ taken.2.1.totalBidAmount →
    taken.2.1.ProductLasts taken.2.2.required

instance (s : State) (call : Call) : Decidable (call.TakenKeepsProducts s) :=
  List.decidableBAll _ _

/-- The liquidation of 4999 of a slot, at the prices of the sample chain. -/
def sampleExecution (s : State) (slot : PremiumSlot) :
    Option (EpochScaleSums × PremiumSlot × PoolFill) :=
  (executePoolLiquidation s.epochScaleSums slot 0 "atom" 4999 ⟨Decimal256.one, 6⟩
    ⟨Decimal256.one, 6⟩).toOption

/-- After a liquidation that went on to a new scale the product can be divided by, and is left
    by one more liquidation. -/
theorem product_lasts_scaled : ∃ (s : State) (queue : Queue) (slot : PremiumSlot)
    (result : EpochScaleSums × PremiumSlot × PoolFill),
    s.queues.lookup "atom" = some queue ∧ slot ∈ queue.slots ∧ slot.currentScale = 1 ∧
      slot.Divisible ∧ sampleExecution s slot = some result ∧
      0 < result.2.1.productSnapshot.atomics := by
  have hreads : (execAll (execWhere Call.exec Call.TakenKeepsProducts) sampleScaled sampleStart).any
      (fun s => (s.queues.lookup "atom").any fun queue => (queue.slots.find? fun slot =>
        slot.currentScale = 1).any fun slot => (sampleExecution s slot).any fun _ =>
          decide (slot.required ⟨Decimal256.one, 6⟩ ⟨Decimal256.one, 6⟩ 4999 < slot.totalBidAmount ∧
            slot.ProductLasts (slot.required ⟨Decimal256.one, 6⟩ ⟨Decimal256.one, 6⟩ 4999))) =
      true := by
    decide +kernel
  obtain ⟨s, hrun, hreads⟩ := (Option.any_eq_true _ _).mp hreads
  obtain ⟨queue, hqueue, hreads⟩ := (Option.any_eq_true _ _).mp hreads
  obtain ⟨slot, hslot, hreads⟩ := (Option.any_eq_true _ _).mp hreads
  obtain ⟨⟨sums', slot', fill⟩, hresult, hreads⟩ := (Option.any_eq_true _ _).mp hreads
  obtain ⟨hpart, hlasts⟩ := of_decide_eq_true hreads
  have hkeeps : RunWhere Steps (fun s call => call.KeepsProducts s) sampleStart s :=
    RunWhere.mono (fun _ _ _ hall _ => fun _ _ _ takes => hall _ takes.mem_taken)
      (execWhere_run (fun _ _ _ h => h) hrun)
  have hmem : slot ∈ queue.slots := List.mem_of_find?_eq_some hslot
  have hscale : slot.currentScale = 1 := by simpa using List.find?_some hslot
  have hdone : executePoolLiquidation s.epochScaleSums slot 0 "atom" 4999 ⟨Decimal256.one, 6⟩
      ⟨Decimal256.one, 6⟩ = .ok (sums', slot', fill) := by
    unfold sampleExecution at hresult
    cases hexecuted : executePoolLiquidation s.epochScaleSums slot 0 "atom" 4999
        ⟨Decimal256.one, 6⟩ ⟨Decimal256.one, 6⟩ with
    | error => simp [hexecuted, Except.toOption] at hresult
    | ok result =>
      simp only [hexecuted, Except.toOption, Option.some.injEq] at hresult
      rw [hresult]
  obtain ⟨hdivisible, hexecution⟩ := product_lasts sampleStart_fresh hkeeps hqueue hmem
  obtain ⟨-, -, hpositive⟩ := hexecution slot slot' _ _ _ _ _ _ _ _ rfl hpart hdone
  exact ⟨s, queue, slot, _, hqueue, hmem, hscale, hdivisible, hresult, hpositive.mpr hlasts⟩

def sampleWorn : List Call := [
  sampleQueue 10 10000000000000000000,
  sampleBid 1 "ann" 0 1000000000000000000,
  sampleLiquidation 2 999999999999999999,
  sampleBid 3 "bob" 0 999999999999999999,
  sampleLiquidation 4 999999999999999999,
  sampleBid 5 "cyd" 0 999999999999999999,
  sampleLiquidation 6 999999999999999999]

/-- The product does not always last: the third liquidation rounds it down to nothing. -/
theorem product_not_lasts :
    ¬ ∀ start s : State, Fresh start → RunWhere Steps (fun _ _ => True) start s →
      ∀ text queue, s.queues.lookup text = some queue → ∀ slot ∈ queue.slots,
        0 < slot.productSnapshot.atomics := by
  intro claim
  have hreads : sampleReads sampleWorn (fun queue => queue.slots.all fun slot =>
      decide (0 < slot.productSnapshot.atomics)) = some false := by
    decide +kernel
  obtain ⟨s, queue, hrun, hqueue, hread⟩ := sampleReads_eq hreads
  have hsteps : RunWhere Steps (fun _ _ => True) sampleStart s :=
    execAll_run (fun _ _ _ h => h) (fun _ _ _ => trivial) hrun
  refine absurd hread (Bool.not_eq_false _ |>.mpr ?_)
  refine List.all_eq_true.mpr fun slot hslot => decide_eq_true ?_
  exact claim sampleStart s sampleStart_fresh hsteps "atom" queue hqueue slot hslot

end Membrane.LiqQueue
