import Membrane.LiqQueue.Proofs.Claiming

/-!
# Liquidating as moves

A liquidation goes over the premiums of a queue. In each slot it first activates bids that
wait, then takes from the active ones, and at the end what all slots repaid is taken off
the amount of the queue.
-/

namespace Membrane.LiqQueue

open Outcome

/-- The moves a liquidation makes, where what it takes from a slot is `fine`. -/
inductive Liquidates (fine : SlotSums → PremiumSlot → PoolFill → Prop) (b : Book) :
    Move → Prop where
  | activate (premium : Nat) (bid : Bid) : Liquidates fine b (.slot premium (.activate bid))
  | touch (premium blockTime : Nat) : Liquidates fine b (.slot premium (.touch blockTime))
  | liquidate {premium slot fill} (found : b.queue.findSlot premium = some slot)
      (takes : fine (b.sums premium) slot fill) :
      Liquidates fine b (.slot premium (.liquidate fill))
  | burn (amount : Nat) : Liquidates fine b (.burn amount)

/-! ## Activating the bids that wait -/

def stillWaiting (bids : List Bid) : List Bid := bids.filter fun bid => bid.amount ≠ 0

/-- The slot in the loop of `set_slot_total`: with the bids that go on waiting, and those
    it has not gone over. -/
def Activation.standing (acc : Activation) (rest : List Bid) : PremiumSlot :=
  { acc.slot with waitingBids := stillWaiting acc.waiting ++ rest }

private theorem activateWaiting_eq {blockTime : Nat} {acc acc' : Activation} {bid : Bid}
    (nonzero : bid.amount ≠ 0) (done : activateWaiting blockTime acc bid = .ok acc') :
    (acc'.queue = acc.queue.withAmount (acc.queue.bidAsset.amount + bid.amount) ∧
      acc'.slot = acc.slot.join bid ∧ stillWaiting acc'.waiting = stillWaiting acc.waiting) ∨
    (acc'.queue = acc.queue ∧ acc'.slot = acc.slot ∧
      stillWaiting acc'.waiting = stillWaiting acc.waiting ++ [bid]) := by
  simp only [activateWaiting, bind_eq_ok] at done
  obtain ⟨waitEnd, -, done⟩ := done
  split at done
  case isTrue =>
    simp only [bind_eq_ok, pure_eq_ok] at done
    obtain ⟨⟨queue, slot⟩, hactivate, rfl⟩ := done
    obtain ⟨-, rfl, rfl⟩ := activateBid_eq hactivate
    refine Or.inl ⟨rfl, rfl, ?_⟩
    simp [stillWaiting]
  case isFalse =>
    simp only [pure_eq_ok] at done
    subst done
    refine Or.inr ⟨rfl, rfl, ?_⟩
    simp [stillWaiting, nonzero]

theorem activateWaiting_runs {premium blockTime : Nat} {sums : Nat → SlotSums} {ledger : Ledger}
    {fine : SlotSums → PremiumSlot → PoolFill → Prop} :
    ∀ {rest : List Bid} {acc acc' : Activation}, (∀ bid ∈ rest, bid.amount ≠ 0) →
      acc.slot.liqPremium = Decimal256.percent premium →
      rest.foldlM (activateWaiting blockTime) acc = .ok acc' →
      (acc'.slot.liqPremium = Decimal256.percent premium ∧
        acc.slot.totalBidAmount ≤ acc'.slot.totalBidAmount ∧
        (acc'.slot.totalBidAmount = 0 → acc'.queue = acc.queue)) ∧
      Book.Runs (Liquidates fine)
        (Book.held ⟨acc.queue, sums, ledger⟩ premium (acc.standing rest))
        (Book.held ⟨acc'.queue, sums, ledger⟩ premium (acc'.standing [])) := by
  intro rest
  induction rest with
  | nil =>
    intro acc acc' _ hhome done
    simp only [List.foldlM_nil, pure_eq_ok] at done
    subst done
    exact ⟨⟨hhome, Nat.le_refl _, fun _ => rfl⟩, .refl⟩
  | cons bid rest ih =>
    intro acc acc' hnonzero hhome done
    simp only [List.foldlM_cons, bind_eq_ok] at done
    obtain ⟨acc₁, hone, hrest⟩ := done
    have hamount := hnonzero bid List.mem_cons_self
    have hothers : ∀ other ∈ rest, other.amount ≠ 0 :=
      fun other hother => hnonzero other (List.mem_cons_of_mem _ hother)
    rcases activateWaiting_eq hamount hone with
      ⟨hqueue, hslot, hwaiting⟩ | ⟨hqueue, hslot, hwaiting⟩
    · have hhome₁ : acc₁.slot.liqPremium = Decimal256.percent premium := by
        rw [hslot]
        exact hhome
      obtain ⟨⟨hhome', hmore, hempty⟩, hrun⟩ := ih hothers hhome₁ hrest
      have htotal : acc₁.slot.totalBidAmount = acc.slot.totalBidAmount + bid.amount := by
        rw [hslot]
        rfl
      refine ⟨⟨hhome', by omega, fun hzero => by omega⟩, ?_⟩
      have hmove := Book.moves_held ⟨acc.queue, sums, ledger⟩ (.activate bid)
        (show (acc.standing (bid :: rest)).liqPremium = _ from hhome) trivial
        (.activate (show (acc.standing (bid :: rest)).waitingBids =
          stillWaiting acc.waiting ++ bid :: rest from rfl))
      unfold Book.after at hmove
      rw [Book.counted_same] at hmove
      have hstanding : acc₁.standing rest = { (acc.standing (bid :: rest)).join bid with
          waitingBids := stillWaiting acc.waiting ++ rest } := by
        unfold Activation.standing
        rw [hslot, hwaiting]
        rfl
      rw [hqueue, hstanding] at hrun
      exact .head ⟨_, .activate premium bid, hmove⟩ hrun
    · have hhome₁ : acc₁.slot.liqPremium = Decimal256.percent premium := by
        rw [hslot]
        exact hhome
      obtain ⟨⟨hhome', hmore, hempty⟩, hrun⟩ := ih hothers hhome₁ hrest
      rw [hslot] at hmore
      rw [hqueue] at hempty
      refine ⟨⟨hhome', hmore, hempty⟩, ?_⟩
      have hstanding : acc₁.standing rest = acc.standing (bid :: rest) := by
        unfold Activation.standing
        rw [hslot, hwaiting, List.append_assoc]
        rfl
      rw [hqueue, hstanding] at hrun
      exact hrun

theorem setSlotTotal_runs {env : Env} {config : Config} {queue queue' : Queue} {premium : Nat}
    {slot slot' : PremiumSlot} {sums : Nat → SlotSums} {ledger : Ledger}
    {fine : SlotSums → PremiumSlot → PoolFill → Prop} (sound : slot.Sound)
    (home : slot.liqPremium = Decimal256.percent premium)
    (done : setSlotTotal env config queue slot = .ok (queue', slot')) :
    slot'.liqPremium = Decimal256.percent premium ∧
      (slot'.totalBidAmount = 0 → queue' = queue) ∧
      Book.Runs (Liquidates fine) (Book.held ⟨queue, sums, ledger⟩ premium slot)
        (Book.held ⟨queue', sums, ledger⟩ premium slot') := by
  simp only [setSlotTotal, bind_eq_ok] at done
  obtain ⟨_, -, done⟩ := done
  split at done
  case isTrue =>
    simp only [pure_eq_ok, Prod.mk.injEq] at done
    obtain ⟨rfl, rfl⟩ := done
    exact ⟨home, fun _ => rfl, .refl⟩
  case isFalse =>
    simp only [bind_eq_ok, pure_eq_ok, Prod.mk.injEq] at done
    obtain ⟨acc, hfold, rfl, rfl⟩ := done
    have hnonzero : ∀ bid ∈ slot.waitingBids, bid.amount ≠ 0 :=
      fun bid hbid => (sound.waiting bid hbid).2
    obtain ⟨⟨hhome, -, hempty⟩, hrun⟩ := @activateWaiting_runs premium env.blockTime sums
      ledger fine _ _ _ hnonzero home hfold
    refine ⟨hhome, hempty, ?_⟩
    have htouch := Book.moves_held ⟨acc.queue, sums, ledger⟩ (.touch env.blockTime)
      (show (acc.standing []).liqPremium = _ from hhome) trivial .touch
    unfold Book.after at htouch
    rw [Book.counted_same] at htouch
    have hwaiting : (acc.waiting.filter fun bid => bid.amount ≠ 0) =
        (acc.standing []).waitingBids := by
      unfold Activation.standing
      rw [List.append_nil]
      rfl
    rw [hwaiting]
    exact hrun.tail ⟨_, .touch premium env.blockTime, htouch⟩

/-! ## Taking from the active bids -/

theorem slotSums_store (sums : EpochScaleSums) (bidFor : String) (premium epoch scale : Nat)
    (sum : Decimal256) :
    slotSums (storeEpochScaleSum sums bidFor premium epoch scale sum) bidFor =
      Function.update (slotSums sums bidFor) premium (fun epoch' scale' =>
        if epoch' = epoch ∧ scale' = scale then some sum
        else slotSums sums bidFor premium epoch' scale') := by
  funext other epoch' scale'
  by_cases hpremium : other = premium
  · subst hpremium
    rw [Function.update_self]
    by_cases hkey : epoch' = epoch ∧ scale' = scale
    · obtain ⟨rfl, rfl⟩ := hkey
      simp [slotSums, readEpochScaleSum, storeEpochScaleSum]
    · rw [if_neg hkey]
      unfold slotSums readEpochScaleSum storeEpochScaleSum
      rw [AList.lookup_insert_ne]
      intro heq
      simp only [Prod.mk.injEq, true_and] at heq
      exact hkey heq
  · rw [Function.update_of_ne hpremium]
    unfold slotSums readEpochScaleSum storeEpochScaleSum
    rw [AList.lookup_insert_ne]
    intro heq
    simp only [Prod.mk.injEq, true_and] at heq
    exact hpremium heq.1

theorem slotSums_store_ne (sums : EpochScaleSums) {bidFor other : String} (ne : other ≠ bidFor)
    (premium epoch scale : Nat) (sum : Decimal256) :
    slotSums (storeEpochScaleSum sums bidFor premium epoch scale sum) other =
      slotSums sums other := by
  funext premium' epoch' scale'
  unfold slotSums readEpochScaleSum storeEpochScaleSum
  rw [AList.lookup_insert_ne]
  intro heq
  simp only [Prod.mk.injEq] at heq
  exact ne heq.1

theorem executePoolLiquidation_eq {sums sums' : EpochScaleSums} {slot slot' : PremiumSlot}
    {premium collateralToLiquidate : Nat} {bidFor : String} {price creditPrice : PriceResponse256}
    {fill : PoolFill} (nonzero : slot.totalBidAmount ≠ 0)
    (done : executePoolLiquidation sums slot premium bidFor collateralToLiquidate price
      creditPrice = .ok (sums', slot', fill)) :
    fillPool slot collateralToLiquidate price creditPrice = .ok fill ∧
      ∃ spent, slot.Spent fill spent ∧
        updateProduct spent ⟨fill.required * Decimal256.fractional / slot.totalBidAmount⟩ =
          .ok slot' ∧
        sums' = storeEpochScaleSum sums bidFor premium slot.currentEpoch slot.currentScale
          spent.sumSnapshot := by
  simp only [executePoolLiquidation, bind_eq_ok, Decimal256.fromUint256_eq_ok,
    Decimal256.div_eq_ok, Decimal256.mul_eq_ok, Decimal256.add_eq_ok, subUint_eq_ok, pure_eq_ok,
    Prod.mk.injEq] at done
  obtain ⟨fill', hfill, _, ⟨-, rfl⟩, _, ⟨-, rfl⟩, _, ⟨-, -, rfl⟩, _, ⟨-, rfl⟩, _, ⟨-, -, rfl⟩, _,
    ⟨-, rfl⟩, _, ⟨hfits, rfl⟩, total, ⟨hle, htotal⟩, slot₁, hupdate, rfl, rfl, rfl⟩ := done
  have hratio : ∀ amount, amount * Decimal256.fractional * Decimal256.fractional /
      (slot.totalBidAmount * Decimal256.fractional) =
      amount * Decimal256.fractional / slot.totalBidAmount := fun amount =>
    Nat.mul_div_mul_right _ _ Decimal256.fractional_pos
  simp only [hratio] at hupdate hfits ⊢
  generalize hspent : ({ slot with
    sumSnapshot := ⟨slot.sumSnapshot.atomics + slot.productSnapshot.atomics *
      (fill'.collateral * Decimal256.fractional / slot.totalBidAmount) / Decimal256.fractional⟩
    totalBidAmount := total } : PremiumSlot) = spent at hupdate
  have hsum : spent.sumSnapshot.atomics = slot.sumSnapshot.atomics + slot.productSnapshot.atomics *
      (fill'.collateral * Decimal256.fractional / slot.totalBidAmount) /
        Decimal256.fractional := by
    rw [← hspent]
  have hepoch : spent.currentEpoch = slot.currentEpoch ∧ spent.currentScale = slot.currentScale ∧
      spent.totalBidAmount = total := by
    rw [← hspent]
    exact ⟨rfl, rfl, rfl⟩
  have hframe : spent = { slot with
      sumSnapshot := spent.sumSnapshot
      totalBidAmount := spent.totalBidAmount } := by
    rw [← hspent]
  refine ⟨hfill, spent, ⟨nonzero, ?_, hsum, by rw [hsum]; exact hfits, hframe⟩, hupdate, ?_⟩
  · rw [hepoch.2.2, ← htotal]
    exact Nat.sub_add_cancel hle
  · rw [← hsum]

/-! ## One slot -/

def Liquidation.book (l : Liquidation) (bidFor : String) (ledger : Ledger) : Book :=
  ⟨l.queue, slotSums l.sums bidFor, ledger⟩

/-- What a liquidation takes from the slot of a premium: the slot as it is once its waiting
    bids were gone over, and what its active bids repay. -/
structure Liquidation.Takes (env : Env) (config : Config) (price creditPrice : PriceResponse256)
    (l : Liquidation) (premium : Nat) (slot : PremiumSlot) (fill : PoolFill) : Prop where
  activated : ∃ before queue, l.queue.findSlot premium = some before ∧
    setSlotTotal env config l.queue before = .ok (queue, slot)
  nonzero : slot.totalBidAmount ≠ 0
  fills : fillPool slot l.remaining price creditPrice = .ok fill

def recordFill (premium : Nat) (queue : Queue) (fill : Option PoolFill)
    (ledger : Ledger) : Ledger :=
  match fill, queue.findSlot premium with
  | some fill, some slot => ledger.record premium slot (.liquidate fill)
  | _, _ => ledger

theorem Ledger.record_liquidate_congr {slot slot' : PremiumSlot} (ledger : Ledger) (premium : Nat)
    (fill : PoolFill) (same : slot'.bids = slot.bids) :
    ledger.record premium slot' (.liquidate fill) =
      ledger.record premium slot (.liquidate fill) := by
  simp only [Ledger.record, same]

section

variable {env : Env} {config : Config} {price creditPrice : PriceResponse256} {bidFor : String}
  {fine : SlotSums → PremiumSlot → PoolFill → Prop}

theorem liquidateSlot_runs {premium : Nat} {l l' : Liquidation} {fill : Option PoolFill}
    (ledger : Ledger) (sound : l.queue.Sound)
    (takes : ∀ slot fill, l.Takes env config price creditPrice premium slot fill →
      fine (slotSums l.sums bidFor premium) slot fill)
    (done : liquidateSlot env config bidFor price creditPrice premium l = .ok (l', fill)) :
    Book.Runs (Liquidates fine) (l.book bidFor ledger)
        (l'.book bidFor (recordFill premium l'.queue fill ledger)) ∧
      l'.repayAmount + ledger.repaid =
        l.repayAmount + (recordFill premium l'.queue fill ledger).repaid := by
  unfold liquidateSlot at done
  cases hslot : l.queue.findSlot premium with
  | none =>
    simp only [hslot, pure_eq_ok, Prod.mk.injEq] at done
    obtain ⟨rfl, rfl⟩ := done
    exact ⟨.refl, rfl⟩
  | some slot =>
    simp only [hslot, bind_eq_ok] at done
    obtain ⟨⟨queue₁, slot₁⟩, hset, done⟩ := done
    obtain ⟨hhome, hempty, hrun⟩ := @setSlotTotal_runs env config l.queue queue₁ premium slot
      slot₁ (slotSums l.sums bidFor) ledger fine (sound.slots slot (Queue.findSlot_mem hslot))
      (Queue.findSlot_premium hslot) hset
    split at done
    case isTrue hzero =>
      simp only [pure_eq_ok, Prod.mk.injEq] at done
      obtain ⟨rfl, rfl⟩ := done
      rw [hempty hzero]
      exact ⟨.refl, rfl⟩
    case isFalse hnonzero =>
      simp only [bind_eq_ok, pure_eq_ok, Prod.mk.injEq] at done
      obtain ⟨⟨sums', slot', fill'⟩, hpool, repaid, hrepaid, remaining, -, rfl, rfl⟩ := done
      obtain ⟨hfill, spent, hspent, hupdate, rfl⟩ := executePoolLiquidation_eq hnonzero hpool
      obtain ⟨hbids, -, hpremium⟩ := hspent.updated hupdate
      have hhome' : slot'.liqPremium = Decimal256.percent premium := hpremium.trans hhome
      have hfine : fine (slotSums l.sums bidFor premium) slot₁ fill' :=
        takes slot₁ fill' ⟨⟨slot, queue₁, hslot, hset⟩, hnonzero, hfill⟩
      have htouch : (l.book bidFor ledger).Moves (.slot premium (.touch slot.lastTotal))
          (Book.held ⟨l.queue, slotSums l.sums bidFor, ledger⟩ premium slot) :=
        Book.moves_touch hslot
      have hmove := Book.moves_held ⟨queue₁, slotSums l.sums bidFor, ledger⟩ (.liquidate fill')
        hhome trivial (.liquidate hspent hupdate)
      have hafter : Book.after ⟨queue₁, slotSums l.sums bidFor, ledger⟩ premium slot₁
          (.liquidate fill') slot' (fun epoch scale =>
            if epoch = slot₁.currentEpoch ∧ scale = slot₁.currentScale then
              some spent.sumSnapshot
            else slotSums l.sums bidFor premium epoch scale) =
          ⟨queue₁.replaceSlots (Decimal256.percent premium) slot',
            slotSums (storeEpochScaleSum l.sums bidFor premium slot₁.currentEpoch
              slot₁.currentScale spent.sumSnapshot) bidFor,
            ledger.record premium slot₁ (.liquidate fill')⟩ := by
        rw [slotSums_store]
        rfl
      rw [hafter] at hmove
      have hrecord : recordFill premium
          (queue₁.replaceSlots (Decimal256.percent premium) slot') (some fill') ledger =
          ledger.record premium slot₁ (.liquidate fill') := by
        unfold recordFill
        rw [Queue.findSlot_replaceSlots_self queue₁ hhome']
        exact ledger.record_liquidate_congr premium fill' hbids
      have hliquidates : Liquidates fine
          (Book.held ⟨queue₁, slotSums l.sums bidFor, ledger⟩ premium slot₁)
          (.slot premium (.liquidate fill')) :=
        .liquidate (Queue.findSlot_replaceSlots_self queue₁ hhome) hfine
      rw [storePremiumSlot_eq hhome', hrecord]
      refine ⟨.head ⟨_, .touch premium slot.lastTotal, htouch⟩
        (hrun.tail ⟨_, hliquidates, hmove⟩), ?_⟩
      simp only [Uint256.add_eq_ok] at hrepaid
      simp only [Ledger.record, ← hrepaid.2]
      omega

theorem liquidateSlot_sums_ne {premium : Nat} {l l' : Liquidation} {fill : Option PoolFill}
    {other : String} (ne : other ≠ bidFor)
    (done : liquidateSlot env config bidFor price creditPrice premium l = .ok (l', fill)) :
    slotSums l'.sums other = slotSums l.sums other := by
  unfold liquidateSlot at done
  cases hslot : l.queue.findSlot premium with
  | none =>
    simp only [hslot, pure_eq_ok, Prod.mk.injEq] at done
    rw [← done.1]
  | some slot =>
    simp only [hslot, bind_eq_ok] at done
    obtain ⟨⟨queue₁, slot₁⟩, -, done⟩ := done
    split at done
    case isTrue =>
      simp only [pure_eq_ok, Prod.mk.injEq] at done
      rw [← done.1]
    case isFalse hnonzero =>
      simp only [bind_eq_ok, pure_eq_ok, Prod.mk.injEq] at done
      obtain ⟨⟨sums', slot', fill'⟩, hpool, _, -, _, -, rfl, rfl⟩ := done
      obtain ⟨-, spent, -, -, rfl⟩ := executePoolLiquidation_eq hnonzero hpool
      exact slotSums_store_ne l.sums ne premium _ _ _

/-! ## All slots -/

/-- The states of the loop of a liquidation, each with the premium it is at. -/
inductive Liquidation.Visits (env : Env) (config : Config) (bidFor : String)
    (price creditPrice : PriceResponse256) :
    List Nat → Liquidation → Nat → Liquidation → Prop where
  | here {premium rest l} :
      Visits env config bidFor price creditPrice (premium :: rest) l (premium % 256) l
  | next {premium rest l l' fill other visited}
      (one : liquidateSlot env config bidFor price creditPrice (premium % 256) l = .ok (l', fill))
      (more : fill.any PoolFill.filled = false)
      (visits : Visits env config bidFor price creditPrice rest l' other visited) :
      Visits env config bidFor price creditPrice (premium :: rest) l other visited

def Liquidation.taken (env : Env) (config : Config) (bidFor : String)
    (price creditPrice : PriceResponse256) :
    List Nat → Liquidation → List (SlotSums × PremiumSlot × PoolFill)
  | [], _ => []
  | premium :: rest, l =>
    let here := do
      let before ← l.queue.findSlot (premium % 256)
      let (_, slot) ← (setSlotTotal env config l.queue before).toOption
      let fill ← (fillPool slot l.remaining price creditPrice).toOption
      if slot.totalBidAmount = 0 then none
      else some (slotSums l.sums bidFor (premium % 256), slot, fill)
    let others := match liquidateSlot env config bidFor price creditPrice (premium % 256) l with
      | .ok (l', fill) =>
        if fill.any PoolFill.filled then []
        else Liquidation.taken env config bidFor price creditPrice rest l'
      | .error _ => []
    here.toList ++ others

def recordPremiums (env : Env) (config : Config) (bidFor : String)
    (price creditPrice : PriceResponse256) : List Nat → Liquidation → Ledger → Ledger
  | [], _, ledger => ledger
  | premium :: rest, l, ledger =>
    match liquidateSlot env config bidFor price creditPrice (premium % 256) l with
    | .ok (l', fill) =>
      if fill.any PoolFill.filled then recordFill (premium % 256) l'.queue fill ledger
      else recordPremiums env config bidFor price creditPrice rest l'
        (recordFill (premium % 256) l'.queue fill ledger)
    | .error _ => ledger

theorem liquidatePremiums_runs :
    ∀ {premiums : List Nat} {l l' : Liquidation} (ledger : Ledger), l.queue.Sound →
      (∀ premium visited slot fill,
        Liquidation.Visits env config bidFor price creditPrice premiums l premium visited →
        visited.Takes env config price creditPrice premium slot fill →
        fine (slotSums visited.sums bidFor premium) slot fill) →
      liquidatePremiums env config bidFor price creditPrice premiums l = .ok l' →
      Book.Runs (Liquidates fine) (l.book bidFor ledger)
          (l'.book bidFor
            (recordPremiums env config bidFor price creditPrice premiums l ledger)) ∧
        l'.repayAmount + ledger.repaid = l.repayAmount +
          (recordPremiums env config bidFor price creditPrice premiums l ledger).repaid := by
  intro premiums
  induction premiums with
  | nil =>
    intro l l' ledger _ _ done
    simp only [liquidatePremiums, pure_eq_ok] at done
    subst done
    exact ⟨.refl, rfl⟩
  | cons premium rest ih =>
    intro l l' ledger hsound htakes done
    simp only [liquidatePremiums, bind_eq_ok] at done
    obtain ⟨⟨l₁, fill⟩, hone, done⟩ := done
    obtain ⟨hrun, hrepaid⟩ := liquidateSlot_runs ledger hsound
      (fun slot fill => htakes _ _ slot fill .here) hone
    simp only [recordPremiums, hone]
    split at done
    case isTrue hfilled =>
      simp only [pure_eq_ok] at done
      subst done
      rw [if_pos hfilled]
      exact ⟨hrun, hrepaid⟩
    case isFalse hmore =>
      rw [if_neg hmore]
      have hsound₁ : l₁.queue.Sound := hrun.sound hsound
      obtain ⟨hrun', hrepaid'⟩ := ih (recordFill (premium % 256) l₁.queue fill ledger) hsound₁
        (fun other visited slot fill hvisits =>
          htakes other visited slot fill (.next hone (by simpa using hmore) hvisits)) done
      exact ⟨hrun.trans hrun', by omega⟩

theorem liquidatePremiums_sums_ne {other : String} (ne : other ≠ bidFor) :
    ∀ {premiums : List Nat} {l l' : Liquidation},
      liquidatePremiums env config bidFor price creditPrice premiums l = .ok l' →
      slotSums l'.sums other = slotSums l.sums other := by
  intro premiums
  induction premiums with
  | nil =>
    intro l l' done
    simp only [liquidatePremiums, pure_eq_ok] at done
    rw [done]
  | cons premium rest ih =>
    intro l l' done
    simp only [liquidatePremiums, bind_eq_ok] at done
    obtain ⟨⟨l₁, fill⟩, hone, done⟩ := done
    have hsums := liquidateSlot_sums_ne ne hone
    split at done
    case isTrue =>
      simp only [pure_eq_ok] at done
      rw [← done]
      exact hsums
    case isFalse => exact (ih done).trans hsums

/-! ## No error values -/

theorem getAmount_errorless (price : PriceResponse256) (value : Decimal256) :
    Errorless (price.getAmount value) :=
  .bind (Decimal256.div_errorless _ _) fun _ => .bind (Uint64.tenPow_errorless _) fun _ =>
    Decimal256.mulUint_errorless _ _

theorem getValue_errorless (price : PriceResponse256) (amount : Nat) :
    Errorless (price.getValue amount) :=
  .bind (Uint64.tenPow_errorless _) fun _ => .bind (Decimal256.fromRatio_errorless _ _) fun _ =>
    Decimal256.mul_errorless _ _

theorem fillPool_errorless (slot : PremiumSlot) (collateral : Nat) :
    Errorless (fillPool slot collateral price creditPrice) :=
  .bind (Decimal256.sub_errorless _ _) fun _ => .bind (Decimal256.mul_errorless _ _) fun _ =>
    .bind (getValue_errorless _ _) fun _ => .bind (getAmount_errorless _ _) fun _ =>
      .ite (.bind (getValue_errorless _ _) fun _ => .bind (getAmount_errorless _ _) fun _ =>
        .pure _) (.pure _)

theorem updateProduct_errorless (slot : PremiumSlot) (expense : Decimal256) :
    Errorless (updateProduct slot expense) :=
  .ite (.bind (Uint128.add_errorless _ _) fun _ => .pure _)
    (.bind (Decimal256.sub_errorless _ _) fun _ => .bind (Decimal256.mul_errorless _ _) fun _ =>
      .ite (.bind (Uint128.add_errorless _ _) fun _ => .bind (Uint256.mul_errorless _ _) fun _ =>
        .bind (Decimal256.mul_errorless _ _) fun _ => .pure _) (.pure _))

theorem executePoolLiquidation_errorless (sums : EpochScaleSums) (slot : PremiumSlot)
    (premium collateral : Nat) :
    Errorless (executePoolLiquidation sums slot premium bidFor collateral price creditPrice) :=
  .bind (fillPool_errorless _ _) fun _ => .bind (Decimal256.fromUint256_errorless _) fun _ =>
    .bind (Decimal256.fromUint256_errorless _) fun _ =>
      .bind (Decimal256.div_errorless _ _) fun _ =>
    .bind (Decimal256.fromUint256_errorless _) fun _ =>
      .bind (Decimal256.div_errorless _ _) fun _ =>
    .bind (Decimal256.mul_errorless _ _) fun _ => .bind (Decimal256.add_errorless _ _) fun _ =>
    .bind (subUint_errorless _ _) fun _ => .bind (updateProduct_errorless _ _) fun _ => .pure _

theorem activateBid_errorless (bid : Bid) (queue : Queue) (slot : PremiumSlot) :
    Errorless (activateBid bid queue slot) :=
  .bind (Uint256.toUint128_errorless _) fun _ => .bind (Uint128.add_errorless _ _) fun _ =>
    .bind (Uint256.add_errorless _ _) fun _ => .pure _

theorem setSlotTotal_errorless (queue : Queue) (slot : PremiumSlot) :
    Errorless (setSlotTotal env config queue slot) :=
  .bind (subUint_errorless _ _) fun _ => .ite (.pure _)
    (.bind (.foldlM (fun _ _ => .bind (.unwrap _) fun _ =>
      .ite (.bind (activateBid_errorless _ _ _) fun _ => .pure _) (.pure _)) _ _) fun _ => .pure _)

theorem liquidateSlot_errorless (premium : Nat) (l : Liquidation) :
    Errorless (liquidateSlot env config bidFor price creditPrice premium l) := by
  unfold liquidateSlot
  split
  · exact .pure _
  · exact .bind (setSlotTotal_errorless _ _) fun _ => .ite (.pure _)
      (.bind (executePoolLiquidation_errorless _ _ _ _) fun _ =>
        .bind (Uint256.add_errorless _ _) fun _ =>
          .bind (.ite (.pure _) (subUint_errorless _ _)) fun _ => .pure _)

theorem liquidatePremiums_errorless :
    ∀ (premiums : List Nat) (l : Liquidation),
      Errorless (liquidatePremiums env config bidFor price creditPrice premiums l) := by
  intro premiums
  induction premiums with
  | nil => intro l; exact .pure l
  | cons premium rest ih =>
    intro l
    exact .bind (liquidateSlot_errorless _ _) fun _ => .ite (.pure _) (ih _)

/-! ## The slots that a liquidation takes from, computed -/

theorem Liquidation.Visits.mem_taken {premiums : List Nat} {l visited : Liquidation}
    {premium : Nat} {slot : PremiumSlot} {fill : PoolFill}
    (visits : Visits env config bidFor price creditPrice premiums l premium visited)
    (takes : visited.Takes env config price creditPrice premium slot fill) :
    (slotSums visited.sums bidFor premium, slot, fill) ∈
      l.taken env config bidFor price creditPrice premiums := by
  induction visits with
  | @here premium rest l =>
    obtain ⟨before, queue, hfound, hactivated⟩ := takes.activated
    refine List.mem_append_left _ (Option.mem_toList.mpr ?_)
    simp only [hfound, hactivated, takes.fills, Except.toOption,
      Option.bind_eq_bind, Option.bind_some]
    exact if_neg takes.nonzero
  | next one more _ ih =>
    refine List.mem_append_right _ ?_
    simp only [one, more]
    exact ih takes

end

end Membrane.LiqQueue
