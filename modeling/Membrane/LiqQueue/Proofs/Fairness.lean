import Membrane.LiqQueue.Proofs.Sizing

/-!
# What a liquidation takes from each slot

A liquidation goes over the premiums in ascending order. A slot gives at most its total, and
the next one is asked only when it has nothing left. What its bids pay is worth no more than
one unit of collateral above what they get, and what all slots get is what is reported.
-/

namespace Membrane.LiqQueue

open Outcome

/-! ## Values and amounts, back and forth -/

namespace PriceResponse256

variable {self : PriceResponse256}

theorem valueOf_amountOf_le (value : Nat) : self.valueOf (self.amountOf value) ≤ value := by
  have hamount : self.amountOf value * Decimal256.fractional ≤
      self.units * (value * Decimal256.fractional / self.price.atomics) :=
    Nat.div_mul_le_self _ _
  have hparts : self.amountOf value * Decimal256.fractional / self.units ≤
      value * Decimal256.fractional / self.price.atomics :=
    Nat.div_le_of_le_mul hamount
  apply Nat.div_le_of_le_mul
  calc self.price.atomics * (self.amountOf value * Decimal256.fractional / self.units)
      ≤ self.price.atomics * (value * Decimal256.fractional / self.price.atomics) :=
        Nat.mul_le_mul_left _ hparts
    _ ≤ value * Decimal256.fractional := Nat.mul_div_le _ _
    _ = Decimal256.fractional * value := Nat.mul_comm _ _

theorem le_valueOf_amountOf_succ (decimals : self.decimals ≤ 18) (price : self.price.atomics ≠ 0)
    (value : Nat) : value ≤ self.valueOf (self.amountOf value + 1) := by
  obtain ⟨scale, hscale⟩ : ∃ scale, Decimal256.fractional = self.units * scale := by
    have hpow : self.decimals % 2 ^ 32 ≤ 18 := Nat.le_trans (Nat.mod_le _ _) decimals
    exact Nat.pow_dvd_pow 10 hpow
  have hunits : 0 < self.units := units_pos
  have hpositive : 0 < scale := by
    apply Nat.pos_of_ne_zero
    rintro rfl
    exact Decimal256.fractional_ne_zero hscale
  generalize hquotient : value * Decimal256.fractional / self.price.atomics = quotient
  have hamount : self.amountOf value = quotient / scale := by
    unfold amountOf
    rw [hquotient, hscale, Nat.mul_div_mul_left _ _ hunits]
  have hparts : (quotient / scale + 1) * Decimal256.fractional / self.units =
      (quotient / scale + 1) * scale := by
    rw [hscale, Nat.mul_left_comm, Nat.mul_div_cancel_left _ hunits]
  have hnext : quotient + 1 ≤ (quotient / scale + 1) * scale := by
    have hlt := Nat.lt_mul_div_succ quotient hpositive
    rw [Nat.mul_comm]
    exact hlt
  have hvalue : value * Decimal256.fractional ≤ self.price.atomics * (quotient + 1) := by
    have hlt := Nat.lt_mul_div_succ (value * Decimal256.fractional) (Nat.pos_of_ne_zero price)
    rw [hquotient] at hlt
    exact Nat.le_of_lt hlt
  unfold valueOf
  rw [hamount, hparts]
  apply (Nat.le_div_iff_mul_le Decimal256.fractional_pos).mpr
  exact Nat.le_trans hvalue (Nat.mul_le_mul_left _ hnext)

end PriceResponse256

/-! ## What one slot gives and gets -/

/-- A slot gives at most what it has, and gets collateral that is worth no less, up to one
    unit of the collateral. -/
structure FairFill (price creditPrice : PriceResponse256) (slot : PremiumSlot) (fill : PoolFill) :
    Prop where
  most : fill.required ≤ slot.totalBidAmount
  worth : creditPrice.valueOf fill.required ≤
    (price.discounted slot).valueOf (fill.collateral + 1)

section

variable {slot : PremiumSlot} {price creditPrice : PriceResponse256} {collateral : Nat}
  {fill : PoolFill}

theorem fillPool_priced (done : fillPool slot collateral price creditPrice = .ok fill)
    (short : fill.filled = false) : (price.discounted slot).price.atomics ≠ 0 := by
  simp only [fillPool, bind_eq_ok, Decimal256.sub_eq_ok, Decimal256.mul_eq_ok] at done
  obtain ⟨_, ⟨-, rfl⟩, _, ⟨-, rfl⟩, _, -, _, -, done⟩ := done
  split at done
  case isTrue =>
    simp only [bind_eq_ok, PriceResponse256.getAmount_eq_ok] at done
    obtain ⟨_, -, _, ⟨hprice, -⟩, -⟩ := done
    exact hprice
  case isFalse =>
    obtain rfl := pure_eq_ok.mp done
    cases short

theorem fillPool_fair (decimals : price.decimals ≤ 18)
    (done : fillPool slot collateral price creditPrice = .ok fill) :
    FairFill price creditPrice slot fill := by
  have hshort := fillPool_priced done
  rw [fillPool_eq done] at hshort ⊢
  by_cases hless : slot.totalBidAmount < slot.required price creditPrice collateral
  · rw [if_pos hless] at hshort ⊢
    refine ⟨Nat.le_refl _, ?_⟩
    have hdecimals : (price.discounted slot).decimals ≤ 18 := decimals
    exact PriceResponse256.le_valueOf_amountOf_succ hdecimals (hshort rfl) _
  · rw [if_neg hless]
    refine ⟨Nat.le_of_not_lt hless, ?_⟩
    calc creditPrice.valueOf (slot.required price creditPrice collateral)
        ≤ (price.discounted slot).valueOf collateral := PriceResponse256.valueOf_amountOf_le _
      _ ≤ (price.discounted slot).valueOf (collateral + 1) :=
        PriceResponse256.valueOf_mono (Nat.le_succ _)

theorem fillPool_exhausts (done : fillPool slot collateral price creditPrice = .ok fill)
    (short : fill.filled = false) : fill.required = slot.totalBidAmount := by
  rw [fillPool_eq done] at short ⊢
  split at short
  case isTrue hless => rw [if_pos hless]
  case isFalse => cases short

theorem fillPool_takesAll (done : fillPool slot collateral price creditPrice = .ok fill)
    (filled : fill.filled = true) : fill.collateral = collateral := by
  rw [fillPool_eq done] at filled ⊢
  split at filled
  case isTrue => cases filled
  case isFalse hless => rw [if_neg hless]

end

/-! ## Setting the total of a slot -/

/-- What going over waiting bids adds to a slot is added to its queue. -/
structure Activates (queue queue' : Queue) (slot slot' : PremiumSlot) : Prop where
  more : slot.totalBidAmount ≤ slot'.totalBidAmount
  counted : queue' = queue.withAmount
    (queue.bidAsset.amount + (slot'.totalBidAmount - slot.totalBidAmount))
  home : slot'.liqPremium = slot.liqPremium

theorem Activates.refl (queue : Queue) (slot : PremiumSlot) : Activates queue queue slot slot := by
  refine ⟨Nat.le_refl _, ?_, rfl⟩
  rw [Nat.sub_self]
  rfl

theorem activateWaiting_activates {blockTime : Nat} :
    ∀ {waiting : List Bid} {acc acc' : Activation},
    waiting.foldlM (activateWaiting blockTime) acc = .ok acc' →
    Activates acc.queue acc'.queue acc.slot acc'.slot := by
  intro waiting
  induction waiting with
  | nil =>
    intro acc acc' done
    obtain rfl := pure_eq_ok.mp done
    exact .refl _ _
  | cons bid rest ih =>
    intro acc acc' done
    simp only [List.foldlM_cons, bind_eq_ok] at done
    obtain ⟨mid, hone, hrest⟩ := done
    have hlater := ih hrest
    simp only [activateWaiting, bind_eq_ok] at hone
    obtain ⟨waitEnd, -, hone⟩ := hone
    split at hone
    case isTrue =>
      simp only [bind_eq_ok, pure_eq_ok] at hone
      obtain ⟨⟨queue, slot⟩, hactivate, rfl⟩ := hone
      obtain ⟨-, rfl, rfl⟩ := activateBid_eq hactivate
      have hmore : acc.slot.totalBidAmount + bid.amount ≤ acc'.slot.totalBidAmount := hlater.more
      refine ⟨by omega, ?_, hlater.home⟩
      rw [hlater.counted]
      have htotal : acc.queue.bidAsset.amount + bid.amount +
          (acc'.slot.totalBidAmount - (acc.slot.totalBidAmount + bid.amount)) =
          acc.queue.bidAsset.amount + (acc'.slot.totalBidAmount - acc.slot.totalBidAmount) := by
        omega
      show (acc.queue.withAmount _).withAmount (acc.queue.bidAsset.amount + bid.amount +
        (acc'.slot.totalBidAmount - (acc.slot.totalBidAmount + bid.amount))) = _
      rw [htotal]
      rfl
    case isFalse =>
      obtain rfl := pure_eq_ok.mp hone
      exact hlater

theorem setSlotTotal_activates {env : Env} {config : Config} {queue queue' : Queue}
    {slot slot' : PremiumSlot} (done : setSlotTotal env config queue slot = .ok (queue', slot')) :
    Activates queue queue' slot slot' := by
  simp only [setSlotTotal, bind_eq_ok] at done
  obtain ⟨_, -, done⟩ := done
  split at done
  case isTrue =>
    simp only [pure_eq_ok, Prod.mk.injEq] at done
    obtain ⟨rfl, rfl⟩ := done
    exact .refl _ _
  case isFalse =>
    simp only [bind_eq_ok, pure_eq_ok, Prod.mk.injEq] at done
    obtain ⟨acc, hfold, rfl, rfl⟩ := done
    have hactivates := activateWaiting_activates hfold
    exact ⟨hactivates.more, hactivates.counted, hactivates.home⟩

theorem Activates.nothing {queue queue' : Queue} {slot slot' : PremiumSlot}
    (activates : Activates queue queue' slot slot') (empty : slot'.totalBidAmount = 0) :
    slot.totalBidAmount = 0 ∧ queue' = queue := by
  have hmore := activates.more
  have hzero : slot.totalBidAmount = 0 := by omega
  refine ⟨hzero, ?_⟩
  rw [activates.counted, empty, hzero]
  rfl

/-! ## One premium -/

/-- One slot that something was taken from: the sums before, the slot with its waiting bids
    gone over, and what was taken. -/
abbrev Taken := SlotSums × PremiumSlot × PoolFill

/-- A slot is left with what it did not give, and the reward sum of its bids has grown by its
    collateral for each of its tokens. -/
structure LeftWith (l : Liquidation) (bidFor : String) (premium : Nat) (slot : PremiumSlot)
    (fill : PoolFill) : Prop where
  home : slot.liqPremium = Decimal256.percent premium
  total : ∃ slot', l.queue.findSlot premium = some slot' ∧
    slot'.totalBidAmount + fill.required = slot.totalBidAmount
  credited : ∃ sum, slotSums l.sums bidFor premium slot.currentEpoch slot.currentScale = some sum ∧
    sum.atomics = slot.sumSnapshot.atomics + slot.productSnapshot.atomics *
      (fill.collateral * Decimal256.fractional / slot.totalBidAmount) / Decimal256.fractional

/-- What one premium of a liquidation does: it is passed over with nothing in it, or its slot
    gives and gets. -/
inductive PremiumDone (env : Env) (config : Config) (bidFor : String)
    (price creditPrice : PriceResponse256) (premium : Nat) (l l' : Liquidation) :
    Option PoolFill → Prop
  | passed (empty : ∀ slot, l.queue.findSlot premium = some slot → slot.totalBidAmount = 0)
      (same : l' = l) : PremiumDone env config bidFor price creditPrice premium l l' none
  | took (slot : PremiumSlot) (fill : PoolFill)
      (takes : l.Takes env config price creditPrice premium slot fill)
      (left : LeftWith l' bidFor premium slot fill)
      (others : ∀ other, other ≠ premium → l'.queue.findSlot other = l.queue.findSlot other)
      (otherSums : ∀ other, other ≠ premium →
        slotSums l'.sums bidFor other = slotSums l.sums bidFor other)
      (repaid : l'.repayAmount = l.repayAmount + fill.required)
      (remaining : l.remaining = l'.remaining + fill.collateral) :
      PremiumDone env config bidFor price creditPrice premium l l' (some fill)

section

variable {env : Env} {config : Config} {bidFor : String} {price creditPrice : PriceResponse256}
  {premium : Nat} {l l' : Liquidation} {fill : Option PoolFill}

theorem liquidateSlot_done
    (done : liquidateSlot env config bidFor price creditPrice premium l = .ok (l', fill)) :
    PremiumDone env config bidFor price creditPrice premium l l' fill := by
  unfold liquidateSlot at done
  cases hfound : l.queue.findSlot premium with
  | none =>
    simp only [hfound, pure_eq_ok, Prod.mk.injEq] at done
    obtain ⟨rfl, rfl⟩ := done
    refine .passed (fun slot hslot => ?_) rfl
    rw [hfound] at hslot
    cases hslot
  | some before =>
    simp only [hfound, bind_eq_ok] at done
    obtain ⟨⟨queue, slot⟩, hset, done⟩ := done
    have hactivates := setSlotTotal_activates hset
    split at done
    case isTrue hzero =>
      simp only [pure_eq_ok, Prod.mk.injEq] at done
      obtain ⟨rfl, rfl⟩ := done
      obtain ⟨hbefore, hqueue⟩ := hactivates.nothing hzero
      refine .passed (fun stored hstored => ?_) (by rw [hqueue])
      obtain rfl : before = stored := Option.some.inj (hfound.symm.trans hstored)
      exact hbefore
    case isFalse hnonzero =>
      simp only [bind_eq_ok, pure_eq_ok, Prod.mk.injEq] at done
      obtain ⟨⟨sums', slot', fill'⟩, hpool, repaid, hrepaid, remaining, hremaining, rfl, rfl⟩ :=
        done
      obtain ⟨hfill, spent, hspent, hupdate, rfl⟩ := executePoolLiquidation_eq hnonzero hpool
      obtain ⟨-, -, hpremium, htotal, -, -⟩ := updateProduct_frame hupdate
      have hhome : slot.liqPremium = Decimal256.percent premium :=
        hactivates.home.trans (Queue.findSlot_premium hfound)
      have hspentHome : spent.liqPremium = slot.liqPremium := by rw [hspent.frame]
      have hhome' : slot'.liqPremium = Decimal256.percent premium :=
        hpremium.trans (hspentHome.trans hhome)
      have hslots : ∀ other, queue.findSlot other = l.queue.findSlot other := by
        intro other
        rw [hactivates.counted]
        rfl
      simp only [Uint256.add_eq_ok] at hrepaid
      refine .took slot fill' ⟨⟨before, queue, hfound, hset⟩, hnonzero, hfill⟩
        ⟨hhome, ⟨slot', ?_, ?_⟩, spent.sumSnapshot, ?_, hspent.sum⟩ (fun other hne => ?_)
        (fun other hne => ?_) hrepaid.2.symm ?_
      · dsimp only
        rw [storePremiumSlot_eq hhome']
        exact Queue.findSlot_replaceSlots_self queue hhome'
      · rw [htotal]
        exact hspent.total
      · dsimp only
        rw [slotSums_store, Function.update_self, if_pos ⟨rfl, rfl⟩]
      · dsimp only
        rw [storePremiumSlot_eq hhome',
          Queue.findSlot_replaceSlots_ne queue hhome' (Ne.symm hne), hslots other]
      · dsimp only
        rw [slotSums_store, Function.update_of_ne hne]
      · dsimp only
        split at hremaining
        case isTrue hfilled =>
          obtain rfl := pure_eq_ok.mp hremaining
          rw [fillPool_takesAll hfill hfilled, Nat.zero_add]
        case isFalse =>
          obtain ⟨hle, rfl⟩ := subUint_eq_ok.mp hremaining
          exact (Nat.sub_add_cancel hle).symm

theorem Liquidation.taken_passed {rest : List Nat}
    (done : liquidateSlot env config bidFor price creditPrice (premium % 256) l = .ok (l', none)) :
    l.taken env config bidFor price creditPrice (premium :: rest) =
      l'.taken env config bidFor price creditPrice rest := by
  rw [Liquidation.taken]
  simp only [done, Option.any_none, Bool.false_eq_true, if_false]
  unfold liquidateSlot at done
  cases hfound : l.queue.findSlot (premium % 256) with
  | none => rfl
  | some before =>
    simp only [hfound, bind_eq_ok] at done
    obtain ⟨⟨queue, slot⟩, hset, done⟩ := done
    split at done
    case isTrue hzero =>
      have hempty : slot.totalBidAmount = 0 := hzero
      simp only [hset, Except.toOption, Option.bind_eq_bind, Option.bind_some, hempty, if_true]
      cases fillPool slot l.remaining price creditPrice with
      | ok _ => rfl
      | error _ => rfl
    case isFalse =>
      simp only [bind_eq_ok, pure_eq_ok, Prod.mk.injEq] at done
      obtain ⟨_, -, _, -, _, -, -, hnone⟩ := done
      cases hnone

theorem Liquidation.taken_took {rest : List Nat} {slot : PremiumSlot} {fill : PoolFill}
    (takes : l.Takes env config price creditPrice (premium % 256) slot fill)
    (done : liquidateSlot env config bidFor price creditPrice (premium % 256) l =
      .ok (l', some fill)) :
    l.taken env config bidFor price creditPrice (premium :: rest) =
      (slotSums l.sums bidFor (premium % 256), slot, fill) ::
        if fill.filled then [] else l'.taken env config bidFor price creditPrice rest := by
  rw [Liquidation.taken]
  obtain ⟨before, queue, hfound, hactivated⟩ := takes.activated
  simp only [hfound, hactivated, takes.fills, Except.toOption, Option.bind_eq_bind,
    Option.bind_some, if_neg takes.nonzero, Option.toList_some, done, Option.any_some,
    List.singleton_append]

/-! ## All premiums -/

structure TakenFrom (bidFor : String) (price creditPrice : PriceResponse256) (start : Nat)
    (taken : List Taken) (l l' : Liquidation) : Prop where
  ascending : taken.Pairwise fun earlier later => earlier.2.1.liqPremium < later.2.1.liqPremium
  fair : ∀ t ∈ taken, FairFill price creditPrice t.2.1 t.2.2
  left : ∀ t ∈ taken, ∃ premium, start ≤ premium ∧ LeftWith l' bidFor premium t.2.1 t.2.2
  below : ∀ t ∈ taken, ∀ premium slot, Decimal256.percent premium < t.2.1.liqPremium →
    l'.queue.findSlot premium = some slot → slot.totalBidAmount = 0
  before : ∀ premium < start, l'.queue.findSlot premium = l.queue.findSlot premium
  beforeSums : ∀ premium < start, slotSums l'.sums bidFor premium = slotSums l.sums bidFor premium
  repaid : l'.repayAmount = l.repayAmount + (taken.map fun t => t.2.2.required).sum
  remaining : l.remaining = l'.remaining + (taken.map fun t => t.2.2.collateral).sum

theorem percent_lt {a b : Nat} : Decimal256.percent a < Decimal256.percent b ↔ a < b :=
  Nat.mul_lt_mul_right (by decide)

theorem LeftWith.of_same {slot : PremiumSlot} {fill : PoolFill}
    (slots : l'.queue.findSlot premium = l.queue.findSlot premium)
    (sums : slotSums l'.sums bidFor premium = slotSums l.sums bidFor premium)
    (left : LeftWith l bidFor premium slot fill) : LeftWith l' bidFor premium slot fill := by
  refine ⟨left.home, ?_, ?_⟩
  · rw [slots]
    exact left.total
  · rw [sums]
    exact left.credited

theorem TakenFrom.nothing (start : Nat) : TakenFrom bidFor price creditPrice start [] l l := by
  refine ⟨.nil, ?_, ?_, ?_, fun _ _ => rfl, fun _ _ => rfl, rfl, rfl⟩
  · exact fun t mem => (List.not_mem_nil mem).elim
  · exact fun t mem => (List.not_mem_nil mem).elim
  · exact fun t mem => (List.not_mem_nil mem).elim

theorem TakenFrom.from_next {start : Nat} {taken : List Taken}
    (later : TakenFrom bidFor price creditPrice (start + 1) taken l l') :
    TakenFrom bidFor price creditPrice start taken l l' := by
  refine ⟨later.ascending, later.fair, fun t mem => ?_, later.below,
    fun premium hlt => later.before premium (by omega),
    fun premium hlt => later.beforeSums premium (by omega), later.repaid, later.remaining⟩
  obtain ⟨premium, hstart, hleft⟩ := later.left t mem
  exact ⟨premium, by omega, hleft⟩

theorem TakenFrom.cons {mid : Liquidation} {start : Nat} {sums : SlotSums} {slot : PremiumSlot}
    {fill : PoolFill} {taken : List Taken} (left : LeftWith mid bidFor start slot fill)
    (fair : FairFill price creditPrice slot fill)
    (others : ∀ other, other ≠ start → mid.queue.findSlot other = l.queue.findSlot other)
    (otherSums : ∀ other, other ≠ start →
      slotSums mid.sums bidFor other = slotSums l.sums bidFor other)
    (repaid : mid.repayAmount = l.repayAmount + fill.required)
    (remaining : l.remaining = mid.remaining + fill.collateral)
    (drained : ∀ premium < start, ∀ slot, l.queue.findSlot premium = some slot →
      slot.totalBidAmount = 0)
    (later : TakenFrom bidFor price creditPrice (start + 1) taken mid l') :
    TakenFrom bidFor price creditPrice start ((sums, slot, fill) :: taken) l l' := by
  refine ⟨List.pairwise_cons.mpr ⟨fun t mem => ?_, later.ascending⟩,
    List.forall_mem_cons.mpr ⟨fair, later.fair⟩,
    List.forall_mem_cons.mpr ⟨⟨start, Nat.le_refl _, ?_⟩, fun t mem => ?_⟩,
    List.forall_mem_cons.mpr ⟨fun premium lower hlt hfound => ?_, later.below⟩,
    fun premium hlt => ?_, fun premium hlt => ?_, ?_, ?_⟩
  · obtain ⟨premium, hstart, hleft⟩ := later.left t mem
    rw [left.home, hleft.home]
    exact percent_lt.mpr hstart
  · exact left.of_same (later.before start (Nat.lt_succ_self _))
      (later.beforeSums start (Nat.lt_succ_self _))
  · obtain ⟨premium, hstart, hleft⟩ := later.left t mem
    exact ⟨premium, by omega, hleft⟩
  · rw [left.home] at hlt
    have hless : premium < start := percent_lt.mp hlt
    rw [later.before premium (by omega), others premium (by omega)] at hfound
    exact drained premium hless lower hfound
  · rw [later.before premium (by omega)]
    exact others premium (by omega)
  · rw [later.beforeSums premium (by omega)]
    exact otherSums premium (by omega)
  · rw [List.map_cons, List.sum_cons, later.repaid, repaid, Nat.add_assoc]
  · rw [List.map_cons, List.sum_cons, remaining, later.remaining]
    dsimp only
    omega

theorem liquidatePremiums_taken (decimals : price.decimals ≤ 18) : ∀ (count start : Nat)
    (l l' : Liquidation), start + count ≤ 256 →
    (∀ premium < start, ∀ slot, l.queue.findSlot premium = some slot → slot.totalBidAmount = 0) →
    liquidatePremiums env config bidFor price creditPrice (List.range' start count) l = .ok l' →
    TakenFrom bidFor price creditPrice start
      (l.taken env config bidFor price creditPrice (List.range' start count)) l l' := by
  intro count
  induction count with
  | zero =>
    intro start l l' _ _ done
    obtain rfl := pure_eq_ok.mp done
    exact .nothing start
  | succ count ih =>
    intro start l l' hsmall hdrained done
    have hcast : start % 256 = start := Nat.mod_eq_of_lt (by omega)
    rw [List.range'_succ] at done ⊢
    simp only [liquidatePremiums, bind_eq_ok] at done
    obtain ⟨⟨mid, fill⟩, hone, done⟩ := done
    have hdone := liquidateSlot_done hone
    rw [hcast] at hdone
    cases hdone with
    | passed hempty hsame =>
      rw [Liquidation.taken_passed hone]
      subst hsame
      simp only [Option.any_none, Bool.false_eq_true, if_false] at done
      refine (ih (start + 1) mid l' (by omega) (fun premium hlt slot hfound => ?_) done).from_next
      by_cases here : premium = start
      · exact hempty slot (here ▸ hfound)
      · exact hdrained premium (by omega) slot hfound
    | took slot fill htakes hleft hothers hotherSums hrepaid hremaining =>
      have htakes' : l.Takes env config price creditPrice (start % 256) slot fill := by
        rw [hcast]
        exact htakes
      rw [Liquidation.taken_took htakes' hone]
      have hfair := fillPool_fair decimals htakes.fills
      refine .cons hleft hfair hothers hotherSums hrepaid hremaining hdrained ?_
      cases hfilled : fill.filled with
      | true =>
        simp only [Option.any_some, hfilled, if_true] at done ⊢
        obtain rfl := pure_eq_ok.mp done
        exact .nothing _
      | false =>
        simp only [Option.any_some, hfilled, Bool.false_eq_true, if_false] at done ⊢
        refine ih (start + 1) mid l' (by omega) (fun premium hlt stored hfound => ?_) done
        by_cases here : premium = start
        · -- the slot has given all that it had
          obtain ⟨slot', hslot', htotal⟩ := hleft.total
          rw [here, hslot'] at hfound
          obtain rfl := Option.some.inj hfound
          have hall := fillPool_exhausts htakes.fills hfilled
          omega
        · rw [hothers premium here] at hfound
          exact hdrained premium (by omega) stored hfound

end

/-! ## The whole liquidation -/

/-- What a liquidation is meant to do: the slots it takes from are in ascending order of their
    premiums, with nothing left below any of them; each gives at most what it has, for collateral
    that is worth it up to a unit; and the collateral reported, at most that of the call, is what
    the bids of all the slots were credited. -/
structure LiquidatesFairly (bidFor : String) (price creditPrice : PriceResponse256)
    (collateralAmount : Nat) (taken : List Taken) (queue' : Queue) (sums' : EpochScaleSums)
    (liquidated : Liquidated) : Prop where
  ascending : taken.Pairwise fun earlier later => earlier.2.1.liqPremium < later.2.1.liqPremium
  fair : ∀ t ∈ taken, FairFill price creditPrice t.2.1 t.2.2
  exhausted : ∀ t ∈ taken, ∀ premium slot, Decimal256.percent premium < t.2.1.liqPremium →
    queue'.findSlot premium = some slot → slot.totalBidAmount = 0
  left : ∀ t ∈ taken, ∃ premium,
    LeftWith ⟨queue', sums', 0, liquidated.repayAmount⟩ bidFor premium t.2.1 t.2.2
  repaid : liquidated.repayAmount = (taken.map fun t => t.2.2.required).sum
  reported : liquidated.collateralAmount = (taken.map fun t => t.2.2.collateral).sum
  most : liquidated.collateralAmount ≤ collateralAmount

/-- The slots that a liquidation of a queue takes from. -/
def State.takenFrom (s : State) (env : Env) (bidFor : AssetInfo)
    (collateralPrice creditPrice : PriceResponse) (queue : Queue) (collateralAmount : Nat) :
    List Taken :=
  Liquidation.taken env s.config bidFor.toText (toDecimal256 collateralPrice)
    (toDecimal256 creditPrice) (List.range (queue.maxPremium + 1))
    ⟨queue, s.epochScaleSums, collateralAmount, 0⟩

/-- A liquidation of a queue whose premiums are those that bids can name, in collateral of at
    most eighteen decimals, is fair in each slot. -/
theorem liquidation_fair {s s' : State} {queue : Queue} {env : Env} {info : MessageInfo}
    {bidFor : AssetInfo} {collateralPrice creditPrice : PriceResponse} {collateralAmount : Nat}
    {response : Response OutMsg} {liquidated : Liquidated}
    (stored : s.queues.lookup bidFor.toText = some queue) (narrow : queue.maxPremium < 256)
    (decimals : collateralPrice.decimals ≤ 18)
    (done : executeLiquidation env info collateralAmount bidFor collateralPrice creditPrice s =
      .ok (s', response, liquidated)) :
    ∃ queue', s'.queues.lookup bidFor.toText = some queue' ∧
      LiquidatesFairly bidFor.toText (toDecimal256 collateralPrice) (toDecimal256 creditPrice)
        collateralAmount (s.takenFrom env bidFor collateralPrice creditPrice queue collateralAmount)
        queue' s'.epochScaleSums liquidated := by
  simp only [executeLiquidation, bind_eq_ok, guardErr_eq_ok, loadQueue_eq_ok, Uint128.add_eq_ok,
    subUint_eq_ok, Uint256.toUint128_eq_ok, ofOption_eq_ok, pure_eq_ok, Prod.mk.injEq] at done
  obtain ⟨_, -, queue₁, hqueue, _, -, _, ⟨-, rfl⟩, l, hloop, _, ⟨hmost, rfl⟩, _, ⟨-, rfl⟩, left, -,
    rfl, -, rfl⟩ := done
  obtain rfl : queue = queue₁ := Option.some.inj (stored.symm.trans hqueue)
  rw [List.range_eq_range'] at hloop
  have hbelow : ∀ premium < 0, ∀ slot, queue.findSlot premium = some slot →
      slot.totalBidAmount = 0 := fun premium hlt => absurd hlt (Nat.not_lt_zero premium)
  have htaken : TakenFrom bidFor.toText (toDecimal256 collateralPrice) (toDecimal256 creditPrice) 0
      (s.takenFrom env bidFor collateralPrice creditPrice queue collateralAmount)
      ⟨queue, s.epochScaleSums, collateralAmount, 0⟩ l := by
    unfold State.takenFrom
    rw [List.range_eq_range']
    exact liquidatePremiums_taken decimals _ 0 _ l (by omega) hbelow hloop
  have hremaining : collateralAmount = l.remaining +
      ((s.takenFrom env bidFor collateralPrice creditPrice queue collateralAmount).map
        fun t => t.2.2.collateral).sum := htaken.remaining
  refine ⟨_, AList.lookup_insert _, htaken.ascending, htaken.fair, htaken.below, fun t mem => ?_,
    ?_, ?_, Nat.sub_le _ _⟩
  · obtain ⟨premium, -, hleft⟩ := htaken.left t mem
    exact ⟨premium, hleft.home, hleft.total, hleft.credited⟩
  · rw [htaken.repaid, Nat.zero_add]
  · dsimp only
    omega

/-! ## Sample liquidations -/

def sampleTaken (calls : List Call) (collateralPrice : PriceResponse) (collateralAmount : Nat) :
    Option (State × Queue × State × Response OutMsg × Liquidated) :=
  (execAll Call.exec calls sampleStart).bind fun s => (s.queues.lookup "atom").bind fun queue =>
    match executeLiquidation ⟨5, "queue"⟩ (MessageInfo.noFunds "cdp") collateralAmount
      (.nativeToken "atom") collateralPrice ⟨Decimal.one, 6⟩ s with
    | .ok (s', response, liquidated) => some (s, queue, s', response, liquidated)
    | .error _ => none

theorem sampleTaken_eq {calls : List Call} {collateralPrice : PriceResponse}
    {collateralAmount : Nat}
    {s s' : State} {queue : Queue} {response : Response OutMsg} {liquidated : Liquidated}
    (done : sampleTaken calls collateralPrice collateralAmount =
      some (s, queue, s', response, liquidated)) :
    execAll Call.exec calls sampleStart = some s ∧
      s.queues.lookup (AssetInfo.nativeToken "atom").toText = some queue ∧
      executeLiquidation ⟨5, "queue"⟩ (MessageInfo.noFunds "cdp") collateralAmount
        (.nativeToken "atom") collateralPrice ⟨Decimal.one, 6⟩ s =
          .ok (s', response, liquidated) := by
  obtain ⟨start, hrun, hdone⟩ := Option.bind_eq_some_iff.mp done
  obtain ⟨stored, hqueue, hdone⟩ := Option.bind_eq_some_iff.mp hdone
  split at hdone
  case h_1 hexecuted =>
    simp only [Option.some.injEq, Prod.mk.injEq] at hdone
    obtain ⟨rfl, rfl, rfl, rfl, rfl⟩ := hdone
    exact ⟨hrun, hqueue, hexecuted⟩
  case h_2 => cases hdone

/-- A liquidation of 7000 goes through two slots. -/
theorem liquidation_fair_two :
    ∃ s queue s' response liquidated,
      sampleTaken sampleInOrder ⟨Decimal.one, 6⟩ 7000 = some (s, queue, s', response, liquidated) ∧
      liquidated = ⟨6891, 7000⟩ ∧ ∃ queue', s'.queues.lookup "atom" = some queue' ∧
        LiquidatesFairly "atom" (toDecimal256 ⟨Decimal.one, 6⟩) (toDecimal256 ⟨Decimal.one, 6⟩) 7000
          (s.takenFrom ⟨5, "queue"⟩ (.nativeToken "atom") ⟨Decimal.one, 6⟩ ⟨Decimal.one, 6⟩ queue
            7000) queue' s'.epochScaleSums liquidated := by
  have hreads : (sampleTaken sampleInOrder ⟨Decimal.one, 6⟩ 7000).map (fun run =>
      (run.2.1.maxPremium, run.2.2.2.2)) = some (10, ⟨6891, 7000⟩) := by decide +kernel
  obtain ⟨⟨s, queue, s', response, liquidated⟩, hrun, hread⟩ := Option.map_eq_some_iff.mp hreads
  obtain ⟨hmax, hliquidated⟩ := Prod.mk.inj hread
  obtain ⟨-, hqueue, hdone⟩ := sampleTaken_eq hrun
  have hmax : queue.maxPremium = 10 := hmax
  have hnarrow : queue.maxPremium < 256 := by omega
  obtain ⟨queue', hafter, hfair⟩ := liquidation_fair hqueue hnarrow (by decide) hdone
  exact ⟨s, queue, s', response, liquidated, hrun, hliquidated, queue', hafter, hfair⟩

def sampleWide : List Call :=
  [sampleQueue 257 1000, sampleBid 1 "ann" 0 1000, sampleBid 1 "bob" 0 3000,
    sampleBid 1 "eve" 1 2000]

def sampleSingle : List Call := [sampleQueue 10 1000000, sampleBid 1 "ann" 0 1000]

/-- A liquidation is not always fair in each slot: the first premium comes again after 255,
    and collateral of nineteen decimals is rounded to ten units. -/
theorem liquidation_not_fair :
    (¬ ∀ calls s queue s' response liquidated collateralAmount,
      sampleTaken calls ⟨Decimal.one, 6⟩ collateralAmount =
        some (s, queue, s', response, liquidated) →
      ∃ queue', s'.queues.lookup "atom" = some queue' ∧
        LiquidatesFairly "atom" (toDecimal256 ⟨Decimal.one, 6⟩) (toDecimal256 ⟨Decimal.one, 6⟩)
          collateralAmount (s.takenFrom ⟨5, "queue"⟩ (.nativeToken "atom") ⟨Decimal.one, 6⟩
            ⟨Decimal.one, 6⟩ queue collateralAmount) queue' s'.epochScaleSums liquidated) ∧
    ¬ ∀ calls s queue s' response liquidated collateralPrice collateralAmount,
      queue.maxPremium < 256 → sampleTaken calls collateralPrice collateralAmount =
        some (s, queue, s', response, liquidated) →
      ∃ queue', s'.queues.lookup "atom" = some queue' ∧
        LiquidatesFairly "atom" (toDecimal256 collateralPrice) (toDecimal256 ⟨Decimal.one, 6⟩)
          collateralAmount (s.takenFrom ⟨5, "queue"⟩ (.nativeToken "atom") collateralPrice
            ⟨Decimal.one, 6⟩ queue collateralAmount) queue' s'.epochScaleSums liquidated := by
  constructor
  · intro claim
    have hreads : (sampleTaken sampleWide ⟨Decimal.one, 6⟩ 10000).map (fun run =>
        (run.1.takenFrom ⟨5, "queue"⟩ (.nativeToken "atom") ⟨Decimal.one, 6⟩ ⟨Decimal.one, 6⟩
          run.2.1 10000).map fun t => t.2.1.liqPremium) =
        some [.percent 0, .percent 1, .percent 0, .percent 1] := by decide +kernel
    obtain ⟨⟨s, queue, s', response, liquidated⟩, hrun, hread⟩ := Option.map_eq_some_iff.mp hreads
    obtain ⟨queue', -, hfair⟩ := claim _ _ _ _ _ _ _ hrun
    have hascending := List.pairwise_map.mpr hfair.ascending
    rw [hread] at hascending
    exact absurd hascending (by decide)
  · intro claim
    have hreads : (sampleTaken sampleSingle ⟨⟨300000000000000000⟩, 19⟩ 100000000000000000000).map
        (fun run => (run.2.1.maxPremium, (run.1.takenFrom ⟨5, "queue"⟩ (.nativeToken "atom")
          ⟨⟨300000000000000000⟩, 19⟩ ⟨Decimal.one, 6⟩ run.2.1 100000000000000000000).all fun t =>
            (toDecimal256 ⟨Decimal.one, 6⟩).valueOf t.2.2.required ≤
              ((toDecimal256 ⟨⟨300000000000000000⟩, 19⟩).discounted t.2.1).valueOf
                (t.2.2.collateral + 1))) = some (10, false) := by decide +kernel
    obtain ⟨⟨s, queue, s', response, liquidated⟩, hrun, hread⟩ := Option.map_eq_some_iff.mp hreads
    obtain ⟨hmax, hunfair⟩ := Prod.mk.inj hread
    have hmax : queue.maxPremium = 10 := hmax
    obtain ⟨queue', -, hfair⟩ := claim _ _ _ _ _ _ _ _ (by omega) hrun
    have hall := List.all_eq_true.mpr fun t mem => decide_eq_true (hfair.fair t mem).worth
    exact absurd (hall.symm.trans hunfair) (by decide)

end Membrane.LiqQueue
