import Membrane.LiqQueue.Proofs.Reach
import Membrane.LiqQueue.Query
import Mathlib.Data.List.Perm.Subperm

/-!
# What is queried and what is liquidated

A query goes over the slots as they are stored, a liquidation over the premiums. Where the
two meet the same slots they agree, as long as the slots take all of the collateral, or
what they take of it is worth their totals to the unit.
-/

namespace Membrane.LiqQueue

open Outcome

/-! ## Amounts and values -/

namespace PriceResponse256

def units (self : PriceResponse256) : Nat := 10 ^ (self.decimals % 2 ^ 32)

def valueOf (self : PriceResponse256) (amount : Nat) : Nat :=
  self.price.atomics * (amount * Decimal256.fractional / self.units) / Decimal256.fractional

def amountOf (self : PriceResponse256) (value : Nat) : Nat :=
  self.units * (value * Decimal256.fractional / self.price.atomics) / Decimal256.fractional

def discounted (self : PriceResponse256) (slot : PremiumSlot) : PriceResponse256 :=
  { self with
    price := ⟨self.price.atomics * (Decimal256.fractional - slot.liqPremium.atomics) /
      Decimal256.fractional⟩ }

variable {self : PriceResponse256}

theorem units_pos : 0 < self.units := Nat.pow_pos (by decide)

theorem getValue_eq_ok {amount : Nat} {value : Decimal256} :
    self.getValue amount = .ok value ↔
      self.decimals % 2 ^ 32 < 20 ∧ amount * Decimal256.fractional < Uint256.limit ∧
        self.price.atomics * (amount * Decimal256.fractional / self.units) < Uint256.limit ∧
          ⟨self.valueOf amount⟩ = value := by
  have hpos : (10 : Nat) ^ (self.decimals % 2 ^ 32) ≠ 0 := Nat.pos_iff_ne_zero.mp units_pos
  simp only [getValue, bind_eq_ok, Uint64.tenPow_eq_ok, Decimal256.fromRatio_eq_ok,
    Decimal256.mul_eq_ok]
  constructor
  · rintro ⟨_, ⟨hdecimals, rfl⟩, _, ⟨-, hfits, rfl⟩, hproduct, rfl⟩
    exact ⟨hdecimals, hfits, hproduct, rfl⟩
  · rintro ⟨hdecimals, hfits, hproduct, rfl⟩
    exact ⟨_, ⟨hdecimals, rfl⟩, _, ⟨hpos, hfits, rfl⟩, hproduct, rfl⟩

theorem getAmount_eq_ok {value : Decimal256} {amount : Nat} :
    self.getAmount value = .ok amount ↔
      self.price.atomics ≠ 0 ∧ value.atomics * Decimal256.fractional < Uint256.limit ∧
        self.decimals % 2 ^ 32 < 20 ∧
          self.units * (value.atomics * Decimal256.fractional / self.price.atomics) <
            Uint256.limit ∧
            self.amountOf value.atomics = amount := by
  have hpos : (10 : Nat) ^ (self.decimals % 2 ^ 32) ≠ 0 := Nat.pos_iff_ne_zero.mp units_pos
  simp only [getAmount, bind_eq_ok, Uint64.tenPow_eq_ok, Decimal256.div_eq_ok]
  constructor
  · rintro ⟨_, ⟨hprice, hfits, rfl⟩, _, ⟨hdecimals, rfl⟩, hdone⟩
    refine ⟨hprice, hfits, hdecimals, ?_, (Decimal256.mulUint_eq hdone).symm⟩
    by_cases hzero : value.atomics * Decimal256.fractional / self.price.atomics = 0
    · rw [hzero, Nat.mul_zero]
      decide
    · unfold Decimal256.mulUint at hdone
      rw [if_neg (by simp [hzero])] at hdone
      simp only [bind_eq_ok, Uint256.mul_eq_ok, Uint256.div_eq_ok] at hdone
      obtain ⟨_, ⟨hmul, -⟩, -⟩ := hdone
      exact hmul
  · rintro ⟨hprice, hfits, hdecimals, hmul, rfl⟩
    refine ⟨_, ⟨hprice, hfits, rfl⟩, _, ⟨hdecimals, rfl⟩, ?_⟩
    unfold Decimal256.mulUint
    by_cases hzero : value.atomics * Decimal256.fractional / self.price.atomics = 0
    · rw [if_pos (by simp [hzero])]
      unfold amountOf
      rw [hzero, Nat.mul_zero, Nat.zero_div]
    · rw [if_neg (by simp [hzero])]
      simp only [bind_eq_ok, Uint256.mul_eq_ok, Uint256.div_eq_ok]
      exact ⟨_, ⟨hmul, rfl⟩, Decimal256.fractional_ne_zero, rfl⟩

theorem valueOf_mono {amount amount' : Nat} (le : amount' ≤ amount) :
    self.valueOf amount' ≤ self.valueOf amount := by
  unfold valueOf
  gcongr

theorem valueOf_zero : self.valueOf 0 = 0 := by
  simp [valueOf]

end PriceResponse256

/-! ## What a slot takes -/

/-- Prices that amounts can be calculated at. -/
structure Usable (price creditPrice : PriceResponse256) : Prop where
  fits : price.price.atomics < Uint128.limit
  decimals : price.decimals % 2 ^ 32 < 20
  creditDecimals : creditPrice.decimals % 2 ^ 32 < 20
  positive : creditPrice.price.atomics ≠ 0

namespace PremiumSlot

/-- What an amount of collateral asks of the bids of a slot. -/
def required (slot : PremiumSlot) (price creditPrice : PriceResponse256) (collateral : Nat) : Nat :=
  creditPrice.amountOf ((price.discounted slot).valueOf collateral)

/-- The collateral that all the bids of a slot take. -/
def whole (slot : PremiumSlot) (price creditPrice : PriceResponse256) : Nat :=
  (price.discounted slot).amountOf (creditPrice.valueOf slot.totalBidAmount)

variable {slot slot' : PremiumSlot} {price creditPrice : PriceResponse256}

end PremiumSlot

section

variable {slot slot' : PremiumSlot} {price creditPrice : PriceResponse256} {collateral : Nat}
  {fill : PoolFill}

theorem fillPool_eq (done : fillPool slot collateral price creditPrice = .ok fill) :
    fill = if slot.totalBidAmount < slot.required price creditPrice collateral then
        ⟨slot.totalBidAmount, slot.whole price creditPrice, false⟩
      else ⟨slot.required price creditPrice collateral, collateral, true⟩ := by
  simp only [fillPool, bind_eq_ok, Decimal256.sub_eq_ok, Decimal256.mul_eq_ok,
    PriceResponse256.getValue_eq_ok, PriceResponse256.getAmount_eq_ok] at done
  obtain ⟨_, ⟨-, rfl⟩, _, ⟨-, rfl⟩, _, ⟨-, -, -, rfl⟩, _, ⟨-, -, -, -, rfl⟩, done⟩ := done
  unfold PremiumSlot.required
  split at done
  case isTrue hless =>
    simp only [bind_eq_ok, PriceResponse256.getValue_eq_ok, PriceResponse256.getAmount_eq_ok,
      pure_eq_ok] at done
    obtain ⟨_, ⟨-, -, -, rfl⟩, _, ⟨-, -, -, -, rfl⟩, rfl⟩ := done
    exact (if_pos hless).symm
  case isFalse hless =>
    simp only [pure_eq_ok] at done
    subst done
    exact (if_neg hless).symm

end

/-! ## Going over slots -/

/-- The slots with something in them. -/
def liveSlots (slots : List PremiumSlot) : List PremiumSlot :=
  slots.filter fun slot => slot.totalBidAmount ≠ 0

section

variable {price creditPrice : PriceResponse256}

end

/-! ## The liquidation -/

structure PremiumSlot.Fits (slot : PremiumSlot) (amount : Nat) : Prop where
  premium : slot.liqPremium ≤ Decimal256.one
  product : slot.productSnapshot.atomics ≤ Decimal256.fractional
  total : slot.totalBidAmount < Uint128.limit
  sum : slot.sumSnapshot.atomics + amount * Decimal256.fractional < Uint256.limit
  epoch : slot.currentEpoch + 1 < Uint128.limit
  scale : slot.currentScale + 1 < Uint128.limit

section

variable {slot slot' : PremiumSlot}

end

/-- The slots with something in them that premiums lead to. -/
def Queue.visited (queue : Queue) (premiums : List Nat) : List PremiumSlot :=
  liveSlots (premiums.filterMap queue.findSlot)

def slotsTotal (slots : List PremiumSlot) : Nat := (slots.map PremiumSlot.totalBidAmount).sum

section

variable {env : Env} {config : Config} {bidFor : String} {price creditPrice : PriceResponse256}
  {slot slot' : PremiumSlot}

end

/-! ## The two together -/

section

variable {slot : PremiumSlot} {price creditPrice : PriceResponse256} {collateral amount : Nat}

end

def wholes (price creditPrice : PriceResponse256) (slots : List PremiumSlot) : Nat :=
  (slots.map fun slot => slot.whole price creditPrice).sum

/-- Collateral that is used up within some slots: their totals take it all, or one of them
    needs no more than its total of what those before it leave. -/
def UsedWithin (price creditPrice : PriceResponse256) (slots : List PremiumSlot) (amount : Nat) :
    Prop :=
  amount ≤ wholes price creditPrice slots ∨ ∃ before slot behind, slots = before ++ slot :: behind ∧
    slot.required price creditPrice (amount - wholes price creditPrice before) ≤ slot.totalBidAmount

/-- Slots in the two orders, stored and by premium, that begin with the same ones, within which
    the collateral is used up. -/
def SameSlots (price creditPrice : PriceResponse256) (stored byPremium : List PremiumSlot)
    (amount : Nat) : Prop :=
  ∃ before behind behind', stored = before ++ behind ∧ byPremium = before ++ behind' ∧
    UsedWithin price creditPrice before amount

def AllShort (price creditPrice : PriceResponse256) (slots : List PremiumSlot)
    (amount : Nat) : Prop :=
  ∀ before slot behind, slots = before ++ slot :: behind → slot.totalBidAmount <
    slot.required price creditPrice (amount - wholes price creditPrice before)

/-- Slots that part in the two orders before one of them takes the rest of the collateral. -/
def Parted (price creditPrice : PriceResponse256) (stored byPremium : List PremiumSlot)
    (amount : Nat) : Prop :=
  ¬ AllShort price creditPrice stored amount ∧ ¬ SameSlots price creditPrice stored byPremium amount

section

variable {price creditPrice : PriceResponse256}

theorem wholes_cons (slot : PremiumSlot) (rest : List PremiumSlot) :
    wholes price creditPrice (slot :: rest) =
      slot.whole price creditPrice + wholes price creditPrice rest := rfl

theorem AllShort.rest {slot : PremiumSlot} {rest : List PremiumSlot} {amount : Nat}
    (short : AllShort price creditPrice (slot :: rest) amount) :
    AllShort price creditPrice rest (amount - slot.whole price creditPrice) := by
  intro before other behind hsplit
  have hother := short (slot :: before) other behind (by rw [hsplit, List.cons_append])
  rwa [wholes_cons, ← Nat.sub_sub] at hother

theorem not_parted (slots : List PremiumSlot) (amount : Nat) :
    ¬ Parted price creditPrice slots slots amount := by
  rintro ⟨htakes, hpart⟩
  simp only [AllShort, not_forall, Nat.not_lt] at htakes
  obtain ⟨before, slot, behind, hsplit, htakes⟩ := htakes
  exact hpart ⟨slots, [], [], (List.append_nil _).symm, (List.append_nil _).symm,
    .inr ⟨before, slot, behind, hsplit, htakes⟩⟩

end

instance PremiumSlot.fits_decidable (slot : PremiumSlot) (amount : Nat) :
    Decidable (slot.Fits amount) :=
  decidable_of_iff
    (slot.liqPremium ≤ Decimal256.one ∧ slot.productSnapshot.atomics ≤ Decimal256.fractional ∧
      slot.totalBidAmount < Uint128.limit ∧
      slot.sumSnapshot.atomics + amount * Decimal256.fractional < Uint256.limit ∧
      slot.currentEpoch + 1 < Uint128.limit ∧ slot.currentScale + 1 < Uint128.limit)
    ⟨fun h => ⟨h.1, h.2.1, h.2.2.1, h.2.2.2.1, h.2.2.2.2.1, h.2.2.2.2.2⟩,
      fun h => ⟨h.premium, h.product, h.total, h.sum, h.epoch, h.scale⟩⟩

def sampleInOrder : List Call :=
  [sampleQueue 10 2000000, sampleBid 1 "ann" 1 5000, sampleBid 1 "bob" 3 4000]

def Queue.settled (queue : Queue) (config : Config) (time amount : Nat) : Bool :=
  queue.slots.all (fun slot => slot.lastTotal ≤ time ∧ slot.waitingBids = [] ∧ slot.Fits amount) &&
    decide (amount < Uint128.limit ∧ queue.maxPremium < 256 ∧
      queue.bidAsset.info = config.bidAsset ∧ slotsTotal queue.slots ≤ queue.bidAsset.amount ∧
      queue.bidAsset.amount < Uint128.limit)

end Membrane.LiqQueue
