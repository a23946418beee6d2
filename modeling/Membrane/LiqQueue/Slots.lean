import Membrane.LiqQueue.State

/-!
# Slots and bids of a queue

The part of `bid.rs` that reads and writes the slots of a queue, and what a bid is still
worth: a slot keeps one product and one sum for all its active bids, and a bid keeps the
values they had when it was last settled.
-/

namespace Membrane.LiqQueue

/-- `MAX_LIMIT`. -/
def maxLimit : Nat := 32

def processBidActivation (bid : Bid) (slot : PremiumSlot) : Bid :=
  { bid with
    productSnapshot := slot.productSnapshot
    sumSnapshot := slot.sumSnapshot
    waitEnd := none
    scaleSnapshot := slot.currentScale
    epochSnapshot := slot.currentEpoch }

/-! ## Reading and storing -/

/-- The first slot of a premium. The source's `percent(1) * from_uint256(premium)` is the
    same decimal as `percent(premium)`. -/
def Queue.findSlot (queue : Queue) (premium : Nat) : Option PremiumSlot :=
  queue.slots.find? fun slot => slot.liqPremium = Decimal256.percent premium

/-- The slots with all those of a premium filtered out and one pushed behind the rest. -/
def Queue.replaceSlots (queue : Queue) (premium : Decimal256) (slot : PremiumSlot) : Queue :=
  { queue with
    slots := (queue.slots.filter fun other => other.liqPremium ≠ premium) ++ [slot] }

def readPremiumSlot (queue : Queue) (premium : Nat) : Outcome StdError PremiumSlot :=
  Outcome.ofOption (queue.findSlot premium) (.genericErr "Invalid premium")

def storePremiumSlot (queue : Queue) (slot : PremiumSlot) : Queue :=
  queue.replaceSlots slot.liqPremium slot

def withoutBid (id : Nat) (bids : List Bid) : List Bid := bids.filter fun bid => bid.id ≠ id

def removeBid (bid : Bid) (queue : Queue) : Result Queue := do
  let slot ← Outcome.ofOption (queue.findSlot bid.liqPremium) .invalidPremium
  pure (queue.replaceSlots (Decimal256.percent bid.liqPremium)
    { slot with
      bids := withoutBid bid.id slot.bids
      waitingBids := withoutBid bid.id slot.waitingBids })

/-- `store_bid`: the bid goes behind the active bids or the waiting ones of its slot. -/
def storeBid (queue : Queue) (bid : Bid) : Result Queue := do
  let slot ← Outcome.ofOption (queue.findSlot bid.liqPremium) .invalidPremium
  let slot := if bid.waitEnd.isSome then
      { slot with waitingBids := withoutBid bid.id slot.waitingBids ++ [bid] }
    else { slot with bids := withoutBid bid.id slot.bids ++ [bid] }
  pure (queue.replaceSlots (Decimal256.percent bid.liqPremium) slot)

/-- The bid of an id in a slot, looked for in the active bids first. -/
def PremiumSlot.findBid (slot : PremiumSlot) (bidId : Nat) : Option Bid :=
  (slot.bids.find? fun bid => bid.id = bidId).or
    (slot.waitingBids.find? fun bid => bid.id = bidId)

/-- The loop of `read_bid` over the premiums. -/
def readBidFrom (bidId : Nat) (queue : Queue) : List Nat → Outcome StdError Bid
  | [] => Outcome.fail (.genericErr "Bid not found")
  | premium :: rest => do
      let slot ← readPremiumSlot queue premium
      match slot.findBid bidId with
      | some bid => pure bid
      | none => readBidFrom bidId queue rest

/-- `read_bid`: `max_premium as u8 + 1u8` overflows where the cast gives 255. -/
def readBid (bidId : Nat) (queue : Queue) : Outcome StdError Bid := do
  Outcome.guardPanic (queue.maxPremium % 256 = 255)
  readBidFrom bidId queue (List.range (queue.maxPremium % 256 + 1))

/-- `read_bids_by_user`: active bids only, in the order of the slots. -/
def readBidsByUser (queue : Queue) (user : Addr) (limit startAfter : Option Nat) : List Bid :=
  (queue.slots.flatMap fun slot => slot.bids.filter fun bid =>
    startAfter.getD 0 < bid.id ∧ bid.user = user).take (limit.getD maxLimit)

def storeEpochScaleSum (sums : EpochScaleSums) (bidFor : String) (premiumSlot epoch scale : Nat)
    (sum : Decimal256) : EpochScaleSums :=
  sums.insert (bidFor, premiumSlot, epoch, scale) sum

/-- `read_epoch_scale_sum`: nothing where none has been stored. -/
def readEpochScaleSum (sums : EpochScaleSums) (bidFor : String) (premium epoch scale : Nat) :
    Option Decimal256 :=
  sums.lookup (bidFor, premium, epoch, scale)

/-! ## What a bid is worth -/

/-- `a.checked_sub(b)?` on `Uint128`. -/
def checkedSubUint128 (a b : Nat) : Outcome StdError Nat :=
  Outcome.ofOption (Uint128.checkedSub a b) (.overflow "Sub" (toString a) (toString b))

/-- The whole part of a decimal and what is left of it. The source leaves the residue out
    where it would go below zero. -/
def splitResidue (dec : Decimal256) : Outcome StdError (Nat × Decimal256) := do
  let whole ← Decimal256.mulUint dec 1
  let wholeDec ← Decimal256.fromUint256 whole
  if dec < wholeDec then pure (whole, Decimal256.zero)
  else pure (whole, ← Decimal256.sub dec wholeDec)

/-- What a bid gained from the scale behind its own: nothing where no sum is stored there,
    or a smaller one than in its own. -/
def secondPortion (second : Option Decimal256) (reference : Decimal256) : Decimal256 :=
  match second with
  | some sum =>
    if sum < reference then Decimal256.zero
    else ⟨(sum.atomics - reference.atomics) / 1000000000⟩
  | none => Decimal256.zero

def calculateLiquidatedCollateral (sums : EpochScaleSums) (bid : Bid) (bidFor : String) :
    Outcome StdError (Nat × Decimal256) := do
  let reference := (readEpochScaleSum sums bidFor bid.liqPremium bid.epochSnapshot
    bid.scaleSnapshot).getD Decimal256.zero
  if reference.isZero ∨ reference < bid.sumSnapshot then pure (0, Decimal256.zero)
  else do
    let first ← Decimal256.sub reference bid.sumSnapshot
    let nextScale ← Uint128.add bid.scaleSnapshot 1
    let second := secondPortion
      (readEpochScaleSum sums bidFor bid.liqPremium bid.epochSnapshot nextScale) reference
    let amount ← Decimal256.fromUint256 bid.amount
    let gained ← Decimal256.mul amount (← Decimal256.add first second)
    splitResidue (← Decimal256.div gained bid.productSnapshot)

def calculateRemainingBid (bid : Bid) (slot : PremiumSlot) :
    Outcome StdError (Nat × Decimal256) := do
  let scaleDiff ← checkedSubUint128 slot.currentScale bid.scaleSnapshot
  let epochDiff ← checkedSubUint128 slot.currentEpoch bid.epochSnapshot
  let remaining ← (if epochDiff ≠ 0 then pure Decimal256.zero
    else if scaleDiff = 0 ∨ scaleDiff = 1 then do
      let amount ← Decimal256.fromUint256 bid.amount
      let scaled ← Decimal256.div (← Decimal256.mul amount slot.productSnapshot)
        bid.productSnapshot
      pure (if scaleDiff = 0 then scaled else ⟨scaled.atomics / 1000000000⟩)
    else pure Decimal256.zero)
  splitResidue remaining

/-- `claim_bid_residue`: the whole part of the residue and the slot without it. -/
def claimBidResidue (slot : PremiumSlot) : Result (Nat × PremiumSlot) := do
  let claimable ← Decimal256.mulUint slot.residueBid 1
  let claimableDec ← Decimal256.fromUint256 claimable
  if slot.residueBid < claimableDec then pure (0, slot)
  else if claimable ≠ 0 then do
    pure (claimable, { slot with residueBid := ← Decimal256.sub slot.residueBid claimableDec })
  else pure (claimable, slot)

/-- `claim_col_residue`: the whole part of the residue and the slot without it. -/
def claimColResidue (slot : PremiumSlot) : Result (Nat × PremiumSlot) := do
  let claimable ← Decimal256.mulUint slot.residueCollateral 1
  if claimable ≠ 0 then do
    let left ← Decimal256.sub slot.residueCollateral (← Decimal256.fromUint256 claimable)
    pure (claimable, { slot with residueCollateral := left })
  else pure (claimable, slot)

end Membrane.LiqQueue
