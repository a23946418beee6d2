import Membrane.Lib.KeyedList
import Membrane.Lib.Run
import Membrane.LiqQueue.Contract
import Membrane.LiqQueue.Proofs.Worth

/-!
# A queue as a machine

What the handlers do to one queue, taken apart into moves: a bid enters, waits, is
activated, retracted or claimed, and a slot is liquidated. Each move acts on one slot and
the sums stored for it, and is recorded in a ledger that the code does not keep.
-/

namespace Membrane.LiqQueue

/-! ## Slots under a move -/

/-- The bids of a slot, active and waiting. -/
def PremiumSlot.allBids (slot : PremiumSlot) : List Bid := slot.bids ++ slot.waitingBids

/-- The bids of a queue. -/
def Queue.allBids (queue : Queue) : List Bid := queue.slots.flatMap PremiumSlot.allBids

def PremiumSlot.join (slot : PremiumSlot) (bid : Bid) : PremiumSlot :=
  { slot with
    totalBidAmount := slot.totalBidAmount + bid.amount
    bids := slot.bids ++ [processBidActivation bid slot] }

/-- A slot whose bids have spent what a liquidation requires, before its product is
    updated. -/
structure PremiumSlot.Spent (slot : PremiumSlot) (fill : PoolFill) (slot' : PremiumSlot) :
    Prop where
  nonzero : slot.totalBidAmount ≠ 0
  total : slot'.totalBidAmount + fill.required = slot.totalBidAmount
  sum : slot'.sumSnapshot.atomics = slot.sumSnapshot.atomics + slot.productSnapshot.atomics *
    (fill.collateral * Decimal256.fractional / slot.totalBidAmount) / Decimal256.fractional
  fits : slot'.sumSnapshot.atomics < Uint256.limit
  frame : slot' = { slot with
    sumSnapshot := slot'.sumSnapshot
    totalBidAmount := slot'.totalBidAmount }

def Bid.settledAt (bid : Bid) (slot : PremiumSlot) (amount pending : Nat) : Bid :=
  { bid with
    amount := amount
    productSnapshot := slot.productSnapshot
    sumSnapshot := slot.sumSnapshot
    scaleSnapshot := slot.currentScale
    pendingLiquidatedCollateral := pending }

def waitingBid (user : Addr) (id amount liqPremium waitEnd : Nat) : Bid :=
  { newBid user id amount liqPremium with waitEnd := some waitEnd }

inductive SlotMove where
  | join (bid : Bid)
  | wait (bid : Bid)
  | activate (bid : Bid)
  | touch (blockTime : Nat)
  | liquidate (fill : PoolFill)
  | unqueue (bid : Bid) (amount : Nat)
  | withdraw (bid : Bid) (amount residue : Nat)
  | claim (bid : Bid) (claimed : Nat)

structure Settlement where
  remaining : Nat
  residueBid : Decimal256
  liquidated : Nat
  residueCollateral : Decimal256

structure Settlement.Of (sums : SlotSums) (slot : PremiumSlot) (bid : Bid) (found : Settlement) :
    Prop where
  left : calculateRemainingBid bid slot = .ok (found.remaining, found.residueBid)
  gained : found.liquidated * Decimal256.fractional + found.residueCollateral.atomics =
    bid.liquidatedAtomics sums

def keptActive (slot : PremiumSlot) (bid : Bid) (found : Settlement) (amount : Nat) : List Bid :=
  if amount = bid.amount ∧ bid.pendingLiquidatedCollateral + found.liquidated = 0 then []
  else [bid.settledAt slot (found.remaining - amount)
    (bid.pendingLiquidatedCollateral + found.liquidated)]

def keptWaiting (bid : Bid) (amount : Nat) : List Bid :=
  if amount = bid.amount then [] else [{ bid with amount := bid.amount - amount }]

def keptClaimed (slot : PremiumSlot) (bid : Bid) (found : Settlement) : List Bid :=
  if found.remaining ≤ 1 then [] else [bid.settledAt slot found.remaining 0]

/-- A claim on a slot: the residues of the settlement are kept, and the whole tokens in
    that of the collateral go to the claimer. -/
structure PremiumSlot.Claimed (slot : PremiumSlot) (found : Settlement) (residue : Nat)
    (slot' : PremiumSlot) : Prop where
  whole : residue = (slot.residueCollateral.atomics + found.residueCollateral.atomics) /
    Decimal256.fractional
  collateral : slot'.residueCollateral.atomics + residue * Decimal256.fractional =
    slot.residueCollateral.atomics + found.residueCollateral.atomics
  bid : slot'.residueBid.atomics = slot.residueBid.atomics + found.residueBid.atomics
  frame : slot' = { slot with
    bids := slot'.bids
    waitingBids := slot'.waitingBids
    residueCollateral := slot'.residueCollateral
    residueBid := slot'.residueBid }

/-- A retraction from a slot: the residues of the settlement are kept, and the whole
    tokens in that of the bids go to the bidder. -/
structure PremiumSlot.Withdrawn (slot : PremiumSlot) (found : Settlement) (amount residue : Nat)
    (slot' : PremiumSlot) : Prop where
  total : slot'.totalBidAmount + amount = slot.totalBidAmount
  whole : residue = (slot.residueBid.atomics + found.residueBid.atomics) / Decimal256.fractional
  collateral : slot'.residueCollateral.atomics =
    slot.residueCollateral.atomics + found.residueCollateral.atomics
  bid : slot'.residueBid.atomics + residue * Decimal256.fractional =
    slot.residueBid.atomics + found.residueBid.atomics
  frame : slot' = { slot with
    bids := slot'.bids
    totalBidAmount := slot'.totalBidAmount
    residueCollateral := slot'.residueCollateral
    residueBid := slot'.residueBid }

/-- What a move does to a slot and the sums stored for it. -/
inductive SlotMoves (sums : SlotSums) (slot : PremiumSlot) :
    SlotMove → PremiumSlot → SlotSums → Prop where
  | join {user id amount liqPremium} (home : slot.liqPremium = Decimal256.percent liqPremium)
      (fits : amount < Uint128.limit) :
      SlotMoves sums slot (.join (newBid user id amount liqPremium))
        (slot.join (newBid user id amount liqPremium)) sums
  | wait {user id amount liqPremium waitEnd}
      (home : slot.liqPremium = Decimal256.percent liqPremium) (nonzero : amount ≠ 0)
      (fits : amount < Uint128.limit) :
      SlotMoves sums slot (.wait (waitingBid user id amount liqPremium waitEnd))
        { slot with
          waitingBids := slot.waitingBids ++ [waitingBid user id amount liqPremium waitEnd] } sums
  | activate {bid before behind} (waits : slot.waitingBids = before ++ bid :: behind) :
      SlotMoves sums slot (.activate bid)
        { slot.join bid with waitingBids := before ++ behind } sums
  | touch {blockTime} :
      SlotMoves sums slot (.touch blockTime) { slot with lastTotal := blockTime } sums
  | liquidate {fill spent slot'} (spends : slot.Spent fill spent)
      (update : updateProduct spent
        ⟨fill.required * Decimal256.fractional / slot.totalBidAmount⟩ = .ok slot') :
      SlotMoves sums slot (.liquidate fill) slot' (fun epoch scale =>
        if epoch = slot.currentEpoch ∧ scale = slot.currentScale then some spent.sumSnapshot
        else sums epoch scale)
  | unqueue {bid amount} (waits : bid ∈ slot.waitingBids) (most : amount ≤ bid.amount) :
      SlotMoves sums slot (.unqueue bid amount)
        { slot with
          waitingBids := withoutBid bid.id slot.waitingBids ++ keptWaiting bid amount } sums
  | withdraw {bid amount residue found slot'} (active : bid ∈ slot.bids)
      (settles : found.Of sums slot bid) (most : amount ≤ found.remaining)
      (withdraws : slot.Withdrawn found amount residue slot')
      (bids : slot'.bids = withoutBid bid.id slot.bids ++ keptActive slot bid found amount) :
      SlotMoves sums slot (.withdraw bid amount residue) slot' sums
  | claim {bid residue found slot'} (active : bid ∈ slot.bids) (settles : found.Of sums slot bid)
      (claims : slot.Claimed found residue slot')
      (bids : slot'.bids = withoutBid bid.id slot.bids ++ keptClaimed slot bid found)
      (waiting : slot'.waitingBids = slot.waitingBids) :
      SlotMoves sums slot
        (.claim bid (bid.pendingLiquidatedCollateral + found.liquidated + residue)) slot' sums
  | claimWaiting {bid residue found slot'} (waits : bid ∈ slot.waitingBids)
      (settles : found.Of sums slot bid) (claims : slot.Claimed found residue slot')
      (bids : slot'.bids = slot.bids)
      (waiting : slot'.waitingBids =
        withoutBid bid.id slot.waitingBids ++ keptClaimed slot bid found) :
      SlotMoves sums slot
        (.claim bid (bid.pendingLiquidatedCollateral + found.liquidated + residue)) slot' sums

/-! ## Queues under a move -/

def SlotMove.Ready (queue : Queue) : SlotMove → Prop
  | .join bid => bid.id = queue.currentBidId
  | .wait bid => bid.id = queue.currentBidId
  | .unqueue _ amount => amount ≤ queue.bidAsset.amount
  | .withdraw _ amount residue => amount + residue ≤ queue.bidAsset.amount
  | _ => True

def Queue.withAmount (queue : Queue) (amount : Nat) : Queue :=
  { queue with bidAsset := { queue.bidAsset with amount := amount } }

def SlotMove.count (queue : Queue) : SlotMove → Queue
  | .join bid =>
    { queue.withAmount (queue.bidAsset.amount + bid.amount) with
      currentBidId := queue.currentBidId + 1 }
  | .wait _ => { queue with currentBidId := queue.currentBidId + 1 }
  | .activate bid => queue.withAmount (queue.bidAsset.amount + bid.amount)
  | .unqueue _ amount => queue.withAmount (queue.bidAsset.amount - amount)
  | .withdraw _ amount residue => queue.withAmount (queue.bidAsset.amount - (amount + residue))
  | _ => queue

/-- What happened to a queue so far: the bid asset it got and gave back, what liquidations
    took of it and what of that has been taken off the total, and for each premium the
    collateral liquidated and claimed; `since` is the collateral liquidated through the
    slot of a bid while that was active. -/
structure Ledger where
  deposited : Nat
  refunded : Nat
  repaid : Nat
  burned : Nat
  liquidated : Nat → Nat
  claimed : Nat → Nat
  since : Nat → Nat

def Ledger.blank : Ledger := ⟨0, 0, 0, 0, fun _ => 0, fun _ => 0, fun _ => 0⟩

def Ledger.record (ledger : Ledger) (premium : Nat) (slot : PremiumSlot) : SlotMove → Ledger
  | .join bid => { ledger with deposited := ledger.deposited + bid.amount }
  | .wait bid => { ledger with deposited := ledger.deposited + bid.amount }
  | .liquidate fill =>
    { ledger with
      repaid := ledger.repaid + fill.required
      liquidated := Function.update ledger.liquidated premium
        (ledger.liquidated premium + fill.collateral)
      since := fun id =>
        if id ∈ slot.bids.map Bid.id then ledger.since id + fill.collateral
        else ledger.since id }
  | .unqueue _ amount => { ledger with refunded := ledger.refunded + amount }
  | .withdraw _ amount residue => { ledger with refunded := ledger.refunded + (amount + residue) }
  | .claim _ claimed =>
    { ledger with
      claimed := Function.update ledger.claimed premium (ledger.claimed premium + claimed) }
  | _ => ledger

structure Book where
  queue : Queue
  sums : Nat → SlotSums
  ledger : Ledger

/-- The moves of a queue. -/
inductive Move where
  | slot (premium : Nat) (move : SlotMove)
  | skipBidId
  | burn (amount : Nat)
  | setMaxPremium (maxPremium : Nat)
  | setBidThreshold (bidThreshold : Nat)

/-- A book with a slot stored. -/
def Book.held (b : Book) (premium : Nat) (slot : PremiumSlot) : Book :=
  { b with queue := b.queue.replaceSlots (Decimal256.percent premium) slot }

/-- A book with a move of a slot counted and recorded, before the slot is stored. -/
def Book.counted (b : Book) (premium : Nat) (slot : PremiumSlot) (move : SlotMove)
    (sums' : SlotSums) : Book :=
  { queue := move.count b.queue
    sums := Function.update b.sums premium sums'
    ledger := b.ledger.record premium slot move }

def Book.after (b : Book) (premium : Nat) (slot : PremiumSlot) (move : SlotMove)
    (slot' : PremiumSlot) (sums' : SlotSums) : Book :=
  (b.counted premium slot move sums').held premium slot'

/-- What a move does to a queue. -/
inductive Book.Moves (b : Book) : Move → Book → Prop where
  | slot {premium slot move slot' sums'} (found : b.queue.findSlot premium = some slot)
      (ready : move.Ready b.queue) (moves : SlotMoves (b.sums premium) slot move slot' sums') :
      b.Moves (.slot premium move) (b.after premium slot move slot' sums')
  | skipBidId :
      b.Moves .skipBidId
        { b with queue := { b.queue with currentBidId := b.queue.currentBidId + 1 } }
  | burn {amount} (covered : amount ≤ b.queue.bidAsset.amount) :
      b.Moves (.burn amount)
        { b with
          queue := b.queue.withAmount (b.queue.bidAsset.amount - amount)
          ledger := { b.ledger with burned := b.ledger.burned + amount } }
  | setMaxPremium {maxPremium queue'} (done : setMaxPremium maxPremium b.queue = .ok queue') :
      b.Moves (.setMaxPremium maxPremium) { b with queue := queue' }
  | setBidThreshold {bidThreshold} :
      b.Moves (.setBidThreshold bidThreshold)
        { b with queue := { b.queue with bidThreshold := bidThreshold } }

end Membrane.LiqQueue
