import Membrane.LiqQueue.Slots

/-!
# Bids

The handlers of `bid.rs`: submitting and retracting a bid, liquidating collateral with
the bids of a queue, and claiming what a bid has liquidated.
-/

namespace Membrane.LiqQueue

/-- `QUEUES.load`. -/
def loadQueue (s : State) (bidFor : AssetInfo) : Result Queue :=
  Outcome.ofOption (s.queues.lookup bidFor.toText) (.std (.notFound "membrane::types::Queue"))

/-- `QUEUES.save`. -/
def saveQueue (s : State) (bidFor : AssetInfo) (queue : Queue) : State :=
  { s with queues := s.queues.insert bidFor.toText queue }

def withdrawalMsg (asset : Asset) (recipient : Addr) : Outcome StdError (CosmosMsg OutMsg) :=
  match asset.info with
  | .nativeToken denom => .ok (.bankSend recipient [⟨denom, asset.amount⟩])
  | .token _ => Outcome.fail (.genericErr "Native assets only")

/-! ## Submitting -/

def validatePositionOwner (deps : Deps) (info : MessageInfo) (recipient : Option String) :
    Outcome StdError Addr :=
  match recipient with
  | some text => addrValidate deps.addrValid text
  | none => pure info.sender

def validateBidInput (s : State) (bidInput : BidInput) : Result PUnit :=
  match s.queues.lookup bidInput.bidFor.toText with
  | some queue => Outcome.guardErr (queue.maxPremium % 256 < bidInput.liqPremium) .invalidPremium
  | none => Outcome.fail .invalidAsset

def assertBidAssetFromSentFunds (bidAsset : AssetInfo) (info : MessageInfo) (minimumBid : Nat) :
    Outcome StdError Asset :=
  match info.funds with
  | [] => Outcome.fail (.genericErr "No asset provided, only bid asset allowed")
  | coin :: others =>
    match bidAsset with
    | .nativeToken denom => do
        Outcome.guardErr (coin.denom ≠ denom ∨ others ≠ [])
          (.genericErr "Invalid asset provided, only bid asset allowed")
        Outcome.guardErr (coin.amount < minimumBid)
          (.genericErr ("Bid amount too small, minimum is " ++ toString minimumBid))
        pure ⟨bidAsset, coin.amount⟩
    | .token _ => Outcome.fail (.genericErr "Bid asset's are native assets")

/-- A bid as it is made: with the snapshots of a slot without history. -/
def newBid (user : Addr) (id amount liqPremium : Nat) : Bid :=
  { user := user
    id := id
    amount := amount
    liqPremium := liqPremium
    productSnapshot := Decimal256.one
    sumSnapshot := Decimal256.zero
    pendingLiquidatedCollateral := 0
    waitEnd := none
    epochSnapshot := 0
    scaleSnapshot := 0 }

/-- A slot and its queue with a bid added to the active ones. -/
def activateBid (bid : Bid) (queue : Queue) (slot : PremiumSlot) :
    Result (Queue × PremiumSlot) := do
  let queueAmount ← Uint128.add queue.bidAsset.amount (← Uint256.toUint128 bid.amount)
  let total ← Uint256.add slot.totalBidAmount bid.amount
  pure ({ queue with bidAsset := { queue.bidAsset with amount := queueAmount } },
    { slot with totalBidAmount := total, bids := slot.bids ++ [processBidActivation bid slot] })

def takeBidId (queue : Queue) : Result Queue := do
  pure { queue with currentBidId := ← Uint128.add queue.currentBidId 1 }

/-- What of a new bid is active at once: all of it, the part below the threshold, or
    nothing. The rest is to wait, under an id of its own where a part is active. -/
def placeBid (config : Config) (bid : Bid) (queue : Queue) (slot : PremiumSlot) :
    Result (Queue × PremiumSlot × Bid) := do
  let queue ← takeBidId queue
  if slot.totalBidAmount ≤ queue.bidThreshold then do
    let withBid ← Uint256.add slot.totalBidAmount bid.amount
    if withBid < (← Uint256.add queue.bidThreshold config.minimumBid) then do
      let (queue, slot) ← activateBid bid queue slot
      pure (queue, slot, { bid with amount := 0 })
    else do
      let amountSentToWait ← subUint withBid queue.bidThreshold
      let activeAmount ← subUint bid.amount amountSentToWait
      let waiting := { bid with id := queue.currentBidId, amount := amountSentToWait }
      let queue ← takeBidId queue
      let (queue, slot) ← activateBid { bid with amount := activeAmount } queue slot
      pure (queue, slot, waiting)
  else pure (queue, slot, bid)

/-- The end of a waiting period that starts now, in seconds; the time in nanoseconds must
    fit 64 bits. -/
def waitEndFrom (env : Env) (config : Config) : Result Nat := do
  let start ← Uint64.mul env.blockTime 1000000000
  let _ ← Uint64.add start (← Uint64.mul config.waitingPeriod 1000000000)
  pure (env.blockTime + config.waitingPeriod)

/-- The slot with what is left of a new bid waiting. -/
def queueBid (env : Env) (config : Config) (bid : Bid) (slot : PremiumSlot) : Result PremiumSlot :=
  if bid.amount ≠ 0 then do
    let waitEnd ← waitEndFrom env config
    let waitingBids := slot.waitingBids ++ [{ bid with waitEnd := some waitEnd }]
    Outcome.guardErr (config.maximumWaitingBids < waitingBids.length)
      (.tooManyWaitingBids config.maximumWaitingBids)
    pure { slot with waitingBids := waitingBids }
  else pure slot

def submitBid (deps : Deps) (env : Env) (info : MessageInfo) (bidInput : BidInput)
    (bidOwner : Option String) (s : State) : Result (State × Response OutMsg) := do
  let config := s.config
  let validOwnerAddr ← liftStd (validatePositionOwner deps info bidOwner)
  validateBidInput s bidInput
  let queue ← loadQueue s bidInput.bidFor
  let bidAsset ← liftStd (assertBidAssetFromSentFunds queue.bidAsset.info info config.minimumBid)
  let slot ← Outcome.ofOption (queue.findSlot bidInput.liqPremium) .invalidPremium
  -- the amount of a coin is a `Uint128`
  let amount ← Uint256.toUint128 bidAsset.amount
  let bid := newBid validOwnerAddr queue.currentBidId amount bidInput.liqPremium
  let (queue, slot, bid) ← placeBid config bid queue slot
  let slot ← queueBid env config bid slot
  pure (saveQueue s bidInput.bidFor
    (queue.replaceSlots (Decimal256.percent bidInput.liqPremium) slot), {})

/-! ## Retracting -/

def assertWithdrawAmount (withdrawAmount : Option Nat) (withdrawableAmount minimumBid : Nat) :
    Result Nat :=
  match withdrawAmount with
  | some withdrawAmount => do
      Outcome.guardErr (withdrawableAmount < withdrawAmount) (.invalidWithdrawal minimumBid)
      Outcome.guardErr (withdrawableAmount - withdrawAmount < minimumBid ∧
        0 < withdrawableAmount - withdrawAmount) (.invalidWithdrawal minimumBid)
      pure withdrawAmount
  | none => pure withdrawableAmount

def retractWaiting (config : Config) (amount : Option Nat) (bid : Bid) (queue : Queue) :
    Result (Queue × Nat) := do
  let withdrawAmount ← assertWithdrawAmount amount bid.amount config.minimumBid
  let queue ← (if withdrawAmount = bid.amount then removeBid bid queue
    else do storeBid queue { bid with amount := ← subUint bid.amount withdrawAmount })
  pure (queue, withdrawAmount)

/-- What is taken out of an active bid, with the residue of its slot once that is a whole
    token. The bid keeps its epoch. -/
def retractActive (config : Config) (sums : EpochScaleSums) (bidFor : String)
    (amount : Option Nat) (bid : Bid) (slot : PremiumSlot) (queue : Queue) :
    Result (Queue × Nat) := do
  let (withdrawableAmount, residueBid) ← liftStd (calculateRemainingBid bid slot)
  let (liquidatedCollateral, residueCollateral) ←
    liftStd (calculateLiquidatedCollateral sums bid bidFor)
  let pending ← Uint256.add bid.pendingLiquidatedCollateral liquidatedCollateral
  let bid := { bid with pendingLiquidatedCollateral := pending }
  let slot := { slot with
    residueCollateral := ← Decimal256.add slot.residueCollateral residueCollateral
    residueBid := ← Decimal256.add slot.residueBid residueBid }
  let queue := storePremiumSlot queue slot
  let withdrawAmount ← assertWithdrawAmount amount withdrawableAmount config.minimumBid
  let queue ← (if withdrawAmount = bid.amount ∧ bid.pendingLiquidatedCollateral = 0 then
      removeBid bid queue
    else do
      storeBid queue { bid with
        amount := ← subUint withdrawableAmount withdrawAmount
        productSnapshot := slot.productSnapshot
        sumSnapshot := slot.sumSnapshot
        scaleSnapshot := slot.currentScale })
  let slot ← liftStd (readPremiumSlot queue bid.liqPremium)
  let slot := { slot with totalBidAmount := ← subUint slot.totalBidAmount withdrawAmount }
  let (residue, slot) ← claimBidResidue slot
  let refundAmount ← Uint256.add withdrawAmount residue
  pure (storePremiumSlot queue slot, refundAmount)

def retractBid (info : MessageInfo) (bidId : Nat) (bidFor : AssetInfo) (amount : Option Nat)
    (s : State) : Result (State × Response OutMsg) := do
  let queue ← loadQueue s bidFor
  let bid ← liftStd (readBid bidId queue)
  Outcome.guardErr (bid.user ≠ info.sender) .unauthorized
  let slot ← liftStd (readPremiumSlot queue bid.liqPremium)
  let (queue, withdrawAmount) ← (if bid.waitEnd.isSome then
      retractWaiting s.config amount bid queue
    else retractActive s.config s.epochScaleSums bidFor.toText amount bid slot queue)
  if withdrawAmount ≠ 0 then do
    let amount ← Uint256.toUint128 withdrawAmount
    let left ← subUint queue.bidAsset.amount amount
    let queue := { queue with bidAsset := { queue.bidAsset with amount := left } }
    let msg ← liftStd (withdrawalMsg { queue.bidAsset with amount := amount } info.sender)
    pure (saveQueue s bidFor queue, Response.addMessages {} [msg])
  else pure (saveQueue s bidFor queue, {})

/-! ## Liquidating -/

/-- The loop state of `set_slot_total`: the queue, the slot, and the waiting bids gone
    over, with nothing left of those that were activated. -/
structure Activation where
  queue : Queue
  slot : PremiumSlot
  waiting : List Bid

/-- One waiting bid of `set_slot_total`: it is activated when its wait is over or the slot
    is at most at the threshold. -/
def activateWaiting (blockTime : Nat) (acc : Activation) (bid : Bid) : Result Activation := do
  let waitEnd ← Outcome.unwrap bid.waitEnd
  if waitEnd ≤ blockTime ∨ acc.slot.totalBidAmount ≤ acc.queue.bidThreshold then do
    let (queue, slot) ← activateBid bid acc.queue acc.slot
    pure ⟨queue, slot, acc.waiting ++ [{ processBidActivation bid acc.slot with amount := 0 }]⟩
  else pure { acc with waiting := acc.waiting ++ [bid] }

def setSlotTotal (env : Env) (config : Config) (queue : Queue) (slot : PremiumSlot) :
    Result (Queue × PremiumSlot) := do
  let elapsed ← subUint env.blockTime slot.lastTotal
  if elapsed < config.waitingPeriod ∧ queue.bidThreshold ≤ slot.totalBidAmount then
    pure (queue, slot)
  else do
    let acc ← slot.waitingBids.foldlM (activateWaiting env.blockTime) ⟨queue, slot, []⟩
    pure (acc.queue, { acc.slot with
      waitingBids := acc.waiting.filter fun bid => bid.amount ≠ 0
      lastTotal := env.blockTime })

/-- What the bids of a slot repay, the collateral they take for it, and whether that is
    all of the collateral. -/
structure PoolFill where
  required : Nat
  collateral : Nat
  filled : Bool
  deriving DecidableEq, Repr

/-- The amounts of `execute_pool_liquidation`, at the price less the premium. -/
def fillPool (slot : PremiumSlot) (collateralToLiquidate : Nat)
    (price creditPrice : PriceResponse256) : Result PoolFill := do
  let discount ← Decimal256.sub Decimal256.one slot.liqPremium
  let price := { price with price := ← Decimal256.mul price.price discount }
  let required ← creditPrice.getAmount (← price.getValue collateralToLiquidate)
  if slot.totalBidAmount < required then do
    let collateral ← price.getAmount (← creditPrice.getValue slot.totalBidAmount)
    pure ⟨slot.totalBidAmount, collateral, false⟩
  else pure ⟨required, collateralToLiquidate, true⟩

/-- The product of a slot after an expense, with its scale: scaled up where it would get
    too small, and both restarted where the slot is emptied. -/
def updateProduct (slot : PremiumSlot) (expensePerBid : Decimal256) : Result PremiumSlot :=
  if expensePerBid = Decimal256.one then do
    pure { slot with
      sumSnapshot := Decimal256.zero
      productSnapshot := Decimal256.one
      currentScale := 0
      currentEpoch := ← Uint128.add slot.currentEpoch 1 }
  else do
    let product ← Decimal256.sub Decimal256.one expensePerBid
    let newProduct ← Decimal256.mul slot.productSnapshot product
    if newProduct.atomics < 1000000000 then do
      let currentScale ← Uint128.add slot.currentScale 1
      let scaled ← Uint256.mul slot.productSnapshot.atomics 1000000000
      pure { slot with
        currentScale := currentScale
        productSnapshot := ← Decimal256.mul ⟨scaled⟩ product }
    else pure { slot with productSnapshot := newProduct }

def executePoolLiquidation (sums : EpochScaleSums) (slot : PremiumSlot) (premium : Nat)
    (bidFor : String) (collateralToLiquidate : Nat) (price creditPrice : PriceResponse256) :
    Result (EpochScaleSums × PremiumSlot × PoolFill) := do
  let fill ← fillPool slot collateralToLiquidate price creditPrice
  let total ← Decimal256.fromUint256 slot.totalBidAmount
  let colPerBid ← Decimal256.div (← Decimal256.fromUint256 fill.collateral) total
  let expensePerBid ← Decimal256.div (← Decimal256.fromUint256 fill.required) total
  let sum ← Decimal256.mul slot.productSnapshot colPerBid
  let slot := { slot with
    sumSnapshot := ← Decimal256.add slot.sumSnapshot sum
    totalBidAmount := ← subUint slot.totalBidAmount fill.required }
  let sums := storeEpochScaleSum sums bidFor premium slot.currentEpoch slot.currentScale
    slot.sumSnapshot
  pure (sums, ← updateProduct slot expensePerBid, fill)

/-- The loop state of `execute_liquidation`. -/
structure Liquidation where
  queue : Queue
  sums : EpochScaleSums
  remaining : Nat
  repayAmount : Nat

/-- One premium of `execute_liquidation`, with what its slot liquidates; one without a
    slot, or with nothing in it, is passed over. -/
def liquidateSlot (env : Env) (config : Config) (bidFor : String)
    (price creditPrice : PriceResponse256) (premium : Nat) (l : Liquidation) :
    Result (Liquidation × Option PoolFill) :=
  match l.queue.findSlot premium with
  | none => pure (l, none)
  | some slot => do
      let (queue, slot) ← setSlotTotal env config l.queue slot
      if slot.totalBidAmount = 0 then pure ({ l with queue := queue }, none)
      else do
        let (sums, slot, fill) ← executePoolLiquidation l.sums slot premium bidFor l.remaining
          price creditPrice
        let queue := storePremiumSlot queue slot
        let repayAmount ← Uint256.add l.repayAmount fill.required
        let remaining ← (if fill.filled then pure 0 else subUint l.remaining fill.collateral)
        pure (⟨queue, sums, remaining, repayAmount⟩, some fill)

/-- The loop of `execute_liquidation` over the premiums, which are cast to 8 bits; it
    stops once the collateral is used up. -/
def liquidatePremiums (env : Env) (config : Config) (bidFor : String)
    (price creditPrice : PriceResponse256) : List Nat → Liquidation → Result Liquidation
  | [], l => pure l
  | premium :: rest, l => do
      let (l, fill) ← liquidateSlot env config bidFor price creditPrice (premium % 256) l
      if fill.any PoolFill.filled then pure l
      else liquidatePremiums env config bidFor price creditPrice rest l

/-- The attributes of a liquidation that the positions contract reads. -/
structure Liquidated where
  repayAmount : Nat
  collateralAmount : Nat
  deriving DecidableEq, Repr

def executeLiquidation (env : Env) (info : MessageInfo) (collateralAmount : Nat)
    (bidFor : AssetInfo) (collateralPrice creditPrice : PriceResponse) (s : State) :
    Result (State × Response OutMsg × Liquidated) := do
  let config := s.config
  Outcome.guardErr (info.sender ≠ config.positionsContract) .unauthorized
  let queue ← loadQueue s bidFor
  Outcome.guardErr (queue.bidAsset.info ≠ config.bidAsset) .unauthorized
  let premiums ← Uint128.add queue.maxPremium 1
  let l ← liquidatePremiums env config bidFor.toText (toDecimal256 collateralPrice)
    (toDecimal256 creditPrice) (List.range premiums) ⟨queue, s.epochScaleSums, collateralAmount, 0⟩
  let collateralAmount ← subUint collateralAmount l.remaining
  let repay ← Uint256.toUint128 l.repayAmount
  let left ← Outcome.ofOption (Uint128.checkedSub l.queue.bidAsset.amount repay) .insufficientBids
  let queue := { l.queue with bidAsset := { l.queue.bidAsset with amount := left } }
  let msgs : List (CosmosMsg OutMsg) := if l.repayAmount ≠ 0 then
      [.execute config.osmosisProxyContract
        (.burnTokens queue.bidAsset.info.toText repay env.contractAddress) []]
    else []
  pure ({ saveQueue s bidFor queue with epochScaleSums := l.sums },
    Response.addMessages {} msgs, ⟨l.repayAmount, collateralAmount⟩)

/-! ## Claiming -/

/-- `claim_liquidations` for one bid: what it liquidated is added to the claim, and the bid
    is settled, or removed when no more than one token of it is left. -/
def claimBid (blockTime : Nat) (sums : EpochScaleSums) (bidFor : String) (sender : Addr)
    (acc : Queue × Nat) (bid : Bid) : Result (Queue × Nat) := do
  let (queue, claimAmount) := acc
  Outcome.guardErr (bid.user ≠ sender) .unauthorized
  if bid.waitEnd.any fun waitEnd => blockTime < waitEnd then pure (queue, claimAmount)
  else do
    let slot ← liftStd (readPremiumSlot queue bid.liqPremium)
    let (remainingBid, residueBid) ← liftStd (calculateRemainingBid bid slot)
    let (liquidatedCollateral, residueCollateral) ←
      liftStd (calculateLiquidatedCollateral sums bid bidFor)
    let slot := { slot with
      residueCollateral := ← Decimal256.add slot.residueCollateral residueCollateral
      residueBid := ← Decimal256.add slot.residueBid residueBid }
    let (residue, slot) ← claimColResidue slot
    let claimed ← Uint256.add
      (← Uint256.add bid.pendingLiquidatedCollateral liquidatedCollateral) residue
    let claimAmount ← Uint256.add claimAmount claimed
    let queue := storePremiumSlot queue slot
    let queue ← (if remainingBid ≤ 1 then removeBid bid queue
      else storeBid queue { bid with
        amount := remainingBid
        productSnapshot := slot.productSnapshot
        sumSnapshot := slot.sumSnapshot
        scaleSnapshot := slot.currentScale
        pendingLiquidatedCollateral := 0 })
    pure (queue, claimAmount)

/-- The bids a claim is about: those of the ids, or the sender's active ones. -/
def bidsToClaim (queue : Queue) (sender : Addr) (bidIds : Option (List Nat)) :
    Result (List Bid) :=
  match bidIds with
  | some ids => do
      Outcome.guardErr (¬ ids.Nodup) (.customError "Duplicate bid ids")
      ids.mapM fun id => liftStd (readBid id queue)
  | none => pure (readBidsByUser queue sender none none)

def claimLiquidations (env : Env) (info : MessageInfo) (bidFor : AssetInfo)
    (bidIds : Option (List Nat)) (s : State) : Result (State × Response OutMsg) := do
  let queue ← loadQueue s bidFor
  let bids ← bidsToClaim queue info.sender bidIds
  let (queue, claimAmount) ← bids.foldlM
    (claimBid env.blockTime s.epochScaleSums bidFor.toText info.sender) (queue, 0)
  let s := saveQueue s bidFor queue
  if claimAmount ≠ 0 then do
    let amount ← Uint256.toUint128 claimAmount
    let msg ← liftStd (withdrawalMsg ⟨bidFor, amount⟩ info.sender)
    pure (s, Response.addMessages {} [msg])
  else pure (s, {})

end Membrane.LiqQueue
