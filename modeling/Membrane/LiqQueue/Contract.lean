import Membrane.LiqQueue.Bid

/-!
# The liquidation queue contract

`contract.rs` of `contracts/liq-queue`: the configuration, the queues for the assets, and
the dispatch to the handlers of bids.
-/

namespace Membrane.LiqQueue

structure InstantiateMsg where
  owner : Option String
  positionsContract : String
  osmosisProxyContract : String
  waitingPeriod : Nat
  minimumBid : Nat
  maximumWaitingBids : Nat

structure UpdateConfig where
  owner : Option String := none
  positionsContract : Option String := none
  osmosisProxyContract : Option String := none
  waitingPeriod : Option Nat := none
  minimumBid : Option Nat := none
  maximumWaitingBids : Option Nat := none

inductive ExecuteMsg where
  | submitBid (bidInput : BidInput) (bidOwner : Option String)
  | retractBid (bidId : Nat) (bidFor : AssetInfo) (amount : Option Nat)
  | liquidate (creditPrice collateralPrice : PriceResponse) (collateralAmount : Nat)
      (bidFor : AssetInfo)
  | claimLiquidations (bidFor : AssetInfo) (bidIds : Option (List Nat))
  | addQueue (bidFor : AssetInfo) (maxPremium bidThreshold : Nat)
  | updateQueue (bidFor : AssetInfo) (maxPremium bidThreshold : Option Nat)
  | updateConfig (update : UpdateConfig)

def instantiate (deps : Deps) (info : MessageInfo) (msg : InstantiateMsg) :
    Result (State × Response OutMsg) := do
  let positionsContract ← liftStd (addrValidate deps.addrValid msg.positionsContract)
  let owner ← (match msg.owner with
    | some owner => liftStd (addrValidate deps.addrValid owner)
    | none => pure info.sender)
  let osmosisProxyContract ← liftStd (addrValidate deps.addrValid msg.osmosisProxyContract)
  let config : Config := {
    owner := owner
    positionsContract := positionsContract
    osmosisProxyContract := osmosisProxyContract
    addedAssets := some []
    waitingPeriod := msg.waitingPeriod
    bidAsset := .nativeToken "cdt"
    minimumBid := msg.minimumBid
    maximumWaitingBids := msg.maximumWaitingBids }
  pure (⟨config, ∅, ∅, none⟩, {})

/-- An address of the configuration, or the one it is replaced with. -/
def setAddr (deps : Deps) (update : Option String) (addr : Addr) : Result Addr :=
  match update with
  | some text => liftStd (addrValidate deps.addrValid text)
  | none => pure addr

def updateConfig (deps : Deps) (info : MessageInfo) (update : UpdateConfig) (s : State) :
    Result (State × Response OutMsg) := do
  let config := s.config
  let owner ← (if info.sender ≠ config.owner then do
      let newOwner ← Outcome.ofOption s.ownershipTransfer (.std (.notFound "cosmwasm_std::Addr"))
      Outcome.guardErr (info.sender ≠ newOwner) .unauthorized
      pure info.sender
    else pure config.owner)
  let ownershipTransfer ← (match update.owner with
    | some text => do pure (some (← liftStd (addrValidate deps.addrValid text)))
    | none => pure s.ownershipTransfer)
  let positionsContract ← setAddr deps update.positionsContract config.positionsContract
  let osmosisProxyContract ← setAddr deps update.osmosisProxyContract config.osmosisProxyContract
  pure ({ s with
    config := { config with
      owner := owner
      positionsContract := positionsContract
      osmosisProxyContract := osmosisProxyContract
      waitingPeriod := update.waitingPeriod.getD config.waitingPeriod
      minimumBid := update.minimumBid.getD config.minimumBid
      maximumWaitingBids := update.maximumWaitingBids.getD config.maximumWaitingBids }
    ownershipTransfer := ownershipTransfer }, {})

def newSlot (premium : Nat) : PremiumSlot :=
  { bids := []
    waitingBids := []
    liqPremium := Decimal256.percent premium
    sumSnapshot := Decimal256.zero
    productSnapshot := Decimal256.one
    totalBidAmount := 0
    lastTotal := 0
    currentEpoch := 0
    currentScale := 0
    residueCollateral := Decimal256.zero
    residueBid := Decimal256.zero }

/-- A queue with another `max_premium`. Slots are pushed for the premiums above the old
    maximum up to the new one; none is removed. -/
def setMaxPremium (newPremium : Nat) (queue : Queue) : Result Queue := do
  Outcome.guardErr (50 < newPremium ∨ newPremium < 1) .invalidPremium
  pure { queue with
    slots := queue.slots ++
      (List.range' (queue.maxPremium + 1) (newPremium - queue.maxPremium)).map newSlot
    maxPremium := newPremium }

/-- A queue with another `bid_threshold`. -/
def setBidThreshold (bidThreshold : Nat) (queue : Queue) : Result Queue := do
  Outcome.guardErr (10000000 < bidThreshold ∨ bidThreshold < 1000000) .invalidBidThreshold
  pure { queue with bidThreshold := bidThreshold }

def editQueue (info : MessageInfo) (bidFor : AssetInfo) (maxPremium bidThreshold : Option Nat)
    (s : State) : Result (State × Response OutMsg) := do
  Outcome.guardErr (info.sender ≠ s.config.owner) .unauthorized
  let queue ← loadQueue s bidFor
  let queue ← (match maxPremium with
    | some newPremium => setMaxPremium newPremium queue
    | none => pure queue)
  let queue ← (match bidThreshold with
    | some threshold => setBidThreshold threshold queue
    | none => pure queue)
  pure (saveQueue s bidFor queue, {})

/-- `add_queue`. The number of slots, one more than the maximum, is cast to 64 bits. -/
def addQueue (info : MessageInfo) (bidFor : AssetInfo) (maxPremium bidThreshold : Nat)
    (s : State) : Result (State × Response OutMsg) := do
  let config := s.config
  Outcome.guardErr (info.sender ≠ config.owner ∧ info.sender ≠ config.positionsContract)
    .unauthorized
  let premiums ← Uint128.add maxPremium 1
  let newQueue : Queue := {
    bidAsset := ⟨config.bidAsset, 0⟩
    maxPremium := maxPremium
    slots := (List.range (premiums % Uint64.limit)).map newSlot
    currentBidId := 1
    bidThreshold := bidThreshold }
  Outcome.guardErr ((s.queues.lookup bidFor.toText).isSome) .duplicateQueue
  let newAssets ← Outcome.unwrap config.addedAssets
  pure ({ saveQueue s bidFor newQueue with
    config := { config with addedAssets := some (newAssets ++ [bidFor]) } }, {})

def execute (deps : Deps) (env : Env) (info : MessageInfo) (msg : ExecuteMsg) (s : State) :
    Result (State × Response OutMsg) :=
  match msg with
  | .submitBid bidInput bidOwner => submitBid deps env info bidInput bidOwner s
  | .retractBid bidId bidFor amount => retractBid info bidId bidFor amount s
  | .liquidate creditPrice collateralPrice collateralAmount bidFor => do
      let (s, response, _) ←
        executeLiquidation env info collateralAmount bidFor collateralPrice creditPrice s
      pure (s, response)
  | .claimLiquidations bidFor bidIds => claimLiquidations env info bidFor bidIds s
  | .addQueue bidFor maxPremium bidThreshold => addQueue info bidFor maxPremium bidThreshold s
  | .updateQueue bidFor maxPremium bidThreshold => editQueue info bidFor maxPremium bidThreshold s
  | .updateConfig update => updateConfig deps info update s

/-- One call from outside: what it can ask of the chain, its block, its sender and its
    message. -/
structure Call where
  deps : Deps
  env : Env
  info : MessageInfo
  msg : ExecuteMsg

def Call.Executes (call : Call) (s : State) (s' : State) (response : Response OutMsg) : Prop :=
  execute call.deps call.env call.info call.msg s = .ok (s', response)

def Call.exec (s : State) (call : Call) : Option State :=
  match execute call.deps call.env call.info call.msg s with
  | .ok (s', _) => some s'
  | .error _ => none

def Steps (s : State) (call : Call) (s' : State) : Prop := Call.exec s call = some s'

def Fresh (s : State) : Prop :=
  ∃ deps info msg response, instantiate deps info msg = .ok (s, response)

end Membrane.LiqQueue
