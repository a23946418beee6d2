import Membrane.Auction.State

/-!
# The auction contract

`contracts.rs` of `contracts/auction`: bad debt is recapitalised by selling newly
minted MBRN for the debt token, and collected fees are sold for a desired asset, both
at a discount that grows with time.
-/

namespace Membrane.Auction

structure InstantiateMsg where
  owner : Option String
  oracleContract : String
  osmosisProxy : String
  positionsContract : String
  governanceContract : String
  stakingContract : String
  twapTimeframe : Nat
  mbrnDenom : String
  initialDiscount : Decimal
  discountIncreaseTimeframe : Nat
  discountIncrease : Decimal

structure UpdateConfig where
  owner : Option String := none
  oracleContract : Option String := none
  osmosisProxy : Option String := none
  mbrnDenom : Option String := none
  cdtDenom : Option String := none
  desiredAsset : Option String := none
  positionsContract : Option String := none
  governanceContract : Option String := none
  stakingContract : Option String := none
  twapTimeframe : Option Nat := none
  initialDiscount : Option Decimal := none
  discountIncreaseTimeframe : Option Nat := none
  discountIncrease : Option Decimal := none
  sendToStakers : Option Bool := none

inductive ExecuteMsg where
  | startAuction (repaymentPositionInfo : Option UserInfo) (sendTo : Option String)
      (auctionAsset : Asset)
  | swapForMBRN
  | swapForFee (auctionAsset : AssetInfo)
  | removeAuction
  | updateConfig (update : UpdateConfig)

def withdrawalMsg (asset : Asset) (recipient : Addr) : Outcome StdError (CosmosMsg OutMsg) :=
  match asset.info with
  | .nativeToken denom => .ok (.bankSend recipient [⟨denom, asset.amount⟩])
  | .token _ => Outcome.fail (.genericErr "Native assets only")

/-! ## Configuration -/

def instantiate (deps : Deps) (info : MessageInfo) (msg : InstantiateMsg) :
    Result (State × Response OutMsg) := do
  let oracleContract ← liftStd (addrValidate deps.addrValid msg.oracleContract)
  let osmosisProxy ← liftStd (addrValidate deps.addrValid msg.osmosisProxy)
  let positionsContract ← liftStd (addrValidate deps.addrValid msg.positionsContract)
  let governanceContract ← liftStd (addrValidate deps.addrValid msg.governanceContract)
  let stakingContract ← liftStd (addrValidate deps.addrValid msg.stakingContract)
  let owner ← (match msg.owner with
    | some owner => liftStd (addrValidate deps.addrValid owner)
    | none => pure info.sender)
  let basket ← liftStd (Outcome.ofExcept (deps.basket positionsContract))
  let config : Config := {
    owner := owner
    oracleContract := oracleContract
    osmosisProxy := osmosisProxy
    mbrnDenom := msg.mbrnDenom
    cdtDenom := basket.creditAsset.info.toText
    desiredAsset := "uosmo"
    positionsContract := positionsContract
    governanceContract := governanceContract
    stakingContract := stakingContract
    twapTimeframe := msg.twapTimeframe
    initialDiscount := msg.initialDiscount
    discountIncreaseTimeframe := msg.discountIncreaseTimeframe
    discountIncrease := msg.discountIncrease
    sendToStakers := false }
  pure (⟨config, none, ∅, none⟩, {})

/-- An address of the configuration, or the one it replaces it with. -/
def setAddr (deps : Deps) (update : Option String) (addr : Addr) : Result Addr :=
  match update with
  | some address => liftStd (addrValidate deps.addrValid address)
  | none => pure addr

/-- A number of the configuration, or the one in range it is replaced with. -/
def setInRange {α : Type} [LT α] [DecidableLT α] (update : Option α) (least most : α)
    (error : String) (old : α) : Result α :=
  match update with
  | some new => do
      Outcome.guardErr (new < least ∨ most < new) (.customError error)
      pure new
  | none => pure old

def updateConfig (deps : Deps) (info : MessageInfo) (update : UpdateConfig) (s : State) :
    Result (State × Response OutMsg) := do
  let config := s.config
  let owner ← (if info.sender ≠ config.owner then
      match s.ownershipTransfer with
      | some newOwner => do
          Outcome.guardErr (info.sender ≠ newOwner) .unauthorized
          pure info.sender
      | none => Outcome.fail .unauthorized
    else pure config.owner)
  let ownershipTransfer ← (match update.owner with
    | some address => do pure (some (← liftStd (addrValidate deps.addrValid address)))
    | none => pure s.ownershipTransfer)
  let oracleContract ← setAddr deps update.oracleContract config.oracleContract
  let osmosisProxy ← setAddr deps update.osmosisProxy config.osmosisProxy
  let positionsContract ← setAddr deps update.positionsContract config.positionsContract
  let governanceContract ← setAddr deps update.governanceContract config.governanceContract
  let stakingContract ← setAddr deps update.stakingContract config.stakingContract
  -- an asset without a price is not taken, and raises no error
  let desiredAsset := match update.desiredAsset with
    | some asset =>
      match deps.oraclePrice oracleContract asset 0 0 with
      | .ok _ => asset
      | .error _ => config.desiredAsset
    | none => config.desiredAsset
  let twapTimeframe ← setInRange update.twapTimeframe 60 480 "Invalid TWAP timeframe"
    config.twapTimeframe
  let initialDiscount ← setInRange update.initialDiscount (Decimal.percent 1) (Decimal.percent 10)
    "Invalid initial discount" config.initialDiscount
  let discountIncreaseTimeframe ← setInRange update.discountIncreaseTimeframe 10 300
    "Invalid discount increase timeframe" config.discountIncreaseTimeframe
  let discountIncrease ← setInRange update.discountIncrease (Decimal.percent 1) (Decimal.percent 5)
    "Invalid discount increase" config.discountIncrease
  pure ({ s with
    config := {
      owner := owner
      oracleContract := oracleContract
      osmosisProxy := osmosisProxy
      mbrnDenom := update.mbrnDenom.getD config.mbrnDenom
      cdtDenom := update.cdtDenom.getD config.cdtDenom
      desiredAsset := desiredAsset
      positionsContract := positionsContract
      governanceContract := governanceContract
      stakingContract := stakingContract
      twapTimeframe := twapTimeframe
      initialDiscount := initialDiscount
      discountIncreaseTimeframe := discountIncreaseTimeframe
      discountIncrease := discountIncrease
      sendToStakers := update.sendToStakers.getD config.sendToStakers }
    ownershipTransfer := ownershipTransfer }, {})

/-! ## Starting and removing auctions -/

def validateAsset (coin : Coin) (validDenom : String) : Outcome StdError Coin := do
  Outcome.guardErr (coin.denom ≠ validDenom) (.genericErr ("Invalid asset (" ++ coin.denom ++
    ") sent to fulfill auction. Must be " ++ validDenom))
  Outcome.guardErr (coin.amount = 0) (.genericErr "Amount must be greater than 0")
  pure coin

/-- The fee auctions with the one coin sent added to that of its asset. -/
def startFeeAuction (env : Env) (info : MessageInfo) (auctionAsset : Asset) (s : State) :
    Result State :=
  match info.funds with
  | [coin] => do
      let _ ← liftStd (validateAsset coin auctionAsset.info.toText)
      let key := auctionAsset.info.toText
      let auction ← (match s.feeAuctions.lookup key with
        | some auction => do
            let amount ← Uint128.add auction.auctionAsset.amount coin.amount
            pure { auction with auctionAsset := { auction.auctionAsset with amount := amount } }
        | none => pure ⟨{ auctionAsset with amount := coin.amount }, env.blockTime⟩)
      pure { s with feeAuctions := s.feeAuctions.insert key auction }
  | _ => Outcome.fail (.customError
      "Must start only one auction & fees must be sent with intiation")

/-- An auction with one more amount of debt, which a position or an address may have
    been given. -/
def addDebt (amount : Nat) (sendAddr : Option Addr) (userInfo : Option UserInfo)
    (auction : DebtAuction) : DebtAuction :=
  { auction with
    sendTo := auction.sendTo ++ (sendAddr.map fun addr => ⟨amount, addr⟩).toList
    repaymentPositions :=
      auction.repaymentPositions ++ (userInfo.map fun info => ⟨amount, info⟩).toList }

/-- The debt auction with an amount of debt added, or a new one. -/
def startDebtAuction (deps : Deps) (env : Env) (userInfo : Option UserInfo)
    (sendTo : Option String) (amount : Nat) (s : State) : Result State := do
  Outcome.guardErr (sendTo.isSome ∧ userInfo.isSome) (.customError
    "Delegate auction proceeds to one party at a time")
  let sendAddr ← (match sendTo with
    | some text => do pure (some (← liftStd (addrValidate deps.addrValid text)))
    | none => pure none)
  let auction ← (match s.debtAuction with
    | some auction => do
        let remaining ← Uint128.add auction.remainingRecapitalization amount
        pure { auction with remainingRecapitalization := remaining }
    | none => pure ⟨amount, [], [], env.blockTime⟩)
  pure { s with debtAuction := some (addDebt amount sendAddr userInfo auction) }

def startAuction (deps : Deps) (env : Env) (info : MessageInfo) (userInfo : Option UserInfo)
    (sendTo : Option String) (auctionAsset : Asset) (s : State) :
    Result (State × Response OutMsg) := do
  Outcome.guardErr (info.sender ≠ s.config.owner ∧ info.sender ≠ s.config.positionsContract ∧
    info.sender ≠ s.config.stakingContract) .unauthorized
  let s' ← (if info.funds ≠ [] then startFeeAuction env info auctionAsset s
    else if auctionAsset.info.toText = s.config.cdtDenom then
      startDebtAuction deps env userInfo sendTo auctionAsset.amount s
    else pure s)
  pure (s', {})

def removeAuction (info : MessageInfo) (s : State) : Result (State × Response OutMsg) := do
  Outcome.guardErr (info.sender ≠ s.config.owner ∧ info.sender ≠ s.config.positionsContract)
    .unauthorized
  pure ({ s with debtAuction := none }, {})

/-! ## Swaps -/

/-- The only coin of a call, of the denom that the auction takes. -/
def sentCoin (info : MessageInfo) (validDenom : String) : Result Coin :=
  match info.funds with
  | [coin] => liftStd (validateAsset coin validDenom)
  | _ => Outcome.fail (.std (.genericErr "Only one coin can be sent"))

def getDiscountRatio (env : Env) (auctionStartTime : Nat) (config : Config) :
    Outcome StdError Decimal := do
  let timeElapsed ← subUint env.blockTime auctionStartTime
  Outcome.guardPanic (config.discountIncreaseTimeframe = 0)
  let discountMultiplier := timeElapsed / config.discountIncreaseTimeframe
  let currentDiscountIncrease ←
    decimalMultiplication (← Decimal.fromRatio discountMultiplier 1) config.discountIncrease
  let increased ← Decimal.add currentDiscountIncrease config.initialDiscount
  let currentDiscount := if Decimal.one < increased then Decimal.one else increased
  let discountRatio ← decimalSubtraction Decimal.one currentDiscount
  pure (if discountRatio < Decimal.percent 1 then Decimal.percent 1 else discountRatio)

/-- The first of the prices that the oracle has for a denom. -/
def priceOf (deps : Deps) (config : Config) (denom : String) : Outcome StdError PriceResponse := do
  let res ← Outcome.ofExcept (deps.oraclePrice config.oracleContract denom config.twapTimeframe 600)
  Outcome.index res 0

/-- The loop of `swap_for_mbrn` over the positions to repay: the positions with what is
    left to repay, the amount left, and the messages. -/
def repayPositions (config : Config) (denom : String) :
    List RepayPosition → Nat → List RepayPosition × Nat × List (CosmosMsg OutMsg)
  | [], swapAmount => ([], swapAmount, [])
  | position :: rest, swapAmount =>
    if position.repayment ≠ 0 ∧ swapAmount ≠ 0 then
      let repayAmount := if swapAmount ≤ position.repayment then swapAmount else position.repayment
      let (positions, left, msgs) := repayPositions config denom rest (swapAmount - repayAmount)
      ({ position with repayment := position.repayment - repayAmount } :: positions, left,
        .execute config.positionsContract (.repay position.positionInfo.positionId
          (some position.positionInfo.positionOwner) none) [⟨denom, repayAmount⟩] :: msgs)
    else
      let (positions, left, msgs) := repayPositions config denom rest swapAmount
      (position :: positions, left, msgs)

/-- The loop of `swap_for_mbrn` over the recipients, likewise. -/
def payRecipients (deps : Deps) (config : Config) :
    List AuctionRecipient → Nat →
      Outcome StdError (List AuctionRecipient × Nat × List (CosmosMsg OutMsg))
  | [], swapAmount => pure ([], swapAmount, [])
  | recipient :: rest, swapAmount =>
    if swapAmount ≠ 0 ∧ recipient.amount ≠ 0 then do
      let withdrawalAmount :=
        if recipient.amount ≤ swapAmount then recipient.amount else swapAmount
      let basket ← Outcome.ofExcept (deps.basket config.positionsContract)
      let msg ← withdrawalMsg ⟨basket.creditAsset.info, withdrawalAmount⟩ recipient.recipient
      let (recipients, left, msgs) ←
        payRecipients deps config rest (swapAmount - withdrawalAmount)
      pure ({ recipient with amount := recipient.amount - withdrawalAmount } :: recipients, left,
        msg :: msgs)
    else do
      let (recipients, left, msgs) ← payRecipients deps config rest swapAmount
      pure (recipient :: recipients, left, msgs)

def swapForMbrn (deps : Deps) (env : Env) (info : MessageInfo) (s : State) :
    Result (State × Response OutMsg) := do
  let config := s.config
  let coin ← sentCoin info config.cdtDenom
  let auction ← Outcome.ofOption s.debtAuction
    (.std (.notFound "membrane::types::DebtAuction"))
  Outcome.guardErr (auction.remainingRecapitalization = 0) (.std (.genericErr "Auction ended"))
  let swapAmount ← Decimal.fromRatio coin.amount 1
  let mbrnPrice ← liftStd (priceOf deps config config.mbrnDenom)
  let basket ← liftStd (Outcome.ofExcept (deps.basket config.positionsContract))
  let discountRatio ← liftStd (getDiscountRatio env auction.auctionStartTime config)
  let discountedPrice ← liftStd (decimalMultiplication mbrnPrice.price discountRatio)
  let creditValue ← liftStd (basket.creditPrice.getValue swapAmount.toUintFloor)
  let mbrnMintAmount ← Decimal.mulUint 1 (← liftStd (decimalDivision creditValue discountedPrice))
  let mint : CosmosMsg OutMsg := .execute config.osmosisProxy
    (.mintTokens config.mbrnDenom mbrnMintAmount info.sender) []
  let swapAmount ← Decimal.mulUint 1 swapAmount
  let (positions, swapAmount, repays) :=
    repayPositions config coin.denom auction.repaymentPositions swapAmount
  let (recipients, overpay, sends) ←
    liftStd (payRecipients deps config auction.sendTo swapAmount)
  let remaining ←
    subUint auction.remainingRecapitalization (← subUint coin.amount overpay)
  let refund ← (if overpay = 0 then pure []
    else do pure [← liftStd (withdrawalMsg ⟨.nativeToken coin.denom, overpay⟩ info.sender)])
  let auction := { auction with
    remainingRecapitalization := remaining
    repaymentPositions := positions.filter fun info => info.repayment ≠ 0
    sendTo := recipients }
  pure ({ s with debtAuction := if remaining = 0 then none else some auction },
    Response.addMessages {} ([mint] ++ repays ++ sends ++ refund))

/-- What a fee swap leaves: what of the coin is too much, what is paid out, and what of
    the fee is left. -/
structure FeeSwap where
  overpay : Nat
  successfulSwapAmount : Nat
  left : Nat

/-- The three cases of `swap_with_the_contracts_desired_asset`, by the values of the
    coin and of the auction. -/
def settleFeeSwap (desiredPrice auctionPrice : PriceResponse) (discountRatio : Decimal)
    (sent auctioned : Nat) : Outcome StdError FeeSwap := do
  let desiredAssetValue ← desiredPrice.getValue sent
  let auctionAssetValue ←
    decimalMultiplication (← auctionPrice.getValue auctioned) discountRatio
  if auctionAssetValue < desiredAssetValue then do
    let overpay ← desiredPrice.getAmount (← Decimal.sub desiredAssetValue auctionAssetValue)
    pure ⟨overpay, auctioned, 0⟩
  else if desiredAssetValue < auctionAssetValue then do
    let discountedPrice : PriceResponse :=
      { auctionPrice with price := ← decimalMultiplication auctionPrice.price discountRatio }
    let successfulSwapAmount ← discountedPrice.getAmount desiredAssetValue
    let left ← discountedPrice.getAmount (← Decimal.sub auctionAssetValue desiredAssetValue)
    pure ⟨0, successfulSwapAmount, left⟩
  else pure ⟨0, auctioned, 0⟩

/-- `swap_with_the_contracts_desired_asset`. What its cases store of the auction, the end
    of the function stores again. -/
def swapWithTheContractsDesiredAsset (deps : Deps) (env : Env) (info : MessageInfo)
    (auctionAsset : AssetInfo) (s : State) : Result (State × Response OutMsg) := do
  let config := s.config
  let coin ← sentCoin info config.desiredAsset
  let key := auctionAsset.toText
  let auction ← Outcome.ofOption (s.feeAuctions.lookup key)
    (.std (.notFound "membrane::types::FeeAuction"))
  Outcome.guardErr (auction.auctionAsset.amount = 0 ∨ env.blockTime < auction.auctionStartTime)
    (.std (.genericErr "Auction isn't running now"))
  let desiredPrice ← liftStd (priceOf deps config config.desiredAsset)
  let auctionPrice ← liftStd (priceOf deps config auction.auctionAsset.info.toText)
  let discountRatio ← liftStd (getDiscountRatio env auction.auctionStartTime config)
  let swap ← liftStd (settleFeeSwap desiredPrice auctionPrice discountRatio coin.amount
    auction.auctionAsset.amount)
  let kept ← subUint coin.amount swap.overpay
  let proceeds : List (CosmosMsg OutMsg) :=
    if kept = 0 then []
    else if config.sendToStakers then
      [.execute config.stakingContract .depositFee [⟨config.desiredAsset, kept⟩]]
    else [.bankSend config.governanceContract [⟨config.desiredAsset, kept⟩]]
  let payout : CosmosMsg OutMsg :=
    .bankSend info.sender [⟨auction.auctionAsset.info.toText, swap.successfulSwapAmount⟩]
  let refund : List (CosmosMsg OutMsg) :=
    if swap.overpay = 0 then [] else [.bankSend info.sender [⟨coin.denom, swap.overpay⟩]]
  let left : FeeAuction :=
    { auction with auctionAsset := { auction.auctionAsset with amount := swap.left } }
  pure ({ s with feeAuctions :=
      if swap.left ≤ 1 then s.feeAuctions.erase key else s.feeAuctions.insert key left },
    Response.addMessages {} (proceeds ++ [payout] ++ refund))

def execute (deps : Deps) (env : Env) (info : MessageInfo) (msg : ExecuteMsg) (s : State) :
    Result (State × Response OutMsg) :=
  match msg with
  | .startAuction repaymentPositionInfo sendTo auctionAsset =>
    startAuction deps env info repaymentPositionInfo sendTo auctionAsset s
  | .swapForMBRN => swapForMbrn deps env info s
  | .swapForFee auctionAsset => swapWithTheContractsDesiredAsset deps env info auctionAsset s
  | .removeAuction => removeAuction info s
  | .updateConfig update => updateConfig deps info update s

/-- One call from outside: what it can ask of the chain, its block, its sender and
    its message. -/
structure Call where
  deps : Deps
  env : Env
  info : MessageInfo
  msg : ExecuteMsg

def Call.exec (s : State) (call : Call) : Option State :=
  match execute call.deps call.env call.info call.msg s with
  | .ok (s', _) => some s'
  | .error _ => none

end Membrane.Auction
