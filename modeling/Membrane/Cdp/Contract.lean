import Membrane.Cdp.Reply

/-!
# The contract's entry points

`execute` and `reply` of `contract.rs`.
-/

namespace Membrane.Cdp

inductive ExecuteMsg where
  | updateConfig (update : UpdateConfig)
  | deposit (positionId : Option Nat) (positionOwner : Option String)
  | increaseDebt (positionId : Nat) (amount : Option Nat) (ltv : Option Decimal)
      (mintToAddr : Option String)
  | withdraw (positionId : Nat) (assets : List Asset) (sendTo : Option String)
  | repay (positionId : Nat) (positionOwner sendExcessTo : Option String)
  | liqRepay
  | liquidate (positionId : Nat) (positionOwner : String)
  | redeemCollateral (maxCollateralPremium : Option Nat)
  | editRedeemability (positionIds : List Nat) (edit : RedemptionEdit)
  | accrue (positionOwner : Option String) (positionIds : List Nat)
  | editBasket (edit : EditBasket)
  | editCAsset (asset : AssetInfo) (maxBorrowLTV maxLTV : Option Decimal)
  | badDebtCheck (positionId : Nat) (positionOwner : Addr)

def duplicateAssetCheck (assets : List Asset) : Result PUnit :=
  Outcome.guardErr (¬ (assets.map (·.info)).Nodup)
    (.customError "No duplicate assets in Asset object lists")

def assertSentNativeTokenBalance (assetInfo : AssetInfo) (info : MessageInfo) :
    Outcome StdError Asset :=
  match assetInfo with
  | .token _ => Outcome.fail (.genericErr
      "Asset type not native, check Msg schema and use AssetInfo::Token{ address: Addr }")
  | .nativeToken denom =>
    match info.funds.find? fun coin => coin.denom == denom with
    | none => Outcome.fail (.genericErr
        "Incorrect denomination, sent asset denom and asset.info.denom differ")
    | some coin => do
        Outcome.guardErr (coin.amount = 0) (.genericErr "You gave me nothing to deposit")
        pure ⟨assetInfo, coin.amount⟩

def sentAssets (info : MessageInfo) : List Asset :=
  info.funds.map fun coin => ⟨.nativeToken coin.denom, coin.amount⟩

/-- The `Deposit` arm of `execute`: the coins sent are the assets deposited. -/
def executeDeposit (deps : Deps) (env : Env) (info : MessageInfo) (positionId : Option Nat)
    (positionOwner : Option String) (s : State) : Result (State × Response OutMsg) := do
  let cAssets ← assertBasketAssets s.basket (sentAssets info)
  Outcome.guardErr (cAssets.isEmpty = true) (.customError "No deposit assets passed")
  deposit deps env info positionOwner positionId cAssets s

/-- The `Withdraw` arm of `execute`. -/
def executeWithdraw (deps : Deps) (env : Env) (info : MessageInfo) (positionId : Nat)
    (assets : List Asset) (sendTo : Option String) (s : State) :
    Result (State × Response OutMsg) := do
  duplicateAssetCheck assets
  let cAssets ← assertBasketAssets s.basket assets
  Outcome.guardErr (cAssets.isEmpty = true) (.customError "No withdrawal assets passed")
  withdraw deps env info positionId cAssets sendTo s

/-- The `Repay` arm of `execute`. -/
def executeRepay (deps : Deps) (env : Env) (info : MessageInfo) (positionId : Nat)
    (positionOwner sendExcessTo : Option String) (s : State) :
    Result (State × Response OutMsg) := do
  let creditAsset ← liftStd (assertSentNativeTokenBalance s.basket.creditAsset.info info)
  repay deps env info positionId positionOwner creditAsset sendExcessTo s

/-- The `LiqRepay` arm of `execute`: the first coin sent is the repayment. -/
def executeLiqRepay (deps : Deps) (env : Env) (info : MessageInfo) (s : State) :
    Result (State × Response OutMsg) :=
  match info.funds with
  | [] => Outcome.fail .invalidCredit
  | coin :: _ => liqRepay deps env info ⟨.nativeToken coin.denom, coin.amount⟩ s

def execute (deps : Deps) (env : Env) (info : MessageInfo) (msg : ExecuteMsg) (s : State) :
    Result (State × Response OutMsg) :=
  match msg with
  | .updateConfig update => updateConfig deps info update s
  | .deposit positionId positionOwner => executeDeposit deps env info positionId positionOwner s
  | .increaseDebt positionId amount ltv mintToAddr =>
    increaseDebt deps env info positionId amount ltv mintToAddr s
  | .withdraw positionId assets sendTo => executeWithdraw deps env info positionId assets sendTo s
  | .repay positionId positionOwner sendExcessTo =>
    executeRepay deps env info positionId positionOwner sendExcessTo s
  | .liqRepay => executeLiqRepay deps env info s
  | .liquidate positionId positionOwner => liquidate deps env info positionId positionOwner s
  | .redeemCollateral maxCollateralPremium =>
    redeemForCollateral deps env info (maxCollateralPremium.getD 99) s
  | .editRedeemability positionIds edit => do
      let s ← editRedemptionInfo s info.sender positionIds edit false
      pure (s, {})
  | .accrue positionOwner positionIds =>
    externalAccrueCall deps env info positionOwner positionIds s
  | .editBasket edit => editBasket deps env info edit s
  | .editCAsset asset maxBorrowLTV maxLTV => editCAsset info asset maxBorrowLTV maxLTV s
  | .badDebtCheck positionId positionOwner =>
    if info.sender = env.contractAddress then checkAndFulfillBadDebt positionId positionOwner s
    else Outcome.fail (.unauthorized env.contractAddress)

/-- What a reply carries: its id, and the queue's event when there is one. -/
structure Reply where
  id : Nat
  event : Option LiqQueueEvent

def reply (deps : Deps) (env : Env) (msg : Reply) (s : State) :
    Outcome StdError (State × Response OutMsg) :=
  if msg.id = liqQueueReplyId then handleLiqQueueReply deps env msg.event s
  else if msg.id = withdrawReplyId then handleWithdrawReply deps env s
  else if msg.id = badDebtReplyId then .ok (s, {})
  else Outcome.fail (.genericErr ("invalid reply id: " ++ toString msg.id))

/-- One call from outside: what it can ask of the chain, its block, its sender and
    its message. -/
structure Call where
  deps : Deps
  env : Env
  info : MessageInfo
  msg : ExecuteMsg

/-- A successful call takes the contract from one state to another and returns a
    response. -/
def Call.steps (call : Call) (s s' : State) (response : Response OutMsg) : Prop :=
  execute call.deps call.env call.info call.msg s = .ok (s', response)

/-- A step of the contract: a successful call, whatever it returns. -/
def callStep (s : State) (call : Call) (s' : State) : Prop := ∃ response, call.steps s s' response

/-- The state after a call, nothing when it fails. -/
def Call.exec (s : State) (call : Call) : Option State :=
  match execute call.deps call.env call.info call.msg s with
  | .ok (s', _) => some s'
  | .error _ => none

theorem Call.exec_step {s s' : State} {call : Call} (done : Call.exec s call = some s') :
    callStep s call s' := by
  unfold Call.exec at done
  split at done
  case h_1 _ response h =>
    obtain rfl := Option.some.inj done
    exact ⟨response, h⟩
  case h_2 => cases done

end Membrane.Cdp
