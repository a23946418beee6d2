import Membrane.StableEarn.State

/-!
# The stable earn vault

The handlers of `contracts/stable-earn-vault` that split the vault tokens, size the loops of
its position and pay a withdrawal, then the rest: deposits, the loops themselves, which go on
from reply to reply, and the callbacks.
-/

namespace Membrane.StableEarn

open MarsVault (calculateBaseTokens calculateVaultTokens)

/-- `LOOP_MAX`. -/
def loopMax : Nat := 5

def rateUnit : Nat := 1000000000000

/-! ## The buffer -/

/-- What `get_buffer_amounts` returns. -/
structure BufferAmounts where
  ratioOfTokensInContract : Decimal
  balance : Nat
  vtKept : Nat
  vtSentToCdp : Nat
  deriving DecidableEq, Repr

def getBufferAmounts (deps : Deps) (config : Config) (contractAddress : Addr) :
    Outcome StdError BufferAmounts := do
  let balance ← Outcome.ofExcept (deps.balance contractAddress config.depositToken.vaultToken)
  let ratio ← decimalDivision (← Decimal.fromRatio balance 1)
    (← Decimal.fromRatio (max config.totalNonleveragedVaultTokens 1) 1)
  let desiredRatioTokens ← decimalMultiplication
    (← Decimal.fromRatio config.totalNonleveragedVaultTokens 1) config.withdrawalBuffer
  if ratio < config.withdrawalBuffer then do
    let tokensToFillRatio ← subUint desiredRatioTokens.toUintFloor balance
    if balance ≤ tokensToFillRatio then pure ⟨ratio, balance, balance, 0⟩
    else do
      let vtSentToCdp ← subUint balance tokensToFillRatio
      pure ⟨ratio, balance, tokensToFillRatio, vtSentToCdp⟩
  else do
    let tokensToLowerRatio ← subUint balance desiredRatioTokens.toUintFloor
    if balance ≤ tokensToLowerRatio then pure ⟨ratio, balance, 0, balance⟩
    else do
      let vtKept ← subUint balance tokensToLowerRatio
      pure ⟨ratio, balance, vtKept, tokensToLowerRatio⟩

/-- `handle_enter_reply`, of a deposit that succeeded. -/
def handleEnterReply (deps : Deps) (env : Env) (s : State) : Outcome StdError (List Msg) := do
  let amounts ← getBufferAmounts deps s.config env.contractAddress
  pure (if amounts.vtSentToCdp ≠ 0 then
      [.deposit s.config.cdpContractAddr s.config.cdpPositionId
        ⟨s.config.depositToken.vaultToken, amounts.vtSentToCdp⟩]
    else [])

/-! ## Loops -/

def ltvSpace (ltv : Decimal) : Outcome StdError Decimal :=
  if ltv ≤ Decimal.percent 90 then pure ⟨(Decimal.percent 90).atomics - ltv.atomics⟩
  else Outcome.fail (.genericErr ("LTV over 90%: " ++ ltv.toText ++ " > 0.9"))

/-- `calc_mintable`: the deposit tokens and their value to expect at least, and the amount
    to mint. -/
def calcMintable (swapSlippage : Decimal) (vtPrice depositTokenPrice cdtPrice : PriceResponse)
    (vaultTokens debt : Nat) : Outcome StdError (Nat × Decimal × Nat) := do
  let vaultTokensValue ← vtPrice.getValue vaultTokens
  let debtValue ← cdtPrice.getValue debt
  let ltv ← decimalDivision debtValue (decimalMax vaultTokensValue Decimal.one)
  -- the third decimal of the room is dropped
  let ltvSpaceToMint ← (← ltvSpace ltv).checkedMul (Decimal.percent 10000)
  let mintableValue ←
    decimalMultiplication vaultTokensValue (Decimal.percent ltvSpaceToMint.toUintFloor)
  let amountToMint ← cdtPrice.getAmount mintableValue
  let minDepositValue ←
    decimalMultiplication mintableValue (← decimalSubtraction Decimal.one swapSlippage)
  let minNewDepositToken ← depositTokenPrice.getAmount minDepositValue
  pure (minNewDepositToken, minDepositValue, amountToMint)

/-- The value a debt must not fall below unless it is cleared, with a buffer of one. -/
def minimumDebtValue : Decimal := Decimal.percent 10100

def calcWithdrawableCollateral (swapSlippage : Decimal) (vtPrice cdtPrice : PriceResponse)
    (vaultTokens debt : Nat) (inReply : Bool) : Outcome StdError (Nat × Decimal) :=
  if debt = 0 then pure (vaultTokens, Decimal.zero)
  else do
    let vaultTokensValue ← vtPrice.getValue vaultTokens
    let debtValue ← cdtPrice.getValue debt
    let ltv ← decimalDivision debtValue (decimalMax vaultTokensValue Decimal.one)
    let ltvSpaceToWithdraw ← ltvSpace ltv
    -- the room, or the debt and the slippage of its swap
    let withdrawableValue := Decimal.min
      (← decimalDivision (← decimalMultiplication vaultTokensValue ltvSpaceToWithdraw)
        (Decimal.percent 90))
      (← decimalMultiplication debtValue (← Decimal.add Decimal.one swapSlippage))
    let underMinimum ← (if withdrawableValue < debtValue then do
        pure (decide ((← decimalSubtraction debtValue withdrawableValue) < minimumDebtValue))
      else pure false)
    let withdrawableValue ← (if underMinimum then
        Outcome.mapErr (fun _ => .genericErr
          ("Failed to subtract debt_value from minimum_debt_value: " ++ debtValue.toText ++ " - " ++
            minimumDebtValue.toText)) (decimalSubtraction debtValue minimumDebtValue)
      else if inReply = false ∧ debtValue < minimumDebtValue then
        Outcome.fail (.genericErr ("Debt value: (" ++ debtValue.toText ++
          "), is less than minimum debt value: (" ++ minimumDebtValue.toText ++
          "), which will error in the CDP repay function anyway. Someone needs to add more " ++
          "capital to the contract's CDP, whose position ID is in the config, to create more " ++
          "withdrawal space to totally unloop."))
      else pure withdrawableValue)
    let withdrawalWSlippage ←
      decimalMultiplication withdrawableValue (← decimalSubtraction Decimal.one swapSlippage)
    let withdrawableCollateral ← vtPrice.getAmount withdrawableValue
    pure (withdrawableCollateral, withdrawalWSlippage)

/-- `handle_unloop_reply`, of a swap that succeeded. -/
def handleUnloopReply (deps : Deps) (env : Env) (s : State) :
    Outcome StdError (State × List Msg) := do
  let config := s.config
  let cdtBalance ← Outcome.ofExcept (deps.balance env.contractAddress config.cdtDenom)
  let repay : Msg :=
    .repay config.cdpContractAddr config.cdpPositionId ⟨config.cdtDenom, cdtBalance⟩
  let loopCount ← Uint64.add s.unloopProps.loopCount 1
  let unloopProps : UnloopProps := { s.unloopProps with
    loopCount := loopCount
    runningCreditAmount := s.unloopProps.runningCreditAmount - cdtBalance }
  let (withdrawableCollateral, _) ← calcWithdrawableCollateral config.swapSlippage
    unloopProps.vtTokenPrice unloopProps.cdtPegPrice unloopProps.runningCollateralAmount
    unloopProps.runningCreditAmount true
  let desired := unloopProps.desiredCollateralWithdrawal
  let msgs ← (if desired ≤ withdrawableCollateral then
      pure [.withdraw config.cdpContractAddr config.cdpPositionId
        [⟨.nativeToken config.depositToken.vaultToken, desired⟩]]
    else if loopMax ≤ loopCount then do
      let depositTokenAmount ← Outcome.mapErr (fun _ => .genericErr ("Failed to query the Mars " ++
          "Vault Token for the collateral conversion amount in unloop"))
        (Outcome.ofExcept
          (deps.vaultTokenUnderlying config.depositToken.vaultAddr withdrawableCollateral))
      Outcome.guardErr (unloopProps.runningCreditAmount = 0) (.genericErr
        ("Failed to hit the desired collateral withdrawal in unloop reply yet debt is 0. Either " ++
          "exit_vault is asking for too much and the remaining balance is actually in the " ++
          "contract OR the vault owns less than it says your tokens are worth."))
      Outcome.fail (.genericErr ("Failed to hit the desired collateral withdrawal: " ++
        toString desired ++ " in unloop reply, the most deposit we can withdraw in 1 tx is " ++
        toString depositTokenAmount))
    else pure (if unloopProps.runningCreditAmount ≠ 0 then
        [.unloopCDP env.contractAddress desired] else []))
  pure ({ s with unloopProps := unloopProps }, repay :: msgs)

/-! ## Withdrawals -/

def getTotalDepositTokens (deps : Deps) (env : Env) (config : Config) : Outcome StdError Nat := do
  let failed (text : String) : StdError := .genericErr (text ++ " in get_total_deposit_tokens")
  let cdtPrice ← Outcome.mapErr (fun _ => failed "Failed to query the CDP basket")
    (Outcome.ofExcept (deps.creditPrice config.cdpContractAddr))
  let prices ← Outcome.mapErr (fun _ => failed "Failed to query the VT token price")
    (Outcome.ofExcept (deps.price config.oracleContractAddr config.depositToken.vaultToken 60 600))
  let vtTokenPrice ← Outcome.index prices 0
  let positions ← Outcome.mapErr (fun error =>
    .genericErr ("Failed to query the CDP Position for " ++
      "the vault token amount in get_total_deposit_tokens:" ++ error.toText))
    (Outcome.ofExcept
      (deps.basketPositions config.cdpContractAddr env.contractAddress config.cdpPositionId))
  let vaultPosition ← Outcome.index (← Outcome.index positions 0) 0
  let debtValue ← cdtPrice.getValue vaultPosition.creditAmount
  let collateral ← Outcome.index vaultPosition.collateralAssets 0
  let collateralValue ← vtTokenPrice.getValue collateral.amount
  let liquidValue ← Outcome.mapErr (fun _ => .genericErr ("Failed to subtract the debt from the " ++
      "collateral in get_total_deposit_tokens, collateral value: " ++ collateralValue.toText ++
      ", debt value: " ++ debtValue.toText)) (collateralValue.checkedSub debtValue)
  let liquidValue ← (if debtValue.isZero then pure liquidValue
    else do
      decimalMultiplication liquidValue (← decimalSubtraction Decimal.one config.swapSlippage))
  let totalVaulted ← vtTokenPrice.getAmount liquidValue
  let vtBuffer := match deps.balance env.contractAddress config.depositToken.vaultToken with
    | .ok balance => balance
    | .error _ => 0
  let totalVaulted ← Uint128.add totalVaulted vtBuffer
  Outcome.mapErr (fun _ =>
    .genericErr ("Failed to query the Mars Vault Token for the underlying " ++
      "deposit amount in instantiate"))
    (Outcome.ofExcept (deps.vaultTokenUnderlying config.depositToken.vaultAddr totalVaulted))

def sentVaultTokens (config : Config) (info : MessageInfo) : Result Nat :=
  match info.funds with
  | [coin] => do
      Outcome.guardErr (coin.denom ≠ config.vaultToken) (.customError
        ("The wrong asset was sent (\"" ++ coin.denom ++
          "\"), this function only accepts the vault token: \"" ++ config.vaultToken ++ "\""))
      Outcome.guardErr (coin.amount = 0) (.customError "Need to send more than 0 vault tokens")
      pure coin.amount
  | _ => Outcome.fail
    (.customError ("More than 1 asset was sent, this function only accepts the " ++
      "vault token: \"" ++ config.vaultToken ++ "\""))

def UnloopProps.reset : UnloopProps := ⟨0, 0, 0, 0, ⟨Decimal.zero, 6⟩, ⟨Decimal.zero, 6⟩⟩

def exitVault (deps : Deps) (env : Env) (info : MessageInfo) (s : State) :
    Result (State × List Msg) := do
  let config := s.config
  let vaultTokens ← sentVaultTokens config info
  let totalDepositTokens ← liftStd (getTotalDepositTokens deps env config)
  let preBtokensPerOne ←
    liftStd (calculateBaseTokens rateUnit totalDepositTokens s.vaultToken)
  let depositTokensToWithdraw ←
    liftStd (calculateBaseTokens vaultTokens totalDepositTokens s.vaultToken)
  let newVaultTokenSupply ← Outcome.ofOption (Uint128.checkedSub s.vaultToken vaultTokens)
    (.customError ("Failed to subtract vault token total supply: " ++ toString s.vaultToken ++
      " - " ++ toString vaultTokens))
  let marsVaultTokensToWithdraw ← Outcome.mapErr (fun _ =>
    .customError ("Failed to query the Mars " ++
      "Vault Token for the deposit token conversion amount"))
    (Outcome.ofExcept
      (deps.depositTokenConversion config.depositToken.vaultAddr depositTokensToWithdraw))
  let totalNonleveraged ← Outcome.ofOption
    (Uint128.checkedSub config.totalNonleveragedVaultTokens marsVaultTokensToWithdraw)
    (.customError ("Failed to subtract config non-leveraged vault tokens: " ++
      toString config.totalNonleveragedVaultTokens ++ " - " ++ toString marsVaultTokensToWithdraw))
  let balance ← liftStd (Outcome.ofExcept
    (deps.balance env.contractAddress config.depositToken.vaultToken))
  let vtokensToUnloop := marsVaultTokensToWithdraw - balance
  -- a unit of the deposit token is left for the rounding of the Mars vault
  let payout ← subUint depositTokensToWithdraw 1
  pure ({ s with
      config := { config with totalNonleveragedVaultTokens := totalNonleveraged }
      vaultToken := newVaultTokenSupply
      tokenRateAssurance := preBtokensPerOne
      unloopProps := .reset },
    [.burn env.contractAddress config.vaultToken vaultTokens env.contractAddress] ++
    (if vtokensToUnloop ≠ 0 then [.unloopCDP env.contractAddress vtokensToUnloop] else []) ++
    [.exitVault config.depositToken.vaultAddr
        ⟨config.depositToken.vaultToken, marsVaultTokensToWithdraw⟩,
      .send info.sender ⟨config.depositToken.depositToken, payout⟩,
      .updateNonleveragedVaultTokens env.contractAddress] ++
    if newVaultTokenSupply ≠ 0 ∧ depositTokensToWithdraw < totalDepositTokens then
      [.rateAssurance env.contractAddress] else [])

/-! ## Deposits -/

/-- The `Debug` text of a `VaultInfo`. -/
def VaultInfo.toText (info : VaultInfo) : String :=
  "VaultInfo \x7b vault_addr: Addr(\"" ++ info.vaultAddr ++ "\"), deposit_token: \"" ++
    info.depositToken ++ "\", vault_token: \"" ++ info.vaultToken ++ "\" \x7d"

def sentDepositTokens (config : Config) (info : MessageInfo) : Result Nat :=
  match info.funds with
  | [coin] => do
      Outcome.guardErr (coin.denom ≠ config.depositToken.depositToken) (.customError
        ("The wrong asset was sent (\"" ++ coin.denom ++
          "\"), this function only accepts the deposit token: " ++ config.depositToken.toText))
      pure coin.amount
  | _ => Outcome.fail
    (.customError ("More than 1 asset was sent, this function only accepts the " ++
      "deposit token: " ++ config.depositToken.toText))

def enterVault (deps : Deps) (env : Env) (info : MessageInfo) (s : State) :
    Result (State × List LoopSubMsg) := do
  let config := s.config
  let depositAmount ← sentDepositTokens config info
  let totalDepositTokens ← liftStd (getTotalDepositTokens deps env config)
  let preBtokensPerOne ← liftStd (calculateBaseTokens rateUnit totalDepositTokens s.vaultToken)
  let vaultTokensToDistribute ←
    liftStd (calculateVaultTokens depositAmount totalDepositTokens s.vaultToken)
  let vaultToken ← Uint128.add s.vaultToken vaultTokensToDistribute
  let vtReceived ← Outcome.mapErr (fun _ => .customError ("Failed to query the Mars Vault Token " ++
      "for the deposit token conversion amount"))
    (Outcome.ofExcept (deps.depositTokenConversion config.depositToken.vaultAddr depositAmount))
  let received ← subUint vtReceived 1
  let totalNonleveraged ← Uint128.add config.totalNonleveragedVaultTokens received
  pure ({ s with
      config := { config with totalNonleveragedVaultTokens := totalNonleveraged }
      vaultToken := vaultToken
      tokenRateAssurance := preBtokensPerOne },
    [.new (.mint env.contractAddress config.vaultToken vaultTokensToDistribute info.sender),
      ⟨.enterVault config.depositToken.vaultAddr ⟨config.depositToken.depositToken, depositAmount⟩,
        some .enterVault⟩] ++
    if totalDepositTokens ≠ 0 ∧ s.vaultToken ≠ 0 then
      [.new (.base (.rateAssurance env.contractAddress))] else [])

/-! ## The position -/

/-- What `get_cdp_position_info` returns, and the messages it adds. -/
structure CdpPositionInfo where
  runningCreditAmount : Nat
  runningCollateralAmount : Nat
  vtTokenPrice : PriceResponse
  cdtPrice : PriceResponse
  msgs : List LoopMsg

/-- `get_cdp_position_info`. Collateral that is not the accepted vault token goes to the
    owner. -/
def getCdpPositionInfo (deps : LoopDeps) (env : Env) (config : Config) :
    Outcome StdError CdpPositionInfo := do
  let prices ← Outcome.mapErr (fun _ =>
    .genericErr ("Failed to query the VT & CDT token price in " ++
      "get_cdp_position_info"))
    (Outcome.ofExcept (deps.prices config.oracleContractAddr
      [config.depositToken.vaultToken, config.cdtDenom] 0 0))
  let vtTokenPrice ← Outcome.index prices 0
  let cdtPrice ← Outcome.index prices 1
  let positions ← Outcome.mapErr (fun error =>
    .genericErr ("Failed to query the CDP Position for " ++
      "the vault token amount in get_cdp_position_info:" ++ error.toText))
    (Outcome.ofExcept
      (deps.basketPositions config.cdpContractAddr env.contractAddress config.cdpPositionId))
  let vaultPosition ← Outcome.index (← Outcome.index positions 0) 0
  let collateral ← Outcome.index vaultPosition.collateralAssets 0
  pure ⟨vaultPosition.creditAmount, collateral.amount, vtTokenPrice, cdtPrice,
    if 1 < vaultPosition.collateralAssets.length then
      [.withdrawTo config.cdpContractAddr config.cdpPositionId
        (vaultPosition.collateralAssets.drop 1) config.owner]
    else []⟩

/-! ## Loops of the position -/

/-- `MIN_DEPOSIT_VALUE`. -/
def minDepositValue : Decimal := Decimal.percent 10111

/-- `test_looping_peg_price`: the market price and the peg price. -/
def testLoopingPegPrice (deps : Deps) (config : Config) (desiredPegPrice : Decimal) :
    Result (PriceResponse × PriceResponse) := do
  let cdtPegPrice ← Outcome.mapErr (fun _ => .customError ("Failed to query the CDP basket in " ++
      "test_looping_peg_price"))
    (Outcome.ofExcept (deps.creditPrice config.cdpContractAddr))
  let prices ← Outcome.mapErr (fun _ => .customError "Failed to query the cdt price in post unloop")
    (Outcome.ofExcept (deps.price config.oracleContractAddr config.cdtDenom 0 0))
  let cdtMarketPrice ← Outcome.index prices 0
  let ratio ← liftStd
    (decimalDivision cdtMarketPrice.price (decimalMax cdtPegPrice.price Decimal.one))
  Outcome.guardErr (ratio < desiredPegPrice)
    (.customError ("CDT price is below 99% of peg, can't " ++
    "loop. Try a lower loop_max to reduce sell pressure."))
  pure (cdtMarketPrice, cdtPegPrice)

def loopCdp (deps : LoopDeps) (env : Env) (s : State) : Result (State × List LoopSubMsg) := do
  let config := s.config
  let desiredPegPrice ← liftStd (Decimal.add (Decimal.percent 98) config.swapSlippage)
  let (_, cdtPegPrice) ← testLoopingPegPrice deps.toDeps config desiredPegPrice
  let position ← liftStd (getCdpPositionInfo deps env config)
  let prices ← Outcome.mapErr (fun _ =>
    .customError ("Failed to query the deposit token price in " ++
      "loop"))
    (Outcome.ofExcept (deps.price config.oracleContractAddr config.depositToken.depositToken 0 0))
  let depositTokenPrice ← Outcome.index prices 0
  let (_, depositValue, amountToMint) ← liftStd (calcMintable config.swapSlippage
    position.vtTokenPrice depositTokenPrice cdtPegPrice position.runningCollateralAmount
    position.runningCreditAmount)
  Outcome.guardErr (depositValue < minDepositValue) (.customError
    ("Minimum deposit value for this loop: " ++ depositValue.toText ++
      ", is less than our minimum used to ensure unloopability: " ++ minDepositValue.toText))
  pure (s, position.msgs.map .new ++
    [.new (.increaseDebt config.cdpContractAddr config.cdpPositionId amountToMint),
      ⟨.executeSwaps config.osmosisProxyContractAddr config.depositToken.depositToken
        config.swapSlippage ⟨config.cdtDenom, amountToMint⟩, some .loop⟩])

/-- `handle_loop_reply`, of a swap that succeeded. -/
def handleLoopReply (deps : Deps) (env : Env) (s : State) : Outcome StdError (List LoopSubMsg) := do
  let config := s.config
  let depositTokenBalance ← Outcome.ofExcept
    (deps.balance env.contractAddress config.depositToken.depositToken)
  let vaultTokens ← Outcome.mapErr (fun _ =>
    .genericErr ("Failed to query the Mars Vault Token for " ++
      "the new deposit amount in loop"))
    (Outcome.ofExcept
      (deps.depositTokenConversion config.depositToken.vaultAddr depositTokenBalance))
  let amounts ← getBufferAmounts deps config env.contractAddress
  let deposited ← Uint128.add vaultTokens amounts.vtSentToCdp
  pure [.new (.enterVault config.depositToken.vaultAddr
      ⟨config.depositToken.depositToken, depositTokenBalance⟩),
    .new (.base (.deposit config.cdpContractAddr config.cdpPositionId
      ⟨config.depositToken.vaultToken, deposited⟩)),
    .new (.postLoopMaintenance env.contractAddress)]

/-- The caller of a callback is the contract itself. -/
def assertContract (env : Env) (info : MessageInfo) : CallbackResult PUnit :=
  Outcome.guardErr (info.sender ≠ env.contractAddress) .unauthorized

def postLoop (deps : Deps) (env : Env) (info : MessageInfo) (s : State) :
    CallbackResult (State × List LoopSubMsg) := do
  assertContract env info
  let _ ← liftFactory (testLoopingPegPrice deps s.config (Decimal.percent 98))
  pure (s, [])

/-! ## Unloops of the position -/

/-- `unloop_cdp`. The loops after the first go on with what the first one read. -/
def unloopCdp (deps : LoopDeps) (env : Env) (info : MessageInfo)
    (desiredCollateralWithdrawal : Nat) (s : State) : CallbackResult (State × List LoopSubMsg) := do
  let config := s.config
  assertContract env info
  let unloopProps ← liftFactory (if s.unloopProps.loopCount = 0 then do
      let position ← liftStd (getCdpPositionInfo deps env config)
      let cdtPegPrice ← Outcome.mapErr (fun _ =>
        .customError ("Failed to query the CDP basket in " ++
          "unloop"))
        (Outcome.ofExcept (deps.creditPrice config.cdpContractAddr))
      pure ⟨desiredCollateralWithdrawal, 0, position.runningCollateralAmount,
        position.runningCreditAmount, position.vtTokenPrice, cdtPegPrice⟩
    else pure s.unloopProps)
  if unloopProps.runningCreditAmount ≠ 0 ∧ unloopProps.loopCount < loopMax then do
    let (withdrawableCollateral, _) ← liftFactory (liftStd (calcWithdrawableCollateral
      config.swapSlippage unloopProps.vtTokenPrice unloopProps.cdtPegPrice
      unloopProps.runningCollateralAmount unloopProps.runningCreditAmount false))
    let withdraw (amount : Nat) : LoopSubMsg := .new (.base (.withdraw config.cdpContractAddr
      config.cdpPositionId [⟨.nativeToken config.depositToken.vaultToken, amount⟩]))
    if desiredCollateralWithdrawal ≤ withdrawableCollateral ∧ 0 < unloopProps.loopCount then
      pure (s, [withdraw desiredCollateralWithdrawal])
    else do
      let runningCollateralAmount ← Outcome.ofOption
        (Uint128.checkedSub unloopProps.runningCollateralAmount withdrawableCollateral)
        (.factory (.customError ("Failed to subtract running_collateral_amount: " ++
          toString unloopProps.runningCollateralAmount ++ " - " ++
          toString withdrawableCollateral)))
      pure ({ s with unloopProps :=
          { unloopProps with runningCollateralAmount := runningCollateralAmount } },
        [withdraw withdrawableCollateral,
          ⟨.base (.exitVault config.depositToken.vaultAddr
            ⟨config.depositToken.vaultToken, withdrawableCollateral⟩), some .exitVault⟩])
  else pure (s, [])

/-- `handle_exit_deposit_token_vault_reply`, of an exit that succeeded. -/
def handleExitDepositTokenVaultReply (deps : Deps) (env : Env) (s : State) :
    Outcome StdError (List LoopSubMsg) := do
  let config := s.config
  let depositTokenBalance ← Outcome.ofExcept
    (deps.balance env.contractAddress config.depositToken.depositToken)
  pure [⟨.executeSwaps config.osmosisProxyContractAddr config.cdtDenom config.swapSlippage
    ⟨config.depositToken.depositToken, depositTokenBalance⟩, some .unloop⟩]

def postUnloop (deps : Deps) (env : Env) (info : MessageInfo) (s : State) :
    CallbackResult (State × List LoopSubMsg) := do
  let config := s.config
  assertContract env info
  liftFactory (do
    let cdtPegPrice ← Outcome.mapErr (fun _ => .customError ("Failed to query the CDP basket in " ++
        "unloop"))
      (Outcome.ofExcept (deps.creditPrice config.cdpContractAddr))
    let prices ← Outcome.mapErr (fun _ => .customError ("Failed to query the cdt price in post " ++
        "unloop"))
      (Outcome.ofExcept (deps.price config.oracleContractAddr config.cdtDenom 0 0))
    let cdtMarketPrice ← Outcome.index prices 0
    let ratio ← liftStd
      (decimalDivision cdtMarketPrice.price (decimalMax cdtPegPrice.price Decimal.one))
    Outcome.guardErr (Decimal.percent 101 < ratio)
      (.customError "CDT price is above 101% of peg, can't unloop.")
    pure (s, []))

/-! ## Callbacks -/

def rateAssurance (deps : Deps) (env : Env) (info : MessageInfo) (s : State) :
    CallbackResult (State × List LoopSubMsg) := do
  assertContract env info
  liftFactory (do
    let totalDepositTokens ← liftStd (getTotalDepositTokens deps env s.config)
    let btokensPerOne ← liftStd (calculateBaseTokens rateUnit totalDepositTokens s.vaultToken)
    Outcome.guardErr (btokensPerOne ≠ s.tokenRateAssurance) (.customError
      ("Deposit or withdraw rate assurance failed. Deposit tokens per 1 post-tx: Uint128(" ++
        toString btokensPerOne ++ ") --- pre-tx: Uint128(" ++ toString s.tokenRateAssurance ++ ")"))
    pure (s, []))

def updateNonleveragedVaultTokens (deps : Deps) (env : Env) (info : MessageInfo) (s : State) :
    CallbackResult (State × List LoopSubMsg) := do
  let config := s.config
  assertContract env info
  let balance ← liftFactory (liftStd (Outcome.ofExcept
    (deps.balance env.contractAddress config.depositToken.vaultToken)))
  if s.unloopProps.runningCreditAmount = 0 then do
    let total ← Uint128.add s.unloopProps.runningCollateralAmount balance
    pure ({ s with config := { config with totalNonleveragedVaultTokens := total } }, [])
  else pure (s, [])

/-! ## The configuration -/

/-- An address of the configuration, or the one it is replaced with. -/
def setAddr (addrValid : String → Bool) (update : Option String) (addr : Addr) : Result Addr :=
  match update with
  | some text => liftStd (addrValidate addrValid text)
  | none => pure addr

/-- `update_config`, with what `OWNERSHIP_TRANSFER` holds. The denoms are not among what changes. -/
def updateConfig (addrValid : String → Bool) (ownershipTransfer : Option Addr) (info : MessageInfo)
    (update : UpdateConfig) (s : State) : CallbackResult (State × Option Addr) := do
  let config := s.config
  let owner ← (if info.sender ≠ config.owner then do
      let newOwner ← Outcome.ofOption ownershipTransfer
        (.factory (.std (.notFound "cosmwasm_std::addresses::Addr")))
      Outcome.guardErr (info.sender ≠ newOwner) .unauthorized
      pure info.sender
    else pure config.owner)
  liftFactory (do
    let ownershipTransfer ← (match update.owner with
      | some text => do pure (some (← liftStd (addrValidate addrValid text)))
      | none => pure ownershipTransfer)
    let cdpContractAddr ← setAddr addrValid update.cdpContractAddr config.cdpContractAddr
    let vaultAddr ← setAddr addrValid update.marsVaultAddr config.depositToken.vaultAddr
    let osmosisProxyContractAddr ←
      setAddr addrValid update.osmosisProxyContractAddr config.osmosisProxyContractAddr
    let oracleContractAddr ← setAddr addrValid update.oracleContractAddr config.oracleContractAddr
    pure ({ s with
      config := { config with
        owner := owner
        cdpContractAddr := cdpContractAddr
        depositToken := { config.depositToken with vaultAddr := vaultAddr }
        osmosisProxyContractAddr := osmosisProxyContractAddr
        oracleContractAddr := oracleContractAddr
        withdrawalBuffer := update.withdrawalBuffer.getD config.withdrawalBuffer
        swapSlippage := update.swapSlippage.getD config.swapSlippage } }, ownershipTransfer))

/-! ## Messages -/

/-- `ExecuteMsg`, but for the update of the configuration. -/
inductive ExecuteMsg where
  | enterVault
  | exitVault
  | unloopCDP (desiredCollateralWithdrawal : Nat)
  | loopCDP
  | rateAssurance
  | postLoopMaintenance
  | unloopMaintenance
  | updateNonleveragedVaultTokens
  deriving DecidableEq, Repr

def execute (deps : LoopDeps) (env : Env) (info : MessageInfo) (msg : ExecuteMsg) (s : State) :
    CallbackResult (State × List LoopSubMsg) :=
  match msg with
  | .enterVault => liftFactory (enterVault deps.toDeps env info s)
  | .exitVault => liftFactory (do
      let (s, msgs) ← exitVault deps.toDeps env info s
      pure (s, msgs.map fun msg => .new (.base msg)))
  | .unloopCDP desiredCollateralWithdrawal =>
    unloopCdp deps env info desiredCollateralWithdrawal s
  | .loopCDP => liftFactory (loopCdp deps env s)
  | .rateAssurance => rateAssurance deps.toDeps env info s
  | .postLoopMaintenance => postLoop deps.toDeps env info s
  | .unloopMaintenance => postUnloop deps.toDeps env info s
  | .updateNonleveragedVaultTokens => updateNonleveragedVaultTokens deps.toDeps env info s

/-- `reply`, of a message that succeeded. -/
def reply (deps : Deps) (env : Env) (id : ReplyId) (s : State) :
    Outcome StdError (State × List LoopSubMsg) := do
  let base (msgs : List Msg) : List LoopSubMsg := msgs.map fun msg => .new (.base msg)
  match id with
  | .enterVault => pure (s, base (← handleEnterReply deps env s))
  | .loop => pure (s, ← handleLoopReply deps env s)
  | .unloop => do
      let (s, msgs) ← handleUnloopReply deps env s
      pure (s, base msgs)
  | .exitVault => pure (s, ← handleExitDepositTokenVaultReply deps env s)

end Membrane.StableEarn
