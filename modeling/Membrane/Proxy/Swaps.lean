import Membrane.Proxy.State

/-!
# Swaps

`execute_swaps` of `contracts/osmosis-proxy`: the coins that are sent are swapped along stored
routes, each hop of which takes one token to another.
-/

namespace Membrane.Proxy

/-- `SwapAmountInRoute`: one hop. -/
structure SwapAmountInRoute where
  poolId : Nat
  tokenOutDenom : String
  deriving DecidableEq, Repr

structure SwapRoute where
  tokenIn : String
  routeOut : SwapAmountInRoute
  deriving DecidableEq, Repr

/-- `MsgSwapExactAmountIn`. -/
structure SwapMsg where
  sender : Addr
  routes : List SwapAmountInRoute
  tokenIn : Coin
  tokenOutMinAmount : Nat
  deriving DecidableEq, Repr

/-- `SWAP_REPLY_ID`. -/
def swapReplyId : Nat := 2

def findRoute (swapRoutes : List SwapRoute) (tokenIn : String) : Option SwapRoute :=
  swapRoutes.find? fun route => route.tokenIn == tokenIn

/-- `routes[routes.len() - 1]`, the token that comes out. -/
def lastTokenOut (routes : List SwapAmountInRoute) : Option String :=
  routes.getLast?.map (·.tokenOutDenom)

/-- The loop of `get_swap_route`: the hops so far, the token whose route is looked for next,
    and how many iterations are left. -/
def swapLoop (swapRoutes : List SwapRoute) (tokenOut : String) : (iterations : Nat) →
    (tokenIn : String) → List SwapAmountInRoute → Result (String × List SwapAmountInRoute)
  | 0, tokenIn, routes => pure (tokenIn, routes)
  | iterations + 1, tokenIn, routes =>
    if lastTokenOut routes = some tokenOut then pure (tokenIn, routes)
    else do
      let swapRoute ← Outcome.ofOption (findRoute swapRoutes tokenIn)
        (.customError ("\"" ++ tokenIn ++ "\" not found in embedded swap routes"))
      swapLoop swapRoutes tokenOut iterations swapRoute.routeOut.tokenOutDenom
        (routes ++ [swapRoute.routeOut])

def getSwapRoute (swapRoutes : List SwapRoute) (tokenIn tokenOut : String) :
    Result (List SwapAmountInRoute) := do
  let swapRoute ← Outcome.ofOption (findRoute swapRoutes tokenIn)
    (.customError ("\"" ++ tokenIn ++ "\" not found in swap routes"))
  let (tokenIn, routes) ← swapLoop swapRoutes tokenOut 5 tokenIn [swapRoute.routeOut]
  Outcome.guardErr (lastTokenOut routes ≠ some tokenOut) (.customError ("\"" ++ tokenOut ++
    "\" not found in swap routes for \"" ++ tokenIn ++ "\" within 6 hops"))
  pure routes

/-- The swap of one coin, for at least its value less the slippage. -/
def swapMsg (prices : Addr → List AssetInfo → Except StdError (List PriceResponse)) (env : Env)
    (config : Config) (swapRoutes : List SwapRoute) (tokenOut : String) (maxSlippage : Decimal)
    (coin : Coin) : Result SwapMsg := do
  let routes ← getSwapRoute swapRoutes coin.denom tokenOut
  let oracle ← Outcome.unwrap config.oracleContract
  let tokenPrices ← liftStd (Outcome.ofExcept
    (prices oracle [.nativeToken coin.denom, .nativeToken tokenOut]))
  let tokenInPrice ← Outcome.index tokenPrices 0
  let tokenOutPrice ← Outcome.index tokenPrices 1
  let tokenInValue ← liftStd (tokenInPrice.getValue coin.amount)
  let tokenOutMinValue ← liftStd
    (decimalMultiplication tokenInValue (← Decimal.sub Decimal.one maxSlippage))
  let tokenOutMinAmount ← liftStd (tokenOutPrice.getAmount tokenOutMinValue)
  pure ⟨env.contractAddress, routes, coin, tokenOutMinAmount⟩

/-- `execute_swaps`: the swapper that is saved, and the swaps. The last one is replied to. -/
def executeSwaps (prices : Addr → List AssetInfo → Except StdError (List PriceResponse)) (env : Env)
    (info : MessageInfo) (config : Config) (swapRoutes : List SwapRoute) (tokenOut : String)
    (maxSlippage : Decimal) : Result (Addr × List (SwapMsg × Option Nat)) := do
  Outcome.guardErr (info.funds = []) .zeroAmount
  let msgs ← info.funds.mapM (swapMsg prices env config swapRoutes tokenOut maxSlippage)
  let lastMsg ← Outcome.ofOption msgs.getLast? (.customError "No messages to swap")
  pure (info.sender, msgs.dropLast.map (·, none) ++ [(lastMsg, some swapReplyId)])

end Membrane.Proxy
