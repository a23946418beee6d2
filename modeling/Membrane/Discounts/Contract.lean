import Membrane.Types

/-!
# The system discounts

The discount that the system discounts contract answers for a user
(`contracts/system_discounts`), and the reader of its answers. A user is discounted
by what the stability pool and the staking contract hold for them, next to their
debt.
-/

namespace Membrane.Discounts

/-- `Config`, as far as a discount reads it. -/
structure Config where
  mbrnDenom : String
  oracleContract : Addr
  positionsContract : Addr
  stakingContract : Addr
  stabilityPoolContract : Addr
  minimumTimeInNetwork : Nat

/-- A `Deposit` of the stability pool, as far as a discount reads it. -/
structure PoolDeposit where
  amount : Decimal
  depositTime : Nat

/-- What other contracts answer, each asked by its address. -/
structure Deps where
  /-- The debt token's price in the raw storage of the position contract. -/
  rawBasket : Addr → Except StdError PriceResponse
  /-- The debt token's price in `GetBasket`. -/
  getBasket : Addr → Except StdError PriceResponse
  /-- The position contract's answer for a user, one list of positions for each basket. -/
  getBasketPositions : Addr → String → Except StdError (List (List Position))
  oraclePrice : Addr → AssetInfo → (twapTimeframe oracleTimeLimit : Nat) →
    Except StdError (List PriceResponse)
  assetPoolDeposits : Addr → String → Except StdError (List PoolDeposit)
  totalStaked : Addr → String → Except StdError Nat
  accruedInterest : Addr → String → Except StdError Nat

/-- `SECONDS_PER_DAY`. -/
def secondsPerDay : Nat := 86400

structure UserDiscountResponse where
  user : String
  discount : Decimal
  deriving DecidableEq, Repr

/-- Whether a deposit has been in the network for the minimum time. -/
def countsDeposit (config : Config) (currentBlockTime : Nat) (deposit : PoolDeposit) :
    Outcome StdError Bool := do
  let timeInNetwork ← subUint currentBlockTime deposit.depositTime
  let minimum ← Uint64.mul config.minimumTimeInNetwork secondsPerDay
  pure (decide (minimum < timeInNetwork))

def getSpValue (deps : Deps) (config : Config) (currentBlockTime : Nat) (user : String) :
    Outcome StdError Decimal := do
  let deposits ← Outcome.ofExcept (deps.assetPoolDeposits config.stabilityPoolContract user)
  let userDeposits ← deposits.filterM (countsDeposit config currentBlockTime)
  Decimal.sum (userDeposits.map PoolDeposit.amount)

def getStakedMBRNValue (deps : Deps) (config : Config) (user : String)
    (mbrnPriceRes : PriceResponse) : Outcome StdError Decimal := do
  let totalStaked ← Outcome.ofExcept (deps.totalStaked config.stakingContract user)
  let accruedInterest ← Outcome.ofExcept (deps.accruedInterest config.stakingContract user)
  let userStake ← Uint128.add totalStaked accruedInterest
  mbrnPriceRes.getValue userStake

/-- The price of the debt token: from the raw storage of the position contract, or else
    from its query. -/
def creditPrice (deps : Deps) (config : Config) : Outcome StdError PriceResponse :=
  match deps.rawBasket config.positionsContract with
  | .ok price => pure price
  | .error _ => Outcome.ofExcept (deps.getBasket config.positionsContract)

/-- The price of MBRN, that of the debt token when the oracle fails. -/
def mbrnPrice (deps : Deps) (config : Config) (creditPrice : PriceResponse) :
    Outcome StdError PriceResponse :=
  match deps.oraclePrice config.oracleContract (.nativeToken config.mbrnDenom) 60 600 with
  | .ok prices => Outcome.index prices 0
  | .error _ => pure creditPrice

def getUserValueInNetwork (deps : Deps) (env : Env) (config : Config) (user : String) :
    Outcome StdError Decimal := do
  let creditPrice ← creditPrice deps config
  let mbrnPriceRes ← mbrnPrice deps config creditPrice
  let total ← Decimal.add Decimal.zero (← getSpValue deps config env.blockTime user)
  Decimal.add total (← getStakedMBRNValue deps config user mbrnPriceRes)

def getDiscount (deps : Deps) (env : Env) (config : Config) (user : String) :
    Outcome StdError UserDiscountResponse := do
  let userValueInNetwork ← getUserValueInNetwork deps env config user
  let userPositions ← Outcome.ofExcept (deps.getBasketPositions config.positionsContract user)
  let positions ← Outcome.index userPositions 0
  let outstanding ← Uint128.sum (positions.map Position.creditAmount)
  let userOutstandingDebt ← Decimal.fromRatio outstanding 1
  let percentDiscount ←
    (if userOutstandingDebt ≤ userValueInNetwork then pure Decimal.one
    else decimalDivision userValueInNetwork userOutstandingDebt)
  pure ⟨user, percentDiscount⟩

/-! ## Reading an answer -/

/-- The JSON value that a discounts contract answers with: the string of a decimal, or
    the object of a response. -/
inductive Answer where
  | decimal (discount : Decimal)
  | userDiscount (response : UserDiscountResponse)
  deriving DecidableEq, Repr

/-- `UserDiscount` of `query`: a query that aborts is an error to who asks. -/
def query (deps : Deps) (env : Env) (config : Config) (user : String) : Except StdError Answer :=
  match getDiscount deps env config user with
  | .ok response => .ok (.userDiscount response)
  | .error (.err error) => .error error
  | .error .panic => .error (.genericErr "Querier contract error: aborted")

/-- An answer read as a `Decimal`, which is a string in JSON: an object is no decimal. -/
def readDecimal : Except StdError Answer → Except StdError Decimal
  | .ok (.decimal discount) => .ok discount
  | .ok (.userDiscount _) => .error (.genericErr
      "Error parsing into type cosmwasm_std::math::decimal::Decimal: invalid type: map")
  | .error error => .error error

/-- The discount that an answer says, whatever its form. -/
def Answer.discount : Answer → Decimal
  | .decimal discount => discount
  | .userDiscount response => response.discount

end Membrane.Discounts
