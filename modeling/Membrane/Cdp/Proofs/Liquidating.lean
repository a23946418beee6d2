import Membrane.Cdp.Proofs.Books
import Membrane.Cdp.Proofs.Collateral
import Membrane.Lib.Traverse

/-!
# What a liquidation writes and asks for

The fees of a liquidation are taken off the position's collateral in a loop that
also asks the liquidation queue for repayments. The position itself is written
only when its owner repays all of it; otherwise the writes are left to the calls
that the liquidation sets off, and all it stores is the propagation for them.
-/

namespace Membrane.Cdp

open Outcome

/-! ## The fulfilment loop -/

def lqAsk (basket : Basket) (queue : Addr) (price : PriceResponse) (amount : Nat)
    (kind : AssetInfo) : SubMsg OutMsg :=
  SubMsg.replyOnSuccess (.execute queue (.lqLiquidate basket.creditPrice price amount kind) [])
    liqQueueReplyId

def IsAsk (basket : Basket) (sub : SubMsg OutMsg) : Prop :=
  ∃ queue price amount kind, basket.liqQueue = some queue ∧
    sub = lqAsk basket queue price amount kind

/-- What the loop has done after some of the collateral: fees were taken off, and
    the queue was asked. -/
structure Fulfilled (f : Fulfillment) (collateral : List CAsset) (before : List (SubMsg OutMsg))
    (loop : FulfillmentLoop) : Prop where
  kinds : loop.collateralAssets.map (·.asset.info) = collateral.map (·.asset.info)
  fees : ∀ info, amountOf info (collateralHeld loop.collateralAssets) +
    (coinsOf info loop.callerCoins + coinsOf info loop.protocolCoins) =
      amountOf info (collateralHeld collateral)
  asks : ∃ asks, loop.submessages = before ++ asks ∧
    asks.length = loop.perAssetRepayment.length ∧ ∀ sub ∈ asks, IsAsk f.basket sub
  bound : loop.leftoverRepayment ≤ f.fnRepayment
  idle : f.fnRepayment = 0 → loop.perAssetRepayment = []

section Loop

variable {deps : Deps} {f : Fulfillment} {collateral : List CAsset}
  {before : List (SubMsg OutMsg)} {loop loop' : FulfillmentLoop}

theorem takeFees_fulfilled {cAsset : CAsset} {index : Nat}
    (found : collateral[index]? = some cAsset)
    (done : Fulfilled f collateral before loop)
    (fees : takeFees f loop cAsset index = .ok loop') :
    Fulfilled f collateral before loop' ∧ loop'.leftoverRepayment = loop.leftoverRepayment := by
  simp only [takeFees, bind_eq_ok] at fees
  obtain ⟨_, _, _, _, _, _, _, _, callerFee, _, _, _, _, _, mid, hcaller, protocolFee, _, last,
    hprotocol, _, _, _, _, _, _, hrest⟩ := fees
  obtain ⟨held, hheld, hmid⟩ := takeAmount_spec hcaller
  obtain ⟨held', hheld', hlast⟩ := takeAmount_spec hprotocol
  -- the asset at the index is of the kind that the coins name
  have hkind : ∀ {assets : List CAsset} {a : CAsset}, assets[index]? = some a →
      assets.map (·.asset.info) = collateral.map (·.asset.info) →
        a.asset.info = cAsset.asset.info := by
    intro assets a ha hsame
    have hmap := congrArg (·[index]?) hsame
    simpa [List.getElem?_map, ha, found] using hmap
  have hinfo := hkind hheld done.kinds
  have hinfo' := hkind hheld' (hmid.kinds.trans done.kinds)
  split at hrest
  case h_1 => simp at hrest
  case h_2 denom hdenom =>
    obtain rfl := pure_eq_ok.mp hrest
    refine ⟨⟨hlast.kinds.trans (hmid.kinds.trans done.kinds), fun info => ?_, done.asks, done.bound,
      done.idle⟩, rfl⟩
    have hfees := done.fees info
    have hcallerAmounts := hmid.amounts info
    have hprotocolAmounts := hlast.amounts info
    rw [hinfo, hdenom] at hcallerAmounts
    rw [hinfo', hdenom] at hprotocolAmounts
    simp only [coinsOf_append, coinsOf_singleton]
    omega

theorem askLiqQueue_fulfilled {liqQueue : Addr} {cAsset : CAsset} {index : Nat}
    (queue : f.basket.liqQueue = some liqQueue) (left : 0 < loop.leftoverRepayment)
    (done : Fulfilled f collateral before loop)
    (asked : askLiqQueue deps f liqQueue loop cAsset index = .ok loop') :
    Fulfilled f collateral before loop' := by
  simp only [askLiqQueue, bind_eq_ok] at asked
  obtain ⟨_, _, price, _, _, _, _, _, _, _, hrest⟩ := asked
  split at hrest
  case h_1 =>
    obtain rfl := pure_eq_ok.mp hrest
    exact done
  case h_2 =>
    simp only [bind_eq_ok] at hrest
    obtain ⟨_, _, paid, _, hrest⟩ := hrest
    split at hrest
    case isTrue =>
      obtain rfl := pure_eq_ok.mp hrest
      exact done
    case isFalse =>
      simp only [bind_eq_ok] at hrest
      obtain ⟨_, _, hrest⟩ := hrest
      split at hrest
      case isTrue =>
        obtain rfl := pure_eq_ok.mp hrest
        exact done
      case isFalse =>
        simp only [bind_eq_ok, ofOption_eq_ok, Uint128.checkedSub_eq_some, pure_eq_ok] at hrest
        obtain ⟨_, _, _, _, leftover, ⟨hle, rfl⟩, _, _, _, _, rfl⟩ := hrest
        obtain ⟨asks, hasks, hlength, hall⟩ := done.asks
        refine ⟨done.kinds, done.fees,
          ⟨asks ++ [lqAsk f.basket liqQueue price paid cAsset.asset.info], ?_, ?_, ?_⟩, ?_, ?_⟩
        · rw [hasks, List.append_assoc]
          rfl
        · simp [hlength]
        · intro sub hmem
          rcases List.mem_append.mp hmem with hold | hnew
          · exact hall sub hold
          · rw [List.mem_singleton.mp hnew]
            exact ⟨liqQueue, _, _, _, queue, rfl⟩
        · have := done.bound
          simp only
          omega
        · intro hzero
          have := done.bound
          omega

theorem fulfillAsset_fulfilled {entry : CAsset × Nat} (mem : entry ∈ collateral.zipIdx)
    (done : Fulfilled f collateral before loop)
    (step : fulfillAsset deps f loop entry = .ok loop') : Fulfilled f collateral before loop' := by
  simp only [fulfillAsset, bind_eq_ok] at step
  obtain ⟨_, _, _, _, mid, hfees, hrest⟩ := step
  have found : collateral[entry.2]? = some entry.1 := List.mem_zipIdx_iff_getElem?.mp mem
  obtain ⟨hmid, -⟩ := takeFees_fulfilled found done hfees
  split at hrest
  case h_1 liqQueue hqueue =>
    split at hrest
    case isTrue left => exact askLiqQueue_fulfilled hqueue left hmid hrest
    case isFalse =>
      obtain rfl := pure_eq_ok.mp hrest
      exact hmid
  case h_2 =>
    obtain rfl := pure_eq_ok.mp hrest
    exact hmid

theorem perAssetFulfillments_spec {leftoverPositionValue : Decimal}
    (done : perAssetFulfillments deps f collateral leftoverPositionValue before = .ok loop) :
    Fulfilled f collateral before loop := by
  refine foldlM_keeps_mem (Fulfilled f collateral before) _ _ _
    (fun _ _ _ mem hinv hstep => fulfillAsset_fulfilled mem hinv hstep) ?_ done
  exact ⟨rfl, by simp, ⟨[], by simp⟩, Nat.le_refl _, fun _ => rfl⟩

end Loop

/-! ## The fees -/

/-- What the fees of a liquidation are worked out from: the shares of the caller and of
    the protocol, the value that is repaid, and the collateral's ratios and prices. -/
structure FeeTerms where
  callerFee : Decimal
  liqFee : Decimal
  value : Decimal
  ratios : List Decimal
  prices : List PriceResponse

def FeeTerms.fees (terms : FeeTerms) (index : Nat) : Outcome StdError (Nat × Nat) := do
  let ratio ← Outcome.index terms.ratios index
  let collateralPrice ← Outcome.index terms.prices index
  let amount ← collateralPrice.getAmount (← decimalMultiplication terms.value ratio)
  let callerFee ← Decimal.mulUint amount terms.callerFee
  let protocolFee ← Decimal.mulUint amount terms.liqFee
  pure (callerFee, protocolFee)

def FeeTerms.feesAt (terms : FeeTerms) (index : Nat) : Nat × Nat :=
  (terms.fees index).getD (0, 0)

def Fulfillment.terms (f : Fulfillment) : FeeTerms :=
  ⟨f.callerFee, f.config.liqFee, f.preUserRepayRepayValue, f.cAssetRatios, f.cAssetPrices⟩

structure FeeCoins (terms : FeeTerms) (indices : List Nat) (caller protocol : List Coin) :
    Prop where
  caller : caller.map (·.amount) = indices.map fun index => (terms.feesAt index).1
  protocol : protocol.map (·.amount) = indices.map fun index => (terms.feesAt index).2

section Loop

variable {deps : Deps} {f : Fulfillment} {loop loop' : FulfillmentLoop}

theorem takeFees_coins {cAsset : CAsset} {index : Nat}
    (done : takeFees f loop cAsset index = .ok loop') :
    loop'.callerCoins.map (·.amount) =
        loop.callerCoins.map (·.amount) ++ [(f.terms.feesAt index).1] ∧
      loop'.protocolCoins.map (·.amount) =
        loop.protocolCoins.map (·.amount) ++ [(f.terms.feesAt index).2] := by
  simp only [takeFees, bind_eq_ok] at done
  obtain ⟨ratio, hratio, price, hprice, share, hshare, amount, hamount, callerFee, hcaller,
    _, _, _, _,
    _, _, protocolFee, hprotocol, _, _, _, _, _, _, _, _, hrest⟩ := done
  have hfees : f.terms.fees index = .ok (callerFee, protocolFee) := by
    simp only [FeeTerms.fees, Fulfillment.terms, bind_eq_ok, pure_eq_ok]
    exact ⟨ratio, hratio, price, hprice, share, hshare, amount, hamount, callerFee, hcaller,
      protocolFee, hprotocol, rfl⟩
  split at hrest
  case h_1 => simp at hrest
  case h_2 =>
    obtain rfl := pure_eq_ok.mp hrest
    simp [FeeTerms.feesAt, hfees, Outcome.getD]

theorem askLiqQueue_coins {liqQueue : Addr} {cAsset : CAsset} {index : Nat}
    (done : askLiqQueue deps f liqQueue loop cAsset index = .ok loop') :
    loop'.callerCoins = loop.callerCoins ∧ loop'.protocolCoins = loop.protocolCoins := by
  simp only [askLiqQueue, bind_eq_ok] at done
  obtain ⟨_, _, _, _, _, _, _, _, _, _, hrest⟩ := done
  split at hrest
  case h_1 =>
    obtain rfl := pure_eq_ok.mp hrest
    exact ⟨rfl, rfl⟩
  case h_2 =>
    simp only [bind_eq_ok] at hrest
    obtain ⟨_, _, _, _, hrest⟩ := hrest
    split at hrest
    case isTrue =>
      obtain rfl := pure_eq_ok.mp hrest
      exact ⟨rfl, rfl⟩
    case isFalse =>
      simp only [bind_eq_ok] at hrest
      obtain ⟨_, _, hrest⟩ := hrest
      split at hrest
      case isTrue =>
        obtain rfl := pure_eq_ok.mp hrest
        exact ⟨rfl, rfl⟩
      case isFalse =>
        simp only [bind_eq_ok, pure_eq_ok] at hrest
        obtain ⟨_, _, _, _, _, _, _, _, _, _, rfl⟩ := hrest
        exact ⟨rfl, rfl⟩

theorem fulfillAsset_coins {entry : CAsset × Nat}
    (done : fulfillAsset deps f loop entry = .ok loop') :
    loop'.callerCoins.map (·.amount) =
        loop.callerCoins.map (·.amount) ++ [(f.terms.feesAt entry.2).1] ∧
      loop'.protocolCoins.map (·.amount) =
        loop.protocolCoins.map (·.amount) ++ [(f.terms.feesAt entry.2).2] := by
  simp only [fulfillAsset, bind_eq_ok] at done
  obtain ⟨_, _, _, _, mid, hfees, hrest⟩ := done
  rw [← (takeFees_coins hfees).1, ← (takeFees_coins hfees).2]
  split at hrest
  case h_1 =>
    split at hrest
    case isTrue =>
      obtain ⟨hcaller, hprotocol⟩ := askLiqQueue_coins hrest
      rw [hcaller, hprotocol]
      exact ⟨rfl, rfl⟩
    case isFalse =>
      obtain rfl := pure_eq_ok.mp hrest
      exact ⟨rfl, rfl⟩
  case h_2 =>
    obtain rfl := pure_eq_ok.mp hrest
    exact ⟨rfl, rfl⟩

theorem perAssetFulfillments_coins {collateral : List CAsset} {leftoverPositionValue : Decimal}
    {before : List (SubMsg OutMsg)}
    (done : perAssetFulfillments deps f collateral leftoverPositionValue before = .ok loop) :
    FeeCoins f.terms (collateral.zipIdx.map Prod.snd) loop.callerCoins loop.protocolCoins := by
  have hcaller := foldlM_appends (fun loop : FulfillmentLoop => loop.callerCoins.map (·.amount))
    (fun entry : CAsset × Nat => (f.terms.feesAt entry.2).1)
    (fun _ _ _ hstep => (fulfillAsset_coins hstep).1) _ _ _ done
  have hprotocol := foldlM_appends (fun loop : FulfillmentLoop => loop.protocolCoins.map (·.amount))
    (fun entry : CAsset × Nat => (f.terms.feesAt entry.2).2)
    (fun _ _ _ hstep => (fulfillAsset_coins hstep).2) _ _ _ done
  refine ⟨?_, ?_⟩
  · rw [List.map_map]
    exact hcaller
  · rw [List.map_map]
    exact hprotocol

end Loop

/-! ## The owner's part -/

def ownerDeposits (deps : Deps) (config : Config) (positionOwner : String) : List Decimal :=
  match config.stabilityPool with
  | none => []
  | some pool =>
    match deps.stabilityPoolAsset pool (some positionOwner) with
    | .ok answer => answer.deposits
    | .error _ => []

def poolRepay (pool : Addr) (basket : Basket) (positionId : Nat) (positionOwner : String)
    (amount : Nat) : SubMsg OutMsg :=
  SubMsg.new (.execute pool
    (.spRepay ⟨positionId, positionOwner⟩ ⟨basket.creditAsset.info, amount⟩) [])

/-- What the owner is to repay of `due`, from deposits of `total`. -/
inductive OwnerPart (config : Config) (basket : Basket) (positionId : Nat) (positionOwner : String)
    (due total : Decimal) (paid left : Decimal) (msgs : List (SubMsg OutMsg)) : Prop
  | nothing (empty : total.atomics = 0) (unpaid : paid = Decimal.zero) (all : left = due)
      (none : msgs = [])
  | repays (pool : Addr) (set : config.stabilityPool = some pool) (positive : 0 < total.atomics)
      (smaller : paid = if due < total then due else total)
      (rest : left.atomics + paid.atomics = due.atomics)
      (one : msgs = [poolRepay pool basket positionId positionOwner paid.toUintFloor])

theorem getUserRepayAmount_spec {deps : Deps} {config : Config} {basket : Basket} {positionId : Nat}
    {positionOwner : String} {due paid left : Decimal} {msgs : List (SubMsg OutMsg)}
    (done : getUserRepayAmount deps config basket positionId positionOwner due =
      .ok (paid, left, msgs)) :
    ∃ total, (Decimal.sum (ownerDeposits deps config positionOwner) : Outcome StdError Decimal) =
      .ok total ∧ OwnerPart config basket positionId positionOwner due total paid left msgs := by
  unfold getUserRepayAmount at done
  split at done
  case h_1 hnone =>
    obtain ⟨rfl, rfl, rfl⟩ := by simpa only [pure_eq_ok, Prod.mk.injEq] using done
    exact ⟨Decimal.zero, by simp [ownerDeposits, hnone, Decimal.sum], .nothing rfl rfl rfl rfl⟩
  case h_2 pool hpool =>
    simp only [bind_eq_ok] at done
    obtain ⟨total, hsum, hrest⟩ := done
    refine ⟨total, by rw [ownerDeposits, hpool]; exact hsum, ?_⟩
    split at hrest
    case isTrue hzero =>
      obtain ⟨rfl, rfl, rfl⟩ := by simpa only [pure_eq_ok, Prod.mk.injEq] using hrest
      exact .nothing (by simpa [Decimal.isZero] using hzero) rfl rfl rfl
    case isFalse hnonzero =>
      simp only [bind_eq_ok, decimalSubtraction_eq_ok, pure_eq_ok, Prod.mk.injEq] at hrest
      obtain ⟨left, ⟨hle, rfl⟩, rfl, rfl, rfl⟩ := hrest
      refine .repays pool hpool ?_ rfl (Nat.sub_add_cancel hle) rfl
      rw [Bool.not_eq_true, Decimal.isZero, beq_eq_false_iff_ne] at hnonzero
      exact Nat.pos_of_ne_zero hnonzero

/-! ## Liquidation -/

def repaymentDue (deps : Deps) (env : Env) (s : State) (position : Position) :
    Result (Decimal × Decimal) := do
  let ((_, currentLTV, _), avg) ← liftStd (insolvencyCheck deps env s.config s.prices s.basket
    position.collateralAssets position.creditAmount s.basket.creditPrice false)
  getRepayQuantities s.config s.basket position currentLTV avg.avgBorrowLTV avg.totalValue

def feeTerms (deps : Deps) (env : Env) (s : State) (position : Position) : Result FeeTerms := do
  let ((_, currentLTV, _), avg) ← liftStd (insolvencyCheck deps env s.config s.prices s.basket
    position.collateralAssets position.creditAmount s.basket.creditPrice false)
  let (value, _) ←
    getRepayQuantities s.config s.basket position currentLTV avg.avgBorrowLTV avg.totalValue
  let callerFee ← liftStd (decimalSubtraction currentLTV avg.avgMaxLTV)
  pure ⟨callerFee, s.config.liqFee, value, avg.cAssetRatios, avg.cAssetPrices⟩

def collateralIndices (position : Position) : List Nat :=
  position.collateralAssets.zipIdx.map Prod.snd

theorem getRepayQuantities_spec {config : Config} {basket : Basket} {target : Position}
    {currentLTV borrowLTV totalValue value due : Decimal}
    (done : getRepayQuantities config basket target currentLTV borrowLTV totalValue =
      .ok (value, due)) :
    ∃ amount, 0 < amount ∧ amount ≤ target.creditAmount ∧ due = ⟨amount * Decimal.fractional⟩ := by
  simp only [getRepayQuantities, bind_eq_ok, liftStd_eq_ok, guardErr_eq_ok, pure_eq_ok,
    Prod.mk.injEq] at done
  obtain ⟨_, _, _, _, amount, _, _, hpositive, _, hbound, _, hdue, rfl, rfl⟩ := done
  exact ⟨amount, Nat.pos_of_ne_zero hpositive, Nat.not_lt.mp hbound, Decimal.fromRatio_one hdue⟩

def poolAsk (pool : Addr) (amount : Decimal) : SubMsg OutMsg :=
  SubMsg.new (.execute pool (.spLiquidate amount) [])

theorem stabilityPoolPart_spec {deps : Deps} {config : Config} {basket : Basket}
    {leftoverRepayment leftoverValue asked fee : Decimal} {msgs : List (SubMsg OutMsg)}
    (done : stabilityPoolPart deps config basket leftoverRepayment leftoverValue =
      .ok (asked, fee, msgs)) :
    (leftoverRepayment.isZero = true → asked = Decimal.zero) ∧
      (asked ≤ Decimal.one ∧ msgs = [] ∨ Decimal.one < asked ∧
        ∃ pool, config.stabilityPool = some pool ∧ msgs = [poolAsk pool asked]) := by
  unfold stabilityPoolPart at done
  split at done
  case h_1 pool hpool =>
    split at done
    case isTrue =>
      obtain ⟨rfl, rfl, rfl⟩ := by simpa only [pure_eq_ok, Prod.mk.injEq] using done
      exact ⟨fun _ => rfl, .inl ⟨Nat.zero_le _, rfl⟩⟩
    case isFalse hleft =>
      refine ⟨fun h => absurd h hleft, ?_⟩
      simp only [askStabilityPool, bind_eq_ok, liftStd_eq_ok, pure_eq_ok, Prod.mk.injEq] at done
      obtain ⟨_, _, _, _, _, _, _, _, _, _, hasked, -, rfl⟩ := done
      rw [hasked]
      by_cases hmore : Decimal.one < asked
      · exact .inr ⟨hmore, pool, hpool, if_pos hmore⟩
      · exact .inl ⟨Nat.not_lt.mp hmore, if_neg hmore⟩
  case h_2 =>
    obtain ⟨rfl, rfl, rfl⟩ := by simpa only [pure_eq_ok, Prod.mk.injEq] using done
    exact ⟨fun _ => rfl, .inl ⟨Nat.zero_le _, rfl⟩⟩

/-- Whether the owner's deposits in the stability pool cover what a liquidation sets
    out to repay. -/
def OwnerCovers (deps : Deps) (env : Env) (s : State) (position : Position)
    (positionOwner : String) : Prop :=
  ∃ value due total, repaymentDue deps env s position = .ok (value, due) ∧
    (Decimal.sum (ownerDeposits deps s.config positionOwner) : Outcome StdError Decimal) =
      .ok total ∧ due ≤ total

/-- The write of a liquidation of `position`: it is left to the calls that the
    liquidation sets off, or settled at once, as `target`, when the owner covers it. -/
inductive LiquidationWrite (covers : Prop) (s s' : State) (owner : Addr)
    (position target : Position)
    (due : Nat) : Prop
  | deferred (uncovered : ¬ covers) (same : s' = { s with liquidation := s'.liquidation })
      (credit : target.creditAmount = position.creditAmount)
  | settled (covered : covers) (write : Replaced s.positions s'.positions owner position target)
      (books : SameBooks s.basket s'.basket)
      (credit : target.creditAmount + due = position.creditAmount)

structure LiquidationMsgs where
  /-- The call that has the pool repay for the owner, if any. -/
  owing : List (SubMsg OutMsg)
  /-- The calls of the queue. -/
  asks : List (SubMsg OutMsg)
  /-- The call of the pool, if any. -/
  pool : List (SubMsg OutMsg)
  callerCoins : List Coin
  protocolCoins : List Coin

/-- The last messages of a liquidation: the callback and the fees. -/
def LiquidationMsgs.closing (msgs : LiquidationMsgs) (env : Env) (caller : Addr) (config : Config)
    (positionId : Nat) (owner : Addr) : List (SubMsg OutMsg) :=
  [SubMsg.replyOnError (.execute env.contractAddress (.badDebtCheck positionId owner) [])
    badDebtReplyId, SubMsg.new (.bankSend caller msgs.callerCoins),
    SubMsg.new (.execute (addrOr config.stakingContract) .depositFee msgs.protocolCoins)]

section

variable {deps : Deps} {env : Env} {s : State} {position : Position} {positionId amount : Nat}
  {positionOwner : String} {value total paid left : Decimal} {owing : List (SubMsg OutMsg)}

theorem OwnerPart.covers_iff
    (part : OwnerPart s.config s.basket positionId positionOwner ⟨amount * Decimal.fractional⟩ total
      paid left owing)
    (due : repaymentDue deps env s position = .ok (value, ⟨amount * Decimal.fractional⟩))
    (deposits : (Decimal.sum (ownerDeposits deps s.config positionOwner) :
      Outcome StdError Decimal) = .ok total) (positive : 0 < amount) :
    OwnerCovers deps env s position positionOwner ↔ paid = ⟨amount * Decimal.fractional⟩ := by
  have hdue : 0 < amount * Decimal.fractional := Nat.mul_pos positive (by decide)
  have hcovers : OwnerCovers deps env s position positionOwner ↔
      amount * Decimal.fractional ≤ total.atomics := by
    refine ⟨?_, fun hle => ⟨value, _, total, due, deposits, hle⟩⟩
    rintro ⟨value', due', total', hdue', hsum, hle⟩
    obtain ⟨-, rfl⟩ := Prod.mk.inj (Except.ok.inj (due.symm.trans hdue'))
    obtain rfl := Except.ok.inj (deposits.symm.trans hsum)
    exact hle
  rw [hcovers]
  cases part with
  | nothing empty unpaid =>
    rw [unpaid, empty]
    refine ⟨fun h => by omega, fun h => ?_⟩
    have := congrArg Decimal.atomics h
    simp only [Decimal.zero] at this
    omega
  | repays _ _ _ smaller =>
    rw [smaller]
    constructor
    · intro hle
      split
      case isTrue => rfl
      case isFalse h =>
        have hge : total.atomics ≤ amount * Decimal.fractional := Nat.not_lt.mp h
        cases total
        simp only [Decimal.mk.injEq] at hge hle ⊢
        omega
    · intro heq
      split at heq
      case isTrue h => exact Nat.le_of_lt h
      case isFalse => rw [heq]

theorem OwnerPart.msgs
    (part : OwnerPart s.config s.basket positionId positionOwner ⟨amount * Decimal.fractional⟩ total
      paid left owing) {covers : Prop} (when : covers ↔ paid = ⟨amount * Decimal.fractional⟩) :
    (owing = [] ∨ ∃ address asked, s.config.stabilityPool = some address ∧
      owing = [poolRepay address s.basket positionId positionOwner asked] ∧
      (covers ∨ asked < amount)) ∧ (covers → 0 < amount → owing ≠ []) := by
  cases part with
  | nothing _ unpaid _ none =>
    refine ⟨.inl none, fun hcovers positive => ?_⟩
    have hdue : 0 < amount * Decimal.fractional := Nat.mul_pos positive (by decide)
    have := congrArg Decimal.atomics (unpaid.symm.trans (when.mp hcovers))
    simp only [Decimal.zero] at this
    omega
  | repays address set _ smaller _ one =>
    refine ⟨.inr ⟨address, _, set, one, ?_⟩, fun _ _ => by simp [one]⟩
    by_cases hless : (⟨amount * Decimal.fractional⟩ : Decimal) < total
    · rw [if_pos hless] at smaller
      exact .inl (when.mpr smaller)
    · rw [if_neg hless] at smaller
      by_cases hall : total = ⟨amount * Decimal.fractional⟩
      · exact .inl (when.mpr (smaller.trans hall))
      · refine .inr (Nat.div_lt_of_lt_mul ?_)
        have hle : total.atomics ≤ amount * Decimal.fractional := Nat.not_lt.mp hless
        rw [smaller, Nat.mul_comm]
        refine lt_of_le_of_ne hle fun heq => hall ?_
        cases total
        exact congrArg Decimal.mk heq

theorem OwnerPart.left_zero
    (part : OwnerPart s.config s.basket positionId positionOwner ⟨amount * Decimal.fractional⟩ total
      paid left owing) (positive : 0 < amount)
    (all : paid = ⟨amount * Decimal.fractional⟩) : left.toUintFloor = 0 := by
  cases part with
  | nothing _ unpaid =>
    have hdue : 0 < amount * Decimal.fractional := Nat.mul_pos positive (by decide)
    have := congrArg Decimal.atomics (unpaid.symm.trans all)
    simp only [Decimal.zero] at this
    omega
  | repays _ _ _ _ rest =>
    rw [all] at rest
    have hzero : left.atomics = 0 := by simpa using rest
    simp [Decimal.toUintFloor, hzero]

end

/-- What a liquidation of `position` did: its messages, its write, and what it
    stored for the calls it sets off. -/
structure Liquidated (deps : Deps) (env : Env) (caller : Addr) (s s' : State) (positionId : Nat)
    (positionOwner : String) (position : Position) (prop : LiquidationPropagation) (due : Nat)
    (msgs : LiquidationMsgs) (response : Response OutMsg) : Prop where
  owner : deps.addrValidate positionOwner = .ok prop.positionOwner
  target : ∃ i, getTargetPosition s prop.positionOwner positionId = .ok (i, position)
  positive : 0 < due
  bound : due ≤ position.creditAmount
  messages : response.messages = msgs.owing ++ msgs.asks ++ msgs.pool ++
    msgs.closing env caller s.config positionId prop.positionOwner
  owing : msgs.owing = [] ∨ ∃ address amount, s.config.stabilityPool = some address ∧
    msgs.owing = [poolRepay address s.basket positionId positionOwner amount] ∧
    (OwnerCovers deps env s position positionOwner ∨ amount < due)
  asks : msgs.asks.length = prop.perAssetRepayment.length ∧ ∀ sub ∈ msgs.asks, IsAsk s.basket sub
  pool : prop.stabilityPool ≤ Decimal.one ∧ msgs.pool = [] ∨ Decimal.one < prop.stabilityPool ∧
    ∃ address, s.config.stabilityPool = some address ∧
      msgs.pool = [poolAsk address prop.stabilityPool]
  covered : OwnerCovers deps env s position positionOwner →
    msgs.owing ≠ [] ∧ msgs.asks = [] ∧ msgs.pool = []
  positionId : prop.targetPosition.positionId = position.positionId
  kinds : collateralKinds prop.targetPosition = collateralKinds position
  fees : ∀ info, amountOf info prop.targetPosition.held +
    (coinsOf info msgs.callerCoins + coinsOf info msgs.protocolCoins) = amountOf info position.held
  feeCoins : ∃ terms, feeTerms deps env s position = .ok terms ∧
    FeeCoins terms (collateralIndices position) msgs.callerCoins msgs.protocolCoins
  write : LiquidationWrite (OwnerCovers deps env s position positionOwner) s s' prop.positionOwner
    position prop.targetPosition due
  config : s'.config = s.config
  propConfig : prop.config = s.config
  propBasket : prop.basket = s'.basket

theorem settleUserRepayment_spec {deps : Deps} {env : Env} {s s' : State} {owner : Addr}
    {position target target' : Position} {liquidatedAssets : List CAsset} {positionId due i : Nat}
    (sound : s.Sound) (found : getTargetPosition s owner positionId = .ok (i, position))
    (same : target.positionId = position.positionId)
    (done : settleUserRepayment deps env s owner target liquidatedAssets due = .ok (s', target')) :
    due ≤ target.creditAmount ∧
      target' = { target with creditAmount := target.creditAmount - due } ∧
      Replaced s.positions s'.positions owner position target' ∧ SameBooks s.basket s'.basket ∧
      s'.config = s.config := by
  simp only [settleUserRepayment, bind_eq_ok, subUint_eq_ok, liftStd_eq_ok, pure_eq_ok,
    Prod.mk.injEq] at done
  obtain ⟨_, ⟨hle, rfl⟩, ⟨prices, basket⟩, htally, s₁, hupdate, rfl, rfl⟩ := done
  obtain ⟨list, stored, hget, -⟩ := getTargetPosition_spec found
  have hbooks := updateBasketTally_sameBooks htally
  have hsound : SoundIds s.basket.currentPositionId
      ({ s with prices := prices, basket := basket } : State).positions := sound
  have hsame : ({ target with creditAmount := target.creditAmount - due } : Position).positionId =
    position.positionId := same
  obtain ⟨hwrite, hstate⟩ := updatePosition_replaced hsound stored hget hsame hupdate
  refine ⟨hle, rfl, hwrite, ?_, ?_⟩
  · rw [hstate]
    exact hbooks
  · rw [hstate]

theorem Liquidated.inert {deps : Deps} {env : Env} {caller : Addr} {s s' : State} {positionId : Nat}
    {positionOwner : String} {position : Position} {prop : LiquidationPropagation} {due : Nat}
    {msgs : LiquidationMsgs} {response : Response OutMsg}
    (liquidated : Liquidated deps env caller s s' positionId positionOwner position prop due msgs
      response) (denom : String) : minted denom response = 0 ∧ burned denom response = 0 := by
  have hall : ∀ sub ∈ response.messages, mintedBy denom sub.msg = 0 ∧
      burnedBy denom sub.msg = 0 := by
    intro sub hmem
    rw [liquidated.messages] at hmem
    simp only [List.mem_append] at hmem
    rcases hmem with ((howing | hask) | hpool) | hclosing
    · rcases liquidated.owing with hnone | ⟨address, amount, -, hone, -⟩
      · rw [hnone] at howing
        cases howing
      · rw [hone, List.mem_singleton] at howing
        rw [howing]
        exact ⟨rfl, rfl⟩
    · obtain ⟨queue, price, amount, kind, -, rfl⟩ := liquidated.asks.2 sub hask
      exact ⟨rfl, rfl⟩
    · rcases liquidated.pool with ⟨-, hnone⟩ | ⟨-, address, -, hone⟩
      · rw [hnone] at hpool
        cases hpool
      · rw [hone, List.mem_singleton] at hpool
        rw [hpool]
        exact ⟨rfl, rfl⟩
    · simp only [LiquidationMsgs.closing, List.mem_cons, List.not_mem_nil, or_false] at hclosing
      rcases hclosing with rfl | rfl | rfl
      · exact ⟨rfl, rfl⟩
      · exact ⟨rfl, rfl⟩
      · exact ⟨rfl, rfl⟩
  constructor
  · refine List.sum_eq_zero fun amount hmem => ?_
    obtain ⟨sub, hsub, rfl⟩ := List.mem_map.mp hmem
    exact (hall sub hsub).1
  · refine List.sum_eq_zero fun amount hmem => ?_
    obtain ⟨sub, hsub, rfl⟩ := List.mem_map.mp hmem
    exact (hall sub hsub).2

theorem settle_spec {deps : Deps} {env : Env} {s s' : State} {owner : Addr} {covers settles : Prop}
    [Decidable settles] {position target : Position} {collateral liquidatedAssets : List CAsset}
    {positionId due i : Nat} (sound : s.Sound)
    (found : getTargetPosition s owner positionId = .ok (i, position))
    (when : covers ↔ settles)
    (done : (if settles then settleUserRepayment deps env s owner
        { position with collateralAssets := collateral } liquidatedAssets due
      else pure (s, { position with collateralAssets := collateral })) = .ok (s', target)) :
    (∀ prop, LiquidationWrite covers s { s' with liquidation := some prop } owner position target
      due) ∧ s'.config = s.config ∧ target.positionId = position.positionId ∧
      target.collateralAssets = collateral := by
  split at done
  case isTrue hsettles =>
    obtain ⟨hle, rfl, hwrite, hbooks, hconfig⟩ := settleUserRepayment_spec sound found (by rfl) done
    exact ⟨fun _ => .settled (when.mpr hsettles) hwrite hbooks (Nat.sub_add_cancel hle),
      hconfig, rfl,
      rfl⟩
  case isFalse hdeferred =>
    obtain ⟨rfl, rfl⟩ := Prod.mk.inj (pure_eq_ok.mp done)
    exact ⟨fun _ => .deferred (fun h => hdeferred (when.mp h)) rfl rfl, rfl, rfl, rfl⟩

theorem liquidate_spec {deps : Deps} {env : Env} {info : MessageInfo} {positionId : Nat}
    {positionOwner : String} {s s' : State} {response : Response OutMsg} (sound : s.Sound)
    (done : liquidate deps env info positionId positionOwner s = .ok (s', response)) :
    ∃ position due msgs prop, s'.liquidation = some prop ∧
      Liquidated deps env info.sender s s' positionId positionOwner position prop due msgs
        response := by
  simp only [liquidate, bind_eq_ok, pure_eq_ok, liftStd_eq_ok, Prod.mk.injEq] at done
  obtain ⟨_, _, owner, howner, ⟨i, position⟩, htarget, ⟨⟨insolvent, currentLTV, fee⟩, avg⟩,
    hcheck, _,
    _, ⟨value, due⟩, hdue, callerFee, hcallerFee, ⟨paid, left, owing⟩, howing, repayValue, _,
      loop, hloop,
    ⟨s₁, target⟩, hsettle, leftover, hleftover, queueRepayment, _, ⟨asked, poolFee, pool⟩,
      hpool, rfl,
    rfl⟩ := done
  obtain ⟨amount, hpositive, hbound, rfl⟩ := getRepayQuantities_spec hdue
  obtain ⟨total, htotal, howed⟩ := getUserRepayAmount_spec howing
  have hfulfilled := perAssetFulfillments_spec hloop
  obtain ⟨asks, hmsgs, hcount, hasks⟩ := hfulfilled.asks
  have hdueOk : repaymentDue deps env s position = .ok (value, ⟨amount * Decimal.fractional⟩) := by
    simp only [repaymentDue, bind_eq_ok, liftStd_eq_ok]
    exact ⟨_, hcheck, hdue⟩
  -- the deposits cover what is due exactly when the owner's part is all of it
  have hcovers : OwnerCovers deps env s position positionOwner ↔
      paid = ⟨amount * Decimal.fractional⟩ := howed.covers_iff hdueOk htotal hpositive
  have hidle : paid = ⟨amount * Decimal.fractional⟩ →
      loop.leftoverRepayment = 0 ∧ asks = [] ∧ pool = [] := by
    intro hall
    have hleft : left.toUintFloor = 0 := howed.left_zero hpositive hall
    have hzero : loop.leftoverRepayment = 0 := Nat.le_zero.mp (hleft ▸ hfulfilled.bound)
    refine ⟨hzero, ?_, ?_⟩
    · rw [hfulfilled.idle hleft] at hcount
      exact List.length_eq_zero_iff.mp hcount
    · rw [hzero] at hleftover
      obtain rfl := Decimal.fromRatio_one hleftover
      obtain ⟨hnone, hmsgs'⟩ := stabilityPoolPart_spec hpool
      rcases hmsgs' with ⟨-, h⟩ | ⟨h, -⟩
      · exact h
      · rw [hnone rfl] at h
        cases h
  have hkinds : loop.collateralAssets.map (·.asset.info) = collateralKinds position :=
    hfulfilled.kinds
  -- the position as the calls that follow will find it
  obtain ⟨hwrite, hconfig, htargetId, htargetCollateral⟩ := settle_spec sound htarget
    (hcovers.trans ⟨fun hall => ⟨(hidle hall).1, hall⟩, fun h => h.2⟩) hsettle
  refine ⟨position, amount, ⟨owing, asks, pool, loop.callerCoins, loop.protocolCoins⟩, _, rfl, {
    owner := howner
    target := ⟨i, htarget⟩
    positive := hpositive
    bound := hbound
    messages := ?_
    owing := (howed.msgs hcovers).1
    asks := ⟨hcount, hasks⟩
    pool := ?_
    covered := ?_
    positionId := htargetId
    kinds := ?_
    fees := ?_
    feeCoins := ?_
    write := ?_
    config := hconfig
    propConfig := hconfig
    propBasket := rfl }⟩
  · simp [Response.addMessages, Response.addSubmessages, LiquidationMsgs.closing, hmsgs, hconfig,
      List.append_assoc]
  · rw [← hconfig]
    exact (stabilityPoolPart_spec hpool).2
  · intro hcovered
    obtain ⟨-, hasks, hpool⟩ := hidle (hcovers.mp hcovered)
    exact ⟨(howed.msgs hcovers).2 hcovered hpositive, hasks, hpool⟩
  · rw [collateralKinds, htargetCollateral]
    exact hkinds
  · intro info
    rw [Position.held, htargetCollateral]
    exact hfulfilled.fees info
  · refine ⟨⟨callerFee, s.config.liqFee, value, avg.cAssetRatios, avg.cAssetPrices⟩, ?_,
      perAssetFulfillments_coins hloop⟩
    simp only [feeTerms, bind_eq_ok, liftStd_eq_ok, pure_eq_ok]
    exact ⟨_, hcheck, _, hdue, callerFee, hcallerFee, rfl⟩
  · have hwhole := hwrite
    rw [Decimal.toUintFloor_whole] at hwhole
    exact hwhole _

end Membrane.Cdp
