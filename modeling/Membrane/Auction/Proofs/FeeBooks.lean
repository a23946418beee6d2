import Membrane.Auction.Proofs.Sale

/-!
# The fee auctions' books

What has been paid out of each fee asset, and what is still on sale, is at most what was
auctioned of it, in every run whose swaps are fair.
-/

namespace Membrane.Auction

open Outcome

/-- The contract, with what has been auctioned and paid out of each denom. -/
structure FeeBooks where
  state : State
  auctioned : String → Nat
  paid : String → Nat

def Call.auctions (call : Call) (denom : String) : Nat :=
  match call.msg with
  | .startAuction _ _ auctionAsset =>
    if auctionAsset.info.toText = denom then amountIn denom call.info.funds else 0
  | _ => 0

def outflow (denom : String) (response : Response OutMsg) : Nat :=
  amountIn denom (response.messages.flatMap fun sub => coinsOut sub.msg)

/-- What a swap for a fee pays out of a denom: what it sends beyond the coin that came
    with it. -/
def Call.pays (call : Call) (response : Response OutMsg) (denom : String) : Nat :=
  match call.msg with
  | .swapForFee _ => outflow denom response - amountIn denom call.info.funds
  | _ => 0

def FeeBooks.record (l : FeeBooks) (call : Call) (s' : State) (response : Response OutMsg) :
    FeeBooks :=
  ⟨s', fun denom => l.auctioned denom + call.auctions denom,
    fun denom => l.paid denom + call.pays response denom⟩

/-- A successful call and its record. -/
def bookStep (l : FeeBooks) (call : Call) (l' : FeeBooks) : Prop :=
  ∃ s' response, execute call.deps call.env call.info call.msg l.state = .ok (s', response) ∧
    l' = l.record call s' response

/-- The books after a call that succeeds. -/
def FeeBooks.exec (l : FeeBooks) (call : Call) : Option FeeBooks :=
  match execute call.deps call.env call.info call.msg l.state with
  | .ok (s', response) => some (l.record call s' response)
  | .error _ => none

theorem FeeBooks.exec_step {l l' : FeeBooks} {call : Call} (done : l.exec call = some l') :
    bookStep l call l' := by
  unfold exec at done
  split at done
  case h_1 s' response h => exact ⟨s', response, h, (Option.some.inj done).symm⟩
  case h_2 => cases done

/-- A swap for a fee is at a fair quote. -/
def FairCall (l : FeeBooks) (call : Call) : Prop :=
  match call.msg with
  | .swapForFee auctionAsset =>
    match feeQuote call.deps call.env call.info auctionAsset l.state with
    | .ok q => q.Fair
    | .error _ => True
  | _ => True

instance (l : FeeBooks) (call : Call) : Decidable (FairCall l call) := by
  unfold FairCall
  split
  · split <;> infer_instance
  · infer_instance

def onSale (s : State) (denom : String) : Nat :=
  KeyMap.measureAt (fun auction : FeeAuction => auction.auctionAsset.amount) s.feeAuctions denom

/-! ## Coins -/

theorem amountIn_nil (denom : String) : amountIn denom [] = 0 := rfl

theorem amountIn_append (denom : String) (coins coins' : List Coin) :
    amountIn denom (coins ++ coins') = amountIn denom coins + amountIn denom coins' := by
  rw [amountIn, List.map_append, List.sum_append]
  rfl

theorem amountIn_singleton (denom : String) (coin : Coin) :
    amountIn denom [coin] = if coin.denom = denom then coin.amount else 0 := by
  simp [amountIn]

theorem outflow_addMessages (denom : String) (msgs : List (CosmosMsg OutMsg)) :
    outflow denom (Response.addMessages {} msgs) = amountIn denom (msgs.flatMap coinsOut) := by
  simp only [outflow, Response.addMessages, List.nil_append, List.flatMap_map]
  rfl

section

variable {deps : Deps} {env : Env} {info : MessageInfo} {s s' : State} {response : Response OutMsg}

/-! ## A swap for a fee -/

def swapMsgs (config : Config) (sender : Addr) (denom : String) (kept received overpay : Nat) :
    List (CosmosMsg OutMsg) :=
  (if kept = 0 then []
    else if config.sendToStakers then
      [.execute config.stakingContract .depositFee [⟨config.desiredAsset, kept⟩]]
    else [.bankSend config.governanceContract [⟨config.desiredAsset, kept⟩]]) ++
  [.bankSend sender [⟨denom, received⟩]] ++
  (if overpay = 0 then [] else [.bankSend sender [⟨config.desiredAsset, overpay⟩]])

def FeeAuction.leave (auction : FeeAuction) (amount : Nat) : FeeAuction :=
  { auction with auctionAsset := { auction.auctionAsset with amount := amount } }

structure SoldFee (config : Config) (sender : Addr) (coin : Coin) (auction : FeeAuction)
    (q : FeeQuote) (swap : FeeSwap) (key : String) (s s' : State) (response : Response OutMsg) :
    Prop where
  sent : q.sent = coin.amount ∧ coin.denom = config.desiredAsset
  amount : q.onSale = auction.auctionAsset.amount
  settled : Settlement q swap
  stored : s.feeAuctions.lookup key = some auction
  messages : response = Response.addMessages {} (swapMsgs config sender
    auction.auctionAsset.info.toText (coin.amount - swap.overpay) swap.successfulSwapAmount
    swap.overpay)
  left : s' = { s with feeAuctions :=
    if swap.left ≤ 1 then s.feeAuctions.erase key
    else s.feeAuctions.insert key (auction.leave swap.left) }

theorem sentCoin_spec {denom : String} {coin : Coin} (done : sentCoin info denom = .ok coin) :
    info.funds = [coin] ∧ coin.denom = denom := by
  unfold sentCoin at done
  split at done
  case h_1 sent hsent =>
    simp only [liftStd_eq_ok, validateAsset, bind_eq_ok, guardErr_eq_ok, pure_eq_ok] at done
    obtain ⟨_, hdenom, _, -, rfl⟩ := done
    exact ⟨hsent, not_not.mp hdenom⟩
  case h_2 => simp at done

theorem swapForFee_spec {auctionAsset : AssetInfo}
    (done : swapWithTheContractsDesiredAsset deps env info auctionAsset s = .ok (s', response)) :
    ∃ coin auction q swap, info.funds = [coin] ∧ feeQuote deps env info auctionAsset s = .ok q ∧
      q.settle = .ok swap ∧
      SoldFee s.config info.sender coin auction q swap auctionAsset.toText s s' response := by
  simp only [swapWithTheContractsDesiredAsset, bind_eq_ok, pure_eq_ok, subUint_eq_ok,
    Prod.mk.injEq] at done
  obtain ⟨coin, hcoin, auction, hauction, _, hrunning, desired, hdesired, price, hprice, ratio,
    hratio, swap, hswap, kept, ⟨-, rfl⟩, rfl, rfl⟩ := done
  obtain ⟨hfunds, hdenom⟩ := sentCoin_spec hcoin
  have hquote : feeQuote deps env info auctionAsset s =
      .ok ⟨desired, price, ratio, coin.amount, auction.auctionAsset.amount⟩ := by
    simp only [feeQuote, bind_eq_ok, pure_eq_ok]
    exact ⟨coin, hcoin, auction, hauction, _, hrunning, desired, hdesired, price, hprice, ratio,
      hratio, rfl⟩
  have hsettle := liftStd_eq_ok.mp hswap
  refine ⟨coin, auction, _, swap, hfunds, hquote, hsettle, ?_⟩
  exact {
    sent := ⟨rfl, hdenom⟩
    amount := rfl
    settled := settle_spec hsettle
    stored := ofOption_eq_ok.mp hauction
    messages := by
      rw [hdenom]
      rfl
    left := rfl }

theorem SoldFee.pays {config : Config} {coin : Coin} {auction : FeeAuction} {q : FeeQuote}
    {swap : FeeSwap} {key : String}
    (sold : SoldFee config info.sender coin auction q swap key s s' response)
    (funds : info.funds = [coin]) (denom : String) :
    outflow denom response - amountIn denom info.funds =
      if auction.auctionAsset.info.toText = denom then swap.successfulSwapAmount else 0 := by
  have hoverpay : swap.overpay ≤ coin.amount := sold.sent.1 ▸ sold.settled.overpay_le
  have hproceeds : amountIn denom ((if coin.amount - swap.overpay = 0 then []
      else if config.sendToStakers then
        [.execute config.stakingContract .depositFee
          [⟨config.desiredAsset, coin.amount - swap.overpay⟩]]
      else [.bankSend config.governanceContract
        [⟨config.desiredAsset, coin.amount - swap.overpay⟩]] :
        List (CosmosMsg OutMsg)).flatMap coinsOut) =
      if config.desiredAsset = denom then coin.amount - swap.overpay else 0 := by
    split
    case isTrue hnone => simp [amountIn, hnone]
    case isFalse => split <;> simp [amountIn, coinsOut]
  have hrefund : amountIn denom ((if swap.overpay = 0 then []
      else [.bankSend info.sender [⟨config.desiredAsset, swap.overpay⟩]] :
        List (CosmosMsg OutMsg)).flatMap coinsOut) =
      if config.desiredAsset = denom then swap.overpay else 0 := by
    split
    case isTrue hnone => simp [amountIn, hnone]
    case isFalse => simp [amountIn, coinsOut]
  rw [sold.messages, outflow_addMessages, swapMsgs, List.flatMap_append, List.flatMap_append,
    amountIn_append, amountIn_append, hproceeds, hrefund, funds, amountIn_singleton, sold.sent.2]
  simp only [List.flatMap_cons, List.flatMap_nil, List.append_nil, coinsOut, amountIn_singleton]
  split <;> split <;> omega

/-! ## One call -/

def Named (s : State) : Prop :=
  KeyMap.All (fun key auction => auction.auctionAsset.info.toText = key) s.feeAuctions

/-- What has been paid out and what is on sale is at most what was auctioned. -/
structure Conserved (l : FeeBooks) : Prop where
  named : Named l.state
  total : ∀ denom, l.paid denom + onSale l.state denom ≤ l.auctioned denom

theorem onSale_insert (auctions : KeyMap String FeeAuction) (key : String) (auction : FeeAuction)
    (denom : String) :
    KeyMap.measureAt (fun auction : FeeAuction => auction.auctionAsset.amount)
      (auctions.insert key auction) denom =
        if key = denom then auction.auctionAsset.amount
        else KeyMap.measureAt (fun auction : FeeAuction => auction.auctionAsset.amount)
          auctions denom := by
  unfold KeyMap.measureAt
  by_cases h : key = denom
  · rw [h, AList.lookup_insert, if_pos rfl]
    rfl
  · rw [AList.lookup_insert_ne (Ne.symm h), if_neg h]

theorem startAuction_fees {userInfo : Option UserInfo} {sendTo : Option String}
    {auctionAsset : Asset} (named : Named s)
    (done : startAuction deps env info userInfo sendTo auctionAsset s = .ok (s', response)) :
    Named s' ∧ ∀ denom, onSale s' denom = onSale s denom +
      if auctionAsset.info.toText = denom then amountIn denom info.funds else 0 := by
  simp only [startAuction, bind_eq_ok, pure_eq_ok, Prod.mk.injEq] at done
  obtain ⟨_, -, _, hstart, rfl, -⟩ := done
  by_cases hfunds : info.funds = []
  · have hsame : ∀ {s'}, s'.feeAuctions = s.feeAuctions → Named s' ∧
        ∀ denom, onSale s' denom = onSale s denom +
          if auctionAsset.info.toText = denom then amountIn denom info.funds else 0 := by
      intro s' hsame
      refine ⟨?_, fun denom => ?_⟩
      · rw [Named, hsame]
        exact named
      · rw [onSale, hsame, hfunds, amountIn_nil, ite_self]
        rfl
    rw [if_neg (not_not.mpr hfunds)] at hstart
    split at hstart
    · simp only [startDebtAuction, bind_eq_ok, pure_eq_ok] at hstart
      obtain ⟨_, -, _, -, _, -, rfl⟩ := hstart
      exact hsame rfl
    · rw [← pure_eq_ok.mp hstart]
      exact hsame rfl
  · rw [if_pos hfunds] at hstart
    unfold startFeeAuction at hstart
    split at hstart
    case h_2 => simp at hstart
    case h_1 coin hcoin =>
      simp only [bind_eq_ok, pure_eq_ok, liftStd_eq_ok, validateAsset, guardErr_eq_ok] at hstart
      obtain ⟨_, ⟨_, hdenom, _, -, -⟩, auction, hauction, rfl⟩ := hstart
      have hnew : auction.auctionAsset.info.toText = auctionAsset.info.toText ∧
          auction.auctionAsset.amount = onSale s auctionAsset.info.toText + coin.amount := by
        split at hauction
        case h_1 old hold =>
          simp only [bind_eq_ok, pure_eq_ok, Uint128.add_eq_ok] at hauction
          obtain ⟨_, ⟨-, rfl⟩, rfl⟩ := hauction
          rw [onSale, KeyMap.measureAt_of_lookup hold]
          have hname : old.auctionAsset.info.toText = _ := named _ old hold
          exact ⟨hname, rfl⟩
        case h_2 hnone =>
          rw [← pure_eq_ok.mp hauction, onSale, KeyMap.measureAt_of_absent hnone, Nat.zero_add]
          exact ⟨rfl, rfl⟩
      refine ⟨KeyMap.all_insert named hnew.1, fun denom => ?_⟩
      rw [onSale, onSale_insert, hcoin, amountIn_singleton, not_not.mp hdenom, hnew.2]
      by_cases hkey : auctionAsset.info.toText = denom
      · rw [if_pos hkey, if_pos hkey, if_pos hkey, hkey]
      · rw [if_neg hkey, if_neg hkey]
        rfl

theorem SoldFee.conserves {config : Config} {coin : Coin} {auction : FeeAuction} {q : FeeQuote}
    {swap : FeeSwap} {key : String} (named : Named s)
    (sold : SoldFee config info.sender coin auction q swap key s s' response) (fair : q.Fair)
    (denom : String) :
    (if auction.auctionAsset.info.toText = denom then swap.successfulSwapAmount else 0) +
      onSale s' denom ≤ onSale s denom := by
  have hkey : auction.auctionAsset.info.toText = key := named key auction sold.stored
  have hconserves := sold.settled.conserves fair
  rw [sold.amount] at hconserves
  rw [sold.left, hkey]
  by_cases hdenom : key = denom
  · rw [if_pos hdenom, ← hdenom]
    have hold : onSale s key = auction.auctionAsset.amount := KeyMap.measureAt_of_lookup sold.stored
    rw [hold, onSale]
    dsimp only
    split
    · rw [KeyMap.measureAt_of_absent (AList.lookup_erase _ _)]
      omega
    · rw [onSale_insert, if_pos rfl]
      exact hconserves
  · rw [if_neg hdenom, Nat.zero_add, onSale, onSale]
    dsimp only
    split
    · rw [KeyMap.measureAt, AList.lookup_erase_ne (Ne.symm hdenom)]
      exact Nat.le_refl _
    · rw [onSale_insert, if_neg hdenom]

theorem SoldFee.named {config : Config} {coin : Coin} {auction : FeeAuction} {q : FeeQuote}
    {swap : FeeSwap} {key : String} (named : Named s)
    (sold : SoldFee config info.sender coin auction q swap key s s' response) : Named s' := by
  rw [Named, sold.left]
  dsimp only
  split
  · exact KeyMap.all_erase named
  · exact KeyMap.all_insert named (named key auction sold.stored)

end

theorem step_conserved {l l' : FeeBooks} {call : Call} (conserved : Conserved l)
    (fair : FairCall l call) (step : bookStep l call l') : Conserved l' := by
  obtain ⟨s', response, hcall, rfl⟩ := step
  obtain ⟨deps, env, info, msg⟩ := call
  have hsame : (∀ auctionAsset, msg ≠ .swapForFee auctionAsset) →
      (∀ userInfo sendTo auctionAsset, msg ≠ .startAuction userInfo sendTo auctionAsset) →
      s'.feeAuctions = l.state.feeAuctions →
      Conserved (l.record ⟨deps, env, info, msg⟩ s' response) := by
    intro hswap hstart hfees
    refine ⟨?_, fun denom => ?_⟩
    · show Named s'
      rw [Named, hfees]
      exact conserved.named
    · have htotal := conserved.total denom
      have hauctions : Call.auctions ⟨deps, env, info, msg⟩ denom = 0 := by
        cases msg with
        | startAuction => exact absurd rfl (hstart _ _ _)
        | _ => rfl
      have hpays : Call.pays ⟨deps, env, info, msg⟩ response denom = 0 := by
        cases msg with
        | swapForFee => exact absurd rfl (hswap _)
        | _ => rfl
      have hsale : onSale s' denom = onSale l.state denom := by
        rw [onSale, hfees]
        rfl
      show l.paid denom + _ + onSale s' denom ≤ l.auctioned denom + _
      rw [hpays, hauctions, hsale]
      exact htotal
  cases msg with
  | startAuction userInfo sendTo auctionAsset =>
    obtain ⟨hnamed, hsale⟩ := startAuction_fees conserved.named hcall
    refine ⟨hnamed, fun denom => ?_⟩
    have htotal := conserved.total denom
    show l.paid denom + 0 + onSale s' denom ≤ l.auctioned denom +
      if auctionAsset.info.toText = denom then amountIn denom info.funds else 0
    rw [hsale denom]
    dsimp only
    omega
  | swapForFee auctionAsset =>
    obtain ⟨coin, auction, q, swap, hfunds, hquote, -, hsold⟩ := swapForFee_spec hcall
    have hfair : q.Fair := by
      unfold FairCall at fair
      simp only [hquote] at fair
      exact fair
    refine ⟨hsold.named conserved.named, fun denom => ?_⟩
    have htotal := conserved.total denom
    have hsale := hsold.conserves conserved.named hfair denom
    show l.paid denom + (outflow denom response - amountIn denom info.funds) +
      onSale s' denom ≤ l.auctioned denom + 0
    rw [hsold.pays hfunds]
    omega
  | swapForMBRN =>
    refine hsame (fun _ => by simp) (fun _ _ _ => by simp) ?_
    unfold execute at hcall
    simp only [swapForMbrn, bind_eq_ok, pure_eq_ok, Prod.mk.injEq] at hcall
    obtain ⟨_, -, _, -, _, -, _, -, _, -, _, -, _, -, _, -, _, -, _, -, _, -, _, -, _, -,
      _, -, _, -,
      _, -, rfl, -⟩ := hcall
    rfl
  | removeAuction =>
    refine hsame (fun _ => by simp) (fun _ _ _ => by simp) ?_
    unfold execute at hcall
    simp only [removeAuction, bind_eq_ok, pure_eq_ok, Prod.mk.injEq] at hcall
    obtain ⟨_, -, rfl, -⟩ := hcall
    rfl
  | updateConfig update =>
    refine hsame (fun _ => by simp) (fun _ _ _ => by simp) ?_
    unfold execute at hcall
    simp only [updateConfig, bind_eq_ok, pure_eq_ok, Prod.mk.injEq] at hcall
    obtain ⟨_, -, _, -, _, -, _, -, _, -, _, -, _, -, _, -, _, -, _, -, _, -, rfl, -⟩ := hcall
    rfl

/-! ## Subtractions -/

def subOr (under : Nat → Nat → Outcome StdError Nat) (a b : Nat) : Outcome StdError Nat :=
  if b ≤ a then pure (a - b) else under a b

def getDiscountRatioOr (under : Nat → Nat → Outcome StdError Nat) (env : Env)
    (auctionStartTime : Nat) (config : Config) : Outcome StdError Decimal := do
  let timeElapsed ← subOr under env.blockTime auctionStartTime
  Outcome.guardPanic (config.discountIncreaseTimeframe = 0)
  let discountMultiplier := timeElapsed / config.discountIncreaseTimeframe
  let currentDiscountIncrease ←
    decimalMultiplication (← Decimal.fromRatio discountMultiplier 1) config.discountIncrease
  let increased ← Decimal.add currentDiscountIncrease config.initialDiscount
  let currentDiscount := if Decimal.one < increased then Decimal.one else increased
  let atomics ← subOr under Decimal.one.atomics currentDiscount.atomics
  pure (if ⟨atomics⟩ < Decimal.percent 1 then Decimal.percent 1 else ⟨atomics⟩)

def settleFeeSwapOr (under : Nat → Nat → Outcome StdError Nat)
    (desiredPrice auctionPrice : PriceResponse) (discountRatio : Decimal) (sent auctioned : Nat) :
    Outcome StdError FeeSwap := do
  let desiredAssetValue ← desiredPrice.getValue sent
  let auctionAssetValue ←
    decimalMultiplication (← auctionPrice.getValue auctioned) discountRatio
  if auctionAssetValue < desiredAssetValue then do
    let atomics ← subOr under desiredAssetValue.atomics auctionAssetValue.atomics
    let overpay ← desiredPrice.getAmount ⟨atomics⟩
    pure ⟨overpay, auctioned, 0⟩
  else if desiredAssetValue < auctionAssetValue then do
    let discountedPrice : PriceResponse :=
      { auctionPrice with price := ← decimalMultiplication auctionPrice.price discountRatio }
    let successfulSwapAmount ← discountedPrice.getAmount desiredAssetValue
    let atomics ← subOr under auctionAssetValue.atomics desiredAssetValue.atomics
    let left ← discountedPrice.getAmount ⟨atomics⟩
    pure ⟨0, successfulSwapAmount, left⟩
  else pure ⟨0, auctioned, 0⟩

def swapOr (under : Nat → Nat → Outcome StdError Nat) (deps : Deps) (env : Env)
    (info : MessageInfo) (auctionAsset : AssetInfo) (s : State) :
    Result (State × Response OutMsg) := do
  let config := s.config
  let coin ← sentCoin info config.desiredAsset
  let key := auctionAsset.toText
  let auction ← Outcome.ofOption (s.feeAuctions.lookup key)
    (.std (.notFound "membrane::types::FeeAuction"))
  Outcome.guardErr (auction.auctionAsset.amount = 0 ∨ env.blockTime < auction.auctionStartTime)
    (.std (.genericErr "Auction isn't running now"))
  let desiredPrice ← liftStd (priceOf deps config config.desiredAsset)
  let auctionPrice ← liftStd (priceOf deps config auction.auctionAsset.info.toText)
  let discountRatio ← liftStd (getDiscountRatioOr under env auction.auctionStartTime config)
  let swap ← liftStd (settleFeeSwapOr under desiredPrice auctionPrice discountRatio coin.amount
    auction.auctionAsset.amount)
  let kept ← liftStd (subOr under coin.amount swap.overpay)
  pure ({ s with feeAuctions :=
      if swap.left ≤ 1 then s.feeAuctions.erase key
      else s.feeAuctions.insert key (auction.leave swap.left) },
    Response.addMessages {} (swapMsgs config info.sender auction.auctionAsset.info.toText kept
      swap.successfulSwapAmount swap.overpay))

/-- No subtraction of a swap for a fee, or of its discount, is of more than there is: whatever
    it would do then, the swap does the same. -/
def NeverUnderflows (s : State) : Prop :=
  ∀ under deps env info auctionAsset, swapOr under deps env info auctionAsset s =
    swapWithTheContractsDesiredAsset deps env info auctionAsset s

section

variable {under : Nat → Nat → Outcome StdError Nat}

theorem subOr_of_le {a b : Nat} (le : b ≤ a) : subOr under a b = .ok (a - b) := if_pos le

theorem bind_congr_ok {ε α β : Type} {x : Outcome ε α} {f g : α → Outcome ε β}
    (alike : ∀ a, x = .ok a → f a = g a) : (x >>= f) = (x >>= g) := by
  cases x with
  | ok a => exact alike a rfl
  | error => rfl

theorem getDiscountRatioOr_eq {env : Env} {auctionStartTime : Nat} (config : Config)
    (started : auctionStartTime ≤ env.blockTime) :
    getDiscountRatioOr under env auctionStartTime config =
      getDiscountRatio env auctionStartTime config := by
  unfold getDiscountRatioOr getDiscountRatio
  rw [subOr_of_le started, subUint_eq_ok.mpr ⟨started, rfl⟩]
  refine bind_congr_ok fun timeElapsed _ => bind_congr_ok fun _ _ => ?_
  refine bind_congr_ok fun _ _ => bind_congr_ok fun _ _ => bind_congr_ok fun increased _ => ?_
  have hwithin : (if Decimal.one < increased then Decimal.one else increased) ≤ Decimal.one := by
    split
    case isTrue => exact Nat.le_refl _
    case isFalse hsmall => exact Nat.le_of_not_lt hsmall
  dsimp only
  rw [subOr_of_le hwithin, decimalSubtraction_eq_ok.mpr ⟨hwithin, rfl⟩]
  rfl

variable (under) in
theorem settleFeeSwapOr_eq (q : FeeQuote) :
    settleFeeSwapOr under q.desired q.auctioned q.discountRatio q.sent q.onSale = q.settle := by
  unfold settleFeeSwapOr FeeQuote.settle settleFeeSwap
  refine bind_congr_ok fun desired _ => bind_congr_ok fun _ _ => bind_congr_ok fun auctioned _ => ?_
  by_cases hmore : auctioned < desired
  · have hle : auctioned ≤ desired := Nat.le_of_lt hmore
    rw [if_pos hmore, if_pos hmore, subOr_of_le hle, Decimal.sub_eq_ok.mpr ⟨hle, rfl⟩]
    rfl
  · rw [if_neg hmore, if_neg hmore]
    by_cases hless : desired < auctioned
    · have hle : desired ≤ auctioned := Nat.le_of_lt hless
      rw [if_pos hless, if_pos hless, subOr_of_le hle, Decimal.sub_eq_ok.mpr ⟨hle, rfl⟩]
      rfl
    · rw [if_neg hless, if_neg hless]

theorem neverUnderflows (s : State) : NeverUnderflows s := by
  intro under deps env info auctionAsset
  unfold swapOr swapWithTheContractsDesiredAsset
  refine bind_congr_ok fun coin hcoin => bind_congr_ok fun auction _ => ?_
  refine bind_congr_ok fun _ hrunning => ?_
  have hstarted : auction.auctionStartTime ≤ env.blockTime := by
    have hnot := guardErr_eq_ok.mp hrunning
    exact Nat.le_of_not_lt fun h => hnot (.inr h)
  rw [getDiscountRatioOr_eq s.config hstarted]
  refine bind_congr_ok fun desired _ => bind_congr_ok fun price _ => ?_
  refine bind_congr_ok fun ratio _ => ?_
  have hsettle := settleFeeSwapOr_eq under
    ⟨desired, price, ratio, coin.amount, auction.auctionAsset.amount⟩
  dsimp only at hsettle
  rw [hsettle]
  refine bind_congr_ok fun swap hswap => ?_
  have hover : swap.overpay ≤ coin.amount := (settle_spec (liftStd_eq_ok.mp hswap)).overpay_le
  have hdenom := (sentCoin_spec hcoin).2
  rw [subOr_of_le hover, subUint_eq_ok.mpr ⟨hover, rfl⟩, hdenom]
  rfl

end

/-! ## Runs -/

/-- A swap for a fee pays its sender, for what it keeps of the coin, at most what that is
    worth. -/
def PaysFairly (s : State) (call : Call) (auctionAsset : AssetInfo) (response : Response OutMsg) :
    Prop :=
  ∃ coin auction q kept received overpay, call.info.funds = [coin] ∧
    s.feeAuctions.lookup auctionAsset.toText = some auction ∧
    feeQuote call.deps call.env call.info auctionAsset s = .ok q ∧
    kept + overpay = coin.amount ∧
    response = Response.addMessages {} (swapMsgs s.config call.info.sender
      auction.auctionAsset.info.toText kept received overpay) ∧
    q.PaysAtMost received kept

theorem paysFairly {s s' : State} {call : Call} {auctionAsset : AssetInfo}
    {response : Response OutMsg} {q : FeeQuote} (msg : call.msg = .swapForFee auctionAsset)
    (quote : feeQuote call.deps call.env call.info auctionAsset s = .ok q) (fair : q.Fair)
    (done : execute call.deps call.env call.info call.msg s = .ok (s', response)) :
    PaysFairly s call auctionAsset response := by
  rw [msg] at done
  obtain ⟨coin, auction, q', swap, hfunds, hquote, hsettle, hsold⟩ := swapForFee_spec done
  obtain rfl : q = q' := Except.ok.inj (quote.symm.trans hquote)
  have hover : swap.overpay ≤ coin.amount := hsold.sent.1 ▸ hsold.settled.overpay_le
  refine ⟨coin, auction, q, coin.amount - swap.overpay, swap.successfulSwapAmount, swap.overpay,
    hfunds, hsold.stored, hquote, Nat.sub_add_cancel hover, hsold.messages, ?_⟩
  rw [← hsold.sent.1]
  exact hsold.settled.pays_at_most fair

/-- In every run whose swaps for fees are at fair quotes, no more of a denom is paid out
    than was auctioned, and each further swap at a fair quote pays its sender at most what
    it keeps is worth. No swap underflows in any state, after whatever run. -/
theorem fees_conserved {deps : Deps} {info : MessageInfo} {msg : InstantiateMsg} {created : State}
    {response : Response OutMsg} {l : FeeBooks}
    (instantiated : instantiate deps info msg = .ok (created, response)) :
    NeverUnderflows l.state ∧
      (RunWhere bookStep FairCall ⟨created, fun _ => 0, fun _ => 0⟩ l →
        (∀ denom, l.paid denom ≤ l.auctioned denom) ∧
        ∀ (call : Call) auctionAsset s' response, call.msg = .swapForFee auctionAsset →
          FairCall l call →
          execute call.deps call.env call.info call.msg l.state = .ok (s', response) →
          PaysFairly l.state call auctionAsset response) := by
  constructor
  · exact neverUnderflows l.state
  · intro run
    have hstart : Conserved ⟨created, fun _ => 0, fun _ => 0⟩ := by
      simp only [instantiate, bind_eq_ok, pure_eq_ok, Prod.mk.injEq] at instantiated
      obtain ⟨_, -, _, -, _, -, _, -, _, -, _, -, _, -, rfl, -⟩ := instantiated
      refine ⟨KeyMap.all_empty, fun denom => ?_⟩
      simp [onSale, KeyMap.measureAt]
    have hkeeps : ∀ l call l', Conserved l → FairCall l call → bookStep l call l' →
        Conserved l' :=
      fun _ _ _ hconserved hfair hstep => step_conserved hconserved hfair hstep
    have hconserved := RunWhere.keeps hkeeps run hstart
    refine ⟨fun denom => ?_, fun call auctionAsset s' response hmsg hfair hcall => ?_⟩
    · have htotal := hconserved.total denom
      omega
    · have hswap : swapWithTheContractsDesiredAsset call.deps call.env call.info auctionAsset
          l.state = .ok (s', response) := by
        rw [hmsg] at hcall
        exact hcall
      obtain ⟨_, _, q, _, -, hquote, -, -⟩ := swapForFee_spec hswap
      have hq : q.Fair := by
        unfold FairCall at hfair
        simp only [hmsg, hquote] at hfair
        exact hfair
      exact paysFairly hmsg hquote hq hcall

/-! ## On a sample chain -/

/-- A chain on which the fee, of 18 decimals, trades at a price, and everything else, of
    six, at one dollar. -/
def feeAt (price : Nat) : Deps := { atPar with
  oraclePrice _ denom _ _ :=
    .ok [if denom = "ufee" then ⟨⟨price⟩, 18⟩ else ⟨Decimal.one, 6⟩] }

def startedFee (price amount : Nat) (positive : 0 < amount) : Call :=
  ⟨feeAt price, ⟨0, "auction"⟩, MessageInfo.oneCoin "gov" ⟨"ufee", amount⟩ positive,
    .startAuction none none ⟨.nativeToken "ufee", amount⟩⟩

/-- A swap for the fee. -/
def feeSwap (price amount : Nat) (positive : 0 < amount) : Call :=
  ⟨feeAt price, ⟨0, "auction"⟩, MessageInfo.oneCoin "user" ⟨"uosmo", amount⟩ positive,
    .swapForFee (.nativeToken "ufee")⟩

/-- The books after calls on a new contract. -/
def booksAfter (exec : FeeBooks → Call → Option FeeBooks) (calls : List Call) : Option FeeBooks :=
  match instantiate atPar (MessageInfo.noFunds "gov") genesis with
  | .ok (created, _) => execAll exec calls ⟨created, fun _ => 0, fun _ => 0⟩
  | .error _ => none

theorem fees_conserved_sold :
    ∃ l, booksAfter (execWhere FeeBooks.exec FairCall)
        [startedFee (5 * 10 ^ 18) (10 ^ 24) (by decide), feeSwap (5 * 10 ^ 18) 122222 (by decide),
          feeSwap (5 * 10 ^ 18) (10 ^ 13) (by decide)] = some l ∧
      l.auctioned "ufee" = 10 ^ 24 ∧ l.paid "ufee" = 10 ^ 24 - 1 ∧
      (∀ denom, l.paid denom ≤ l.auctioned denom) ∧ NeverUnderflows l.state := by
  have htotals : (booksAfter (execWhere FeeBooks.exec FairCall)
      [startedFee (5 * 10 ^ 18) (10 ^ 24) (by decide), feeSwap (5 * 10 ^ 18) 122222 (by decide),
        feeSwap (5 * 10 ^ 18) (10 ^ 13) (by decide)]).map (fun l =>
          (l.auctioned "ufee", l.paid "ufee")) = some (10 ^ 24, 10 ^ 24 - 1) := by
    decide +kernel
  obtain ⟨l, hl, htotals⟩ := Option.map_eq_some_iff.mp htotals
  obtain ⟨hauctioned, hpaid⟩ := Prod.mk.inj htotals
  have hrun := hl
  unfold booksAfter at hrun
  split at hrun
  case h_2 => cases hrun
  case h_1 created response hcreated =>
    have hfair := execWhere_run (fun _ _ _ => FeeBooks.exec_step) hrun
    obtain ⟨hsafe, hconserved⟩ := @fees_conserved _ _ _ _ _ l hcreated
    exact ⟨l, hl, hauctioned, hpaid, (hconserved hfair).1, hsafe⟩

/-- More than was auctioned is paid out: the discounted price of a fee that trades at
    0.000000123456789123 is truncated, and what the first swap leaves on sale is more than
    it did not pay. -/
theorem fees_not_conserved :
    ¬ ∀ calls l, booksAfter FeeBooks.exec calls = some l →
      ∀ denom, l.paid denom ≤ l.auctioned denom := by
  intro claim
  have htotals : (booksAfter FeeBooks.exec
      [startedFee 123456789123 (10 ^ 24) (by decide), feeSwap 123456789123 122222 (by decide),
        feeSwap 123456789123 122222 (by decide)]).map (fun l =>
          (l.auctioned "ufee", l.paid "ufee")) =
        some (1000000000000000000000000, 1000000000006300000051092) := by
    decide +kernel
  obtain ⟨l, hl, htotals⟩ := Option.map_eq_some_iff.mp htotals
  obtain ⟨hauctioned, hpaid⟩ := Prod.mk.inj htotals
  have hle := claim _ l hl "ufee"
  rw [hauctioned, hpaid] at hle
  exact absurd hle (by decide)

end Membrane.Auction
