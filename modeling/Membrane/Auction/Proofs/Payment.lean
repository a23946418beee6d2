import Membrane.Auction.Contract
import Membrane.Lib.Run

/-!
# What a swap for MBRN pays for

The loops of `swap_for_mbrn` use up what the auction's positions and recipients are
owed; the rest of the coin goes back to the sender. The MBRN is minted for the whole
coin.
-/

namespace Membrane.Auction

open Outcome

/-- What the auction's positions and recipients are still owed. -/
def DebtAuction.owed (auction : DebtAuction) : Nat :=
  (auction.repaymentPositions.map RepayPosition.repayment).sum +
    (auction.sendTo.map AuctionRecipient.amount).sum

def DebtAuction.creditors (auction : DebtAuction) : Nat :=
  (auction.repaymentPositions.filter fun position => position.repayment ≠ 0).length +
    (auction.sendTo.filter fun recipient => recipient.amount ≠ 0).length

def coinsOut : CosmosMsg OutMsg → List Coin
  | .bankSend _ coins => coins
  | .execute _ _ coins => coins

def amountIn (denom : String) (coins : List Coin) : Nat :=
  (coins.map fun coin => if coin.denom = denom then coin.amount else 0).sum

/-- What of a denom goes back to the sender: the coins of the messages behind that of the
    mint and those of the creditors. -/
def refunded (auction : DebtAuction) (denom : String) (response : Response OutMsg) : Nat :=
  amountIn denom ((response.messages.drop (1 + auction.creditors)).flatMap fun sub =>
    coinsOut sub.msg)

def mintedBy (mintTo : Addr) : CosmosMsg OutMsg → Nat
  | .execute _ (.mintTokens _ amount mintToAddress) _ =>
    if mintToAddress = mintTo then amount else 0
  | _ => 0

/-- The MBRN that a response mints to an address. -/
def mintedTo (mintTo : Addr) (response : Response OutMsg) : Nat :=
  (response.messages.map fun sub => mintedBy mintTo sub.msg).sum

/-- The price of MBRN at the auction's discount. -/
def discountedMbrnPrice (deps : Deps) (env : Env) (config : Config) (auction : DebtAuction) :
    Outcome StdError Decimal := do
  let mbrnPrice ← priceOf deps config config.mbrnDenom
  let discountRatio ← getDiscountRatio env auction.auctionStartTime config
  decimalMultiplication mbrnPrice.price discountRatio

def worth (creditPrice : PriceResponse) (mbrnPrice : Decimal) (amount : Nat) :
    Outcome StdError Decimal := do
  decimalDivision (← creditPrice.getValue amount) mbrnPrice

/-- The MBRN minted to the sender is worth no more than what the auction keeps of the
    coin. -/
def PaidForKept (creditPrice : PriceResponse) (mbrnPrice : Decimal) (auction : DebtAuction)
    (sender : Addr) (coin : Coin) (response : Response OutMsg) : Prop :=
  ∃ kept, kept + refunded auction coin.denom response = coin.amount ∧
    ∃ quotient, worth creditPrice mbrnPrice kept = .ok quotient ∧
      Decimal.ofNat (mintedTo sender response) ≤ quotient

/-! ## Serving a list of debts -/

/-- Debts served in order with an amount: what is left of each, what is left of the
    amount, and how many were served. -/
structure Served (debts debts' : List Nat) (amount left served : Nat) : Prop where
  remains : left = amount - debts.sum
  owed : debts'.sum + amount = debts.sum + left
  few : served ≤ (debts.filter fun debt => debt ≠ 0).length
  all : left ≠ 0 → served = (debts.filter fun debt => debt ≠ 0).length

namespace Served

variable {debts debts' : List Nat} {debt paid amount left served : Nat}

theorem nil : Served [] [] amount amount 0 := ⟨rfl, rfl, Nat.le_refl _, fun _ => rfl⟩

theorem pay (owing : debt ≠ 0) (most : paid = min debt amount)
    (rest : Served debts debts' (amount - paid) left served) :
    Served (debt :: debts) ((debt - paid) :: debts') amount left (served + 1) := by
  have hcount : ((debt :: debts).filter fun debt => debt ≠ 0).length =
      (debts.filter fun debt => debt ≠ 0).length + 1 := by
    rw [List.filter_cons_of_pos (by simpa using owing), List.length_cons]
  have hleft := rest.remains
  have howed := rest.owed
  refine ⟨?_, ?_, ?_, ?_⟩
  · rw [List.sum_cons]
    omega
  · rw [List.sum_cons, List.sum_cons]
    omega
  · rw [hcount]
    exact Nat.succ_le_succ rest.few
  · intro hsome
    rw [hcount, rest.all hsome]

theorem skip (nothing : debt = 0 ∨ amount = 0) (rest : Served debts debts' amount left served) :
    Served (debt :: debts) (debt :: debts') amount left served := by
  have hleft := rest.remains
  have howed := rest.owed
  have hmore : (debts.filter fun debt => debt ≠ 0).length ≤
      ((debt :: debts).filter fun debt => debt ≠ 0).length := by
    rw [List.filter_cons]
    split
    · exact Nat.le_succ _
    · exact Nat.le_refl _
  refine ⟨?_, ?_, Nat.le_trans rest.few hmore, ?_⟩
  · rw [List.sum_cons]
    omega
  · rw [List.sum_cons, List.sum_cons]
    omega
  · intro hsome
    have hzero : debt = 0 := by omega
    rw [rest.all hsome, List.filter_cons_of_neg (by simpa using hzero)]

end Served

/-! ## The loops -/

def MintsNothing (msgs : List (CosmosMsg OutMsg)) : Prop :=
  ∀ mintTo, ∀ msg ∈ msgs, mintedBy mintTo msg = 0

theorem repayPositions_served (config : Config) (denom : String) :
    ∀ (positions : List RepayPosition) (swapAmount : Nat),
      let result := repayPositions config denom positions swapAmount
      Served (positions.map RepayPosition.repayment) (result.1.map RepayPosition.repayment)
        swapAmount result.2.1 result.2.2.length ∧ MintsNothing result.2.2 := by
  intro positions
  induction positions with
  | nil =>
    intro swapAmount
    exact ⟨.nil, fun _ _ hmem => absurd hmem List.not_mem_nil⟩
  | cons position rest ih =>
    intro swapAmount
    simp only [repayPositions]
    split
    case isTrue hserved =>
      have hmost : (if swapAmount ≤ position.repayment then swapAmount else position.repayment) =
          min position.repayment swapAmount := by
        split <;> omega
      obtain ⟨hrest, hmints⟩ := ih (swapAmount -
        if swapAmount ≤ position.repayment then swapAmount else position.repayment)
      refine ⟨Served.pay hserved.1 hmost hrest, ?_⟩
      intro mintTo msg hmem
      cases hmem with
      | head => rfl
      | tail _ htail => exact hmints mintTo msg htail
    case isFalse hskipped =>
      obtain ⟨hrest, hmints⟩ := ih swapAmount
      refine ⟨Served.skip ?_ hrest, hmints⟩
      by_cases hzero : position.repayment = 0
      · exact .inl hzero
      · exact .inr (by_contra fun hsome => hskipped ⟨hzero, hsome⟩)

theorem withdrawalMsg_mintsNothing {asset : Asset} {recipient : Addr} {msg : CosmosMsg OutMsg}
    (done : withdrawalMsg asset recipient = .ok msg) (mintTo : Addr) : mintedBy mintTo msg = 0 := by
  unfold withdrawalMsg at done
  split at done
  case h_1 =>
    obtain rfl := Except.ok.inj done
    rfl
  case h_2 => simp at done

theorem payRecipients_served {deps : Deps} {config : Config} :
    ∀ {recipients recipients' : List AuctionRecipient} {swapAmount left : Nat}
      {msgs : List (CosmosMsg OutMsg)},
      payRecipients deps config recipients swapAmount = .ok (recipients', left, msgs) →
      Served (recipients.map AuctionRecipient.amount) (recipients'.map AuctionRecipient.amount)
        swapAmount left msgs.length ∧ MintsNothing msgs := by
  intro recipients
  induction recipients with
  | nil =>
    intro recipients' swapAmount left msgs done
    simp only [payRecipients, pure_eq_ok, Prod.mk.injEq] at done
    obtain ⟨rfl, rfl, rfl⟩ := done
    exact ⟨.nil, fun _ _ hmem => absurd hmem List.not_mem_nil⟩
  | cons recipient rest ih =>
    intro recipients' swapAmount left msgs done
    unfold payRecipients at done
    split at done
    case isTrue hserved =>
      simp only [bind_eq_ok, pure_eq_ok, Prod.mk.injEq] at done
      obtain ⟨basket, -, msg, hmsg, ⟨others, rest', msgs'⟩, hrest, rfl, rfl, rfl⟩ := done
      have hmost : (if recipient.amount ≤ swapAmount then recipient.amount else swapAmount) =
          min recipient.amount swapAmount := by
        split <;> omega
      obtain ⟨hothers, hmints⟩ := ih hrest
      refine ⟨Served.pay hserved.2 hmost hothers, ?_⟩
      intro mintTo other hmem
      cases hmem with
      | head => exact withdrawalMsg_mintsNothing hmsg mintTo
      | tail _ htail => exact hmints mintTo other htail
    case isFalse hskipped =>
      simp only [bind_eq_ok, pure_eq_ok, Prod.mk.injEq] at done
      obtain ⟨⟨others, rest', msgs'⟩, hrest, rfl, rfl, rfl⟩ := done
      obtain ⟨hothers, hmints⟩ := ih hrest
      refine ⟨Served.skip ?_ hothers, hmints⟩
      by_cases hzero : recipient.amount = 0
      · exact .inl hzero
      · exact .inr (by_contra fun hsome => hskipped ⟨hsome, hzero⟩)

/-! ## The whole swap -/

/-- What the swap of a coin did: the MBRN of its whole worth, and what is not owed back. -/
structure Swapped (creditPrice : PriceResponse) (mbrnPrice : Decimal) (auction : DebtAuction)
    (sender : Addr) (coin : Coin) (response : Response OutMsg) : Prop where
  minted : ∃ quotient, worth creditPrice mbrnPrice coin.amount = .ok quotient ∧
    mintedTo sender response = quotient.toUintFloor
  back : refunded auction coin.denom response = coin.amount - auction.owed

theorem MintsNothing.total {msgs : List (CosmosMsg OutMsg)} (nothing : MintsNothing msgs)
    (mintTo : Addr) : (msgs.map (mintedBy mintTo)).sum = 0 := by
  refine List.sum_eq_zero fun amount hmem => ?_
  obtain ⟨msg, hmsg, rfl⟩ := List.mem_map.mp hmem
  exact nothing mintTo msg hmsg

theorem worth_floor {creditPrice : PriceResponse} {mbrnPrice value quotient : Decimal}
    {amount minted : Nat} (hvalue : creditPrice.getValue amount = .ok value)
    (hquotient : decimalDivision value mbrnPrice = .ok quotient)
    (hminted : (Decimal.mulUint 1 quotient : Result Nat) = .ok minted) :
    worth creditPrice mbrnPrice amount = .ok quotient ∧ minted = quotient.toUintFloor := by
  refine ⟨?_, ?_⟩
  · simp only [worth, bind_eq_ok]
    exact ⟨value, hvalue, hquotient⟩
  · rw [Decimal.mulUint_eq_ok hminted, Nat.one_mul]
    rfl

theorem refunded_eq {auction : DebtAuction} {denom : String} {mint : CosmosMsg OutMsg}
    {paid refund : List (CosmosMsg OutMsg)} (few : paid.length ≤ auction.creditors)
    (all : refund ≠ [] → paid.length = auction.creditors) :
    refunded auction denom (Response.addMessages {} ([mint] ++ paid ++ refund)) =
      amountIn denom (refund.flatMap coinsOut) := by
  have hbehind : (Response.addMessages {} ([mint] ++ paid ++ refund) :
      Response OutMsg).messages.drop (1 + auction.creditors) = refund.map SubMsg.new := by
    simp only [Response.addMessages, List.nil_append, List.cons_append, List.map_cons,
      List.map_append]
    rw [Nat.add_comm 1, List.drop_succ_cons]
    by_cases hnone : refund = []
    · subst hnone
      rw [List.map_nil, List.append_nil, List.drop_eq_nil_iff, List.length_map]
      exact few
    · rw [← all hnone, ← List.length_map SubMsg.new, List.drop_left]
  rw [refunded, hbehind, List.flatMap_map]
  rfl

theorem mintedTo_addMessages (mintTo : Addr) (msgs : List (CosmosMsg OutMsg)) :
    mintedTo mintTo (Response.addMessages {} msgs) = (msgs.map (mintedBy mintTo)).sum := by
  simp only [mintedTo, Response.addMessages, List.nil_append, List.map_map]
  rfl

theorem refund_spec {denom : String} {overpay : Nat} {sender : Addr}
    {refund : List (CosmosMsg OutMsg)}
    (done : (if overpay = 0 then pure []
      else do pure [← liftStd (withdrawalMsg ⟨.nativeToken denom, overpay⟩ sender)] :
        Result (List (CosmosMsg OutMsg))) = .ok refund) :
    MintsNothing refund ∧ amountIn denom (refund.flatMap coinsOut) = overpay ∧
      (refund ≠ [] → overpay ≠ 0) := by
  split at done
  case isTrue hzero =>
    obtain rfl := pure_eq_ok.mp done
    refine ⟨fun _ _ hmem => absurd hmem List.not_mem_nil, hzero.symm, ?_⟩
    intro hsome
    exact absurd rfl hsome
  case isFalse hsome =>
    simp only [bind_eq_ok, pure_eq_ok, liftStd_eq_ok, withdrawalMsg, Except.ok.injEq] at done
    obtain ⟨_, rfl, rfl⟩ := done
    refine ⟨?_, ?_, fun _ => hsome⟩
    · intro mintTo msg hmem
      obtain rfl := List.mem_singleton.mp hmem
      rfl
    · simp [amountIn, coinsOut]

variable {deps : Deps} {env : Env} {info : MessageInfo} {s s' : State} {response : Response OutMsg}
  {auction : DebtAuction} {coin : Coin} {basket : Basket} {mbrnPrice : Decimal}

theorem swapForMbrn_spec (done : swapForMbrn deps env info s = .ok (s', response))
    (found : s.debtAuction = some auction) (sent : info.funds = [coin])
    (peg : deps.basket s.config.positionsContract = .ok basket)
    (price : discountedMbrnPrice deps env s.config auction = .ok mbrnPrice) :
    Swapped basket.creditPrice mbrnPrice auction info.sender coin response := by
  simp only [swapForMbrn, bind_eq_ok, pure_eq_ok, liftStd_eq_ok, ofExcept_eq_ok, ofOption_eq_ok,
    guardErr_eq_ok, subUint_eq_ok, Prod.mk.injEq] at done
  obtain ⟨coin', hcoin, auction', hauction, _, -, amount, hamount, mbrn, hmbrn, basket', hbasket,
    ratio, hratio, mbrnPrice', hprice, value, hvalue, quotient, hquotient, minted, hminted,
    swapAmount, hswap, ⟨recipients, overpay, sends⟩, hsends, kept, ⟨hkept, rfl⟩, remaining, -,
    refund, hrefund, -, rfl⟩ := done
  obtain rfl : auction = auction' := Option.some.inj (found.symm.trans hauction)
  obtain rfl : basket = basket' := Except.ok.inj (peg.symm.trans hbasket)
  obtain rfl : coin = coin' := by
    simp only [sentCoin, sent, liftStd_eq_ok, validateAsset, bind_eq_ok, pure_eq_ok] at hcoin
    obtain ⟨_, -, _, -, hcoin⟩ := hcoin
    exact hcoin
  obtain rfl : mbrnPrice = mbrnPrice' := by
    simp only [discountedMbrnPrice, bind_eq_ok] at price
    obtain ⟨_, hmbrn', _, hratio', hprice'⟩ := price
    obtain rfl := Except.ok.inj (hmbrn.symm.trans hmbrn')
    obtain rfl := Except.ok.inj (hratio.symm.trans hratio')
    exact Except.ok.inj (hprice'.symm.trans hprice)
  obtain rfl := Decimal.fromRatio_one hamount
  rw [Decimal.toUintFloor_whole] at hvalue
  obtain ⟨hworth, rfl⟩ := worth_floor hvalue hquotient hminted
  obtain rfl : swapAmount = coin.amount := by
    rw [Decimal.mulUint_eq_ok hswap, Nat.one_mul]
    exact Nat.mul_div_cancel _ (by decide)
  obtain ⟨hrepays, hrepaysMint⟩ :=
    repayPositions_served s.config coin.denom auction.repaymentPositions coin.amount
  obtain ⟨hsent, hsendsMint⟩ := payRecipients_served hsends
  generalize repayPositions s.config coin.denom auction.repaymentPositions coin.amount = repaid
    at hrepays hrepaysMint hsends hsent
  have hoverpay : overpay = coin.amount - auction.owed := by
    rw [hsent.remains, hrepays.remains, DebtAuction.owed, Nat.sub_sub]
  have hcreditors : auction.creditors =
      ((auction.repaymentPositions.map RepayPosition.repayment).filter
        fun debt => debt ≠ 0).length +
        ((auction.sendTo.map AuctionRecipient.amount).filter fun debt => debt ≠ 0).length := by
    rw [DebtAuction.creditors, List.filter_map, List.length_map, List.filter_map, List.length_map]
    rfl
  obtain ⟨hrefundMint, hback, hsome⟩ := refund_spec hrefund
  refine ⟨⟨quotient, hworth, ?_⟩, ?_⟩
  · rw [mintedTo_addMessages, List.map_append, List.map_append, List.map_append, List.sum_append,
      List.sum_append, List.sum_append, hrepaysMint.total, hsendsMint.total, hrefundMint.total]
    simp [mintedBy]
  · rw [List.append_assoc [_], refunded_eq]
    · rw [hback, hoverpay]
    · rw [hcreditors, List.length_append]
      exact Nat.add_le_add hrepays.few hsent.few
    · intro hrefunded
      have hleft : overpay ≠ 0 := hsome hrefunded
      have hbefore : repaid.2.1 ≠ 0 := by
        intro hnone
        rw [hnone] at hsent
        exact hleft (hsent.remains.trans (Nat.zero_sub _))
      rw [hcreditors, List.length_append, hrepays.all hbefore, hsent.all hleft]

/-- What is sent beyond what is owed buys no further unit of MBRN. -/
def SurplusBuysNothing (creditPrice : PriceResponse) (mbrnPrice : Decimal) (owed amount : Nat) :
    Prop :=
  ∃ quotient quotient', worth creditPrice mbrnPrice owed = .ok quotient ∧
    worth creditPrice mbrnPrice amount = .ok quotient' ∧
    quotient'.toUintFloor ≤ quotient.toUintFloor

theorem ofNat_le_iff {n : Nat} {quotient : Decimal} :
    Decimal.ofNat n ≤ quotient ↔ n ≤ quotient.toUintFloor :=
  (Nat.le_div_iff_mul_le (by decide)).symm

/-- A swap mints no more than what is kept is worth exactly when the coin is not more
    than what is owed, or its surplus buys nothing. -/
theorem mbrn_paid_for_kept_iff
    (done : execute deps env info .swapForMBRN s = .ok (s', response))
    (found : s.debtAuction = some auction) (sent : info.funds = [coin])
    (peg : deps.basket s.config.positionsContract = .ok basket)
    (price : discountedMbrnPrice deps env s.config auction = .ok mbrnPrice) :
    PaidForKept basket.creditPrice mbrnPrice auction info.sender coin response ↔
      coin.amount ≤ auction.owed ∨
        SurplusBuysNothing basket.creditPrice mbrnPrice auction.owed coin.amount := by
  have hswap : swapForMbrn deps env info s = .ok (s', response) := done
  obtain ⟨⟨quotient', hworth', hminted⟩, hback⟩ := swapForMbrn_spec hswap found sent peg price
  rw [PaidForKept, hback, hminted]
  constructor
  · rintro ⟨kept, hkept, quotient, hworth, hle⟩
    by_cases hall : coin.amount ≤ auction.owed
    · exact .inl hall
    · obtain rfl : kept = auction.owed := by omega
      exact .inr ⟨quotient, quotient', hworth, hworth', ofNat_le_iff.mp hle⟩
  · intro hcondition
    by_cases hall : coin.amount ≤ auction.owed
    · exact ⟨coin.amount, by omega, quotient', hworth', ofNat_le_iff.mpr (Nat.le_refl _)⟩
    · obtain ⟨quotient, found', hworth, hfound', hle⟩ := hcondition.resolve_left hall
      obtain rfl := Except.ok.inj (hworth'.symm.trans hfound')
      exact ⟨auction.owed, by omega, quotient, hworth, ofNat_le_iff.mpr hle⟩

/-! ## On a sample chain -/

/-- The basket of the debt token, of which the auction reads the token and its price. -/
def sampleBasket : Basket :=
  ⟨1, 1, [], [], [], [], ⟨.nativeToken "ucdt", 0⟩, ⟨Decimal.one, 0⟩, Decimal.zero, 0, 0, 0, true,
    false, false, false, Decimal.zero, none⟩

/-- A chain on which every token, of no decimals, trades at one dollar. -/
def atPar : Deps where
  addrValid _ := true
  oraclePrice _ _ _ _ := .ok [⟨Decimal.one, 0⟩]
  basket _ := .ok sampleBasket

/-- The instantiation of an auction contract with a discount of one percent. -/
def genesis : InstantiateMsg where
  owner := none
  oracleContract := "oracle"
  osmosisProxy := "proxy"
  positionsContract := "cdp"
  governanceContract := "gov"
  stakingContract := "staking"
  twapTimeframe := 60
  mbrnDenom := "umbrn"
  initialDiscount := Decimal.percent 1
  discountIncreaseTimeframe := 60
  discountIncrease := Decimal.percent 1

def afterGenesis (calls : List Call) : Option State :=
  match instantiate atPar (MessageInfo.noFunds "gov") genesis with
  | .ok (created, _) => execAll Call.exec calls created
  | .error _ => none

def startedAuction (amount : Nat) : Call :=
  ⟨atPar, ⟨0, "auction"⟩, MessageInfo.noFunds "gov",
    .startAuction none (some "treasury") ⟨.nativeToken "ucdt", amount⟩⟩

def sampleAuction : DebtAuction := ⟨10000000, [], [⟨10000000, "treasury"⟩], 0⟩

def sampleSwap (amount : Nat) (positive : 0 < amount) : Call :=
  ⟨atPar, ⟨0, "auction"⟩, MessageInfo.oneCoin "user" ⟨"ucdt", amount⟩ positive, .swapForMBRN⟩

def sampleResponse (calls : List Call) (call : Call) : Option (State × State × Response OutMsg) :=
  (afterGenesis calls).bind fun s =>
    match execute call.deps call.env call.info call.msg s with
    | .ok (s', response) => some (s, s', response)
    | .error _ => none

theorem sampleResponse_spec {calls : List Call} {call : Call}
    (done : sampleResponse calls call = some (s, s', response)) :
    execute call.deps call.env call.info call.msg s = .ok (s', response) := by
  obtain ⟨start, -, hcall⟩ := Option.bind_eq_some_iff.mp done
  split at hcall
  case h_1 hdone =>
    obtain ⟨rfl, rfl, rfl⟩ := by simpa only [Option.some.injEq, Prod.mk.injEq] using hcall
    exact hdone
  case h_2 => cases hcall

/-- What a swap of an amount in the sample auction reads and does: the auction, the price
    of MBRN, the MBRN minted and the debt tokens refunded. -/
def sampleReading (amount : Nat) (positive : 0 < amount) :
    Option (Option DebtAuction × Outcome StdError Decimal × Nat × Nat) :=
  (sampleResponse [startedAuction 10000000] (sampleSwap amount positive)).map fun run =>
    (run.1.debtAuction, discountedMbrnPrice atPar ⟨0, "auction"⟩ run.1.config sampleAuction,
      mintedTo "user" run.2.2, refunded sampleAuction "ucdt" run.2.2)

theorem mbrn_paid_for_kept_partial :
    ∃ s s' response,
      sampleResponse [startedAuction 10000000] (sampleSwap 8000000 (by decide)) =
        some (s, s', response) ∧ mintedTo "user" response = 8080808 ∧
      PaidForKept sampleBasket.creditPrice ⟨990000000000000000⟩ sampleAuction "user"
        ⟨"ucdt", 8000000⟩ response := by
  have hreading : sampleReading 8000000 (by decide) =
      some (some sampleAuction, .ok ⟨990000000000000000⟩, 8080808, 0) := by decide +kernel
  obtain ⟨⟨s, s', response⟩, hrun, hreading⟩ := Option.map_eq_some_iff.mp hreading
  simp only [Prod.mk.injEq] at hreading
  obtain ⟨hauction, hprice, hminted, -⟩ := hreading
  refine ⟨s, s', response, hrun, hminted, ?_⟩
  exact (mbrn_paid_for_kept_iff (sampleResponse_spec hrun) hauction rfl rfl hprice).mpr
    (.inl (by decide))

/-- A swap mints for more than is kept: 20000000 is sent to an auction of 10000000, half
    goes back, and the MBRN is that of the whole. -/
theorem mbrn_not_paid_for_kept :
    ¬ ∀ calls call s s' response auction coin basket mbrnPrice, call.msg = .swapForMBRN →
      sampleResponse calls call = some (s, s', response) → s.debtAuction = some auction →
      call.info.funds = [coin] → call.deps.basket s.config.positionsContract = .ok basket →
      discountedMbrnPrice call.deps call.env s.config auction = .ok mbrnPrice →
      PaidForKept basket.creditPrice mbrnPrice auction call.info.sender coin response := by
  intro claim
  have hreading : sampleReading 20000000 (by decide) =
      some (some sampleAuction, .ok ⟨990000000000000000⟩, 20202020, 10000000) := by
    decide +kernel
  obtain ⟨⟨s, s', response⟩, hrun, hreading⟩ := Option.map_eq_some_iff.mp hreading
  simp only [Prod.mk.injEq] at hreading
  obtain ⟨hauction, hprice, hminted, hback⟩ := hreading
  obtain ⟨kept, hkept, quotient, hworth, hle⟩ := claim [startedAuction 10000000]
    (sampleSwap 20000000 (by decide)) s s' response _ ⟨"ucdt", 20000000⟩ sampleBasket _ rfl hrun
    hauction rfl rfl hprice
  rw [hback] at hkept
  obtain rfl : kept = 10000000 := by simpa using hkept
  have hhalf : worth sampleBasket.creditPrice ⟨990000000000000000⟩ 10000000 =
      .ok ⟨10101010101010101010101010⟩ := by decide +kernel
  obtain rfl := Except.ok.inj (hhalf.symm.trans hworth)
  have hover : ¬ Decimal.ofNat (mintedTo "user" response) ≤ ⟨10101010101010101010101010⟩ := by
    rw [hminted]
    decide
  exact hover hle

end Membrane.Auction
