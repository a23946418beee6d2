import Membrane.Auction.Proofs.Payment
import Membrane.Lib.Shares

/-!
# The debt auction's books

What an auction is to raise is what its positions and recipients are owed, as long as
every start of one names who gets it. A swap pays them in order, in whole runs never
more than there is to raise.
-/

namespace Membrane.Auction

open Outcome

/-! ## What a swap pays -/

/-- What each position gets of a coin. -/
def DebtAuction.repaid (auction : DebtAuction) (amount : Nat) : List Nat :=
  shares (auction.repaymentPositions.map RepayPosition.repayment) amount

/-- What each recipient gets of the rest of it. -/
def DebtAuction.sent (auction : DebtAuction) (amount : Nat) : List Nat :=
  shares (auction.sendTo.map AuctionRecipient.amount) (amount - (auction.repaid amount).sum)

/-- What goes to both. -/
def DebtAuction.kept (auction : DebtAuction) (amount : Nat) : Nat :=
  (auction.repaid amount).sum + (auction.sent amount).sum

def DebtAuction.pay (auction : DebtAuction) (amount : Nat) : DebtAuction :=
  { auction with
    remainingRecapitalization := auction.remainingRecapitalization - auction.kept amount
    repaymentPositions := (List.zipWith
      (fun position share => { position with repayment := position.repayment - share })
      auction.repaymentPositions (auction.repaid amount)).filter fun position =>
        position.repayment ≠ 0
    sendTo := List.zipWith
      (fun recipient share => { recipient with amount := recipient.amount - share })
      auction.sendTo (auction.sent amount) }

def repayMsg (config : Config) (denom : String) (position : RepayPosition) (share : Nat) :
    CosmosMsg OutMsg :=
  .execute config.positionsContract (.repay position.positionInfo.positionId
    (some position.positionInfo.positionOwner) none) [⟨denom, share⟩]

def sendMsg (denom : String) (recipient : AuctionRecipient) (share : Nat) : CosmosMsg OutMsg :=
  .bankSend recipient.recipient [⟨denom, share⟩]

def mintMsg (config : Config) (sender : Addr) (minted : Nat) : CosmosMsg OutMsg :=
  .execute config.osmosisProxy (.mintTokens config.mbrnDenom minted sender) []

def refundMsgs (denom : String) (sender : Addr) (refund : Nat) : List (CosmosMsg OutMsg) :=
  if refund = 0 then [] else [.bankSend sender [⟨denom, refund⟩]]

def paymentMsgs {α : Type} (msg : α → Nat → CosmosMsg OutMsg) (list : List α) (paid : List Nat) :
    List (CosmosMsg OutMsg) :=
  (list.zip paid).filterMap fun entry => if entry.2 = 0 then none else some (msg entry.1 entry.2)

theorem paymentMsgs_cons_pos {α : Type} {msg : α → Nat → CosmosMsg OutMsg} {a : α} {list : List α}
    {share : Nat} {paid : List Nat} (positive : share ≠ 0) :
    paymentMsgs msg (a :: list) (share :: paid) = msg a share :: paymentMsgs msg list paid := by
  simp [paymentMsgs, positive]

theorem paymentMsgs_cons_zero {α : Type} {msg : α → Nat → CosmosMsg OutMsg} {a : α}
    {list : List α} {paid : List Nat} :
    paymentMsgs msg (a :: list) (0 :: paid) = paymentMsgs msg list paid := by
  simp [paymentMsgs]

theorem DebtAuction.kept_eq (auction : DebtAuction) (amount : Nat) :
    auction.kept amount = min auction.owed amount := by
  rw [kept, sent, shares_sum, repaid, shares_sum, owed]
  omega

/-! ## The loops -/

theorem repayPositions_shares (config : Config) (denom : String) :
    ∀ (positions : List RepayPosition) (amount : Nat),
      let paid := shares (positions.map RepayPosition.repayment) amount
      repayPositions config denom positions amount =
        (List.zipWith
          (fun position share => { position with repayment := position.repayment - share })
          positions paid,
        amount - paid.sum, paymentMsgs (repayMsg config denom) positions paid) := by
  intro positions
  induction positions with
  | nil =>
    intro amount
    rfl
  | cons position rest ih =>
    intro amount
    simp only [List.map_cons, shares_cons, repayPositions]
    split
    case isTrue hserved =>
      have hpaid : (if amount ≤ position.repayment then amount else position.repayment) =
          min position.repayment amount := by
        split <;> omega
      have hpositive : min position.repayment amount ≠ 0 := by omega
      rw [hpaid, ih]
      simp only [List.zipWith_cons_cons, List.sum_cons, paymentMsgs_cons_pos hpositive,
        Nat.sub_sub]
      rfl
    case isFalse hskipped =>
      have hzero : min position.repayment amount = 0 := by
        by_contra hpositive
        exact hskipped (by omega)
      rw [hzero, ih]
      simp only [List.zipWith_cons_cons, List.sum_cons, paymentMsgs_cons_zero, Nat.sub_zero,
        Nat.zero_add]

theorem payRecipients_shares {deps : Deps} {config : Config} :
    ∀ {recipients recipients' : List AuctionRecipient} {amount left : Nat}
      {msgs : List (CosmosMsg OutMsg)},
      payRecipients deps config recipients amount = .ok (recipients', left, msgs) →
      let paid := shares (recipients.map AuctionRecipient.amount) amount
      recipients' = List.zipWith
          (fun recipient share => { recipient with amount := recipient.amount - share })
          recipients paid ∧
        left = amount - paid.sum ∧
        (∀ basket denom, deps.basket config.positionsContract = .ok basket →
          basket.creditAsset.info = .nativeToken denom →
          msgs = paymentMsgs (sendMsg denom) recipients paid) ∧
        (paid.sum = 0 → msgs = []) ∧
        (paid.sum ≠ 0 → ∃ basket denom, deps.basket config.positionsContract = .ok basket ∧
          basket.creditAsset.info = .nativeToken denom) := by
  intro recipients
  induction recipients with
  | nil =>
    intro recipients' amount left msgs done
    simp only [payRecipients, pure_eq_ok, Prod.mk.injEq] at done
    obtain ⟨rfl, rfl, rfl⟩ := done
    exact ⟨rfl, rfl, fun _ _ _ _ => rfl, fun _ => rfl, fun h => absurd rfl h⟩
  | cons recipient rest ih =>
    intro recipients' amount left msgs done
    simp only [List.map_cons, shares_cons]
    unfold payRecipients at done
    split at done
    case isTrue hserved =>
      simp only [bind_eq_ok, pure_eq_ok, Prod.mk.injEq, ofExcept_eq_ok] at done
      obtain ⟨basket, hbasket, msg, hmsg, ⟨others, rest', msgs'⟩, hrest, rfl, rfl, rfl⟩ := done
      have hpaid : (if recipient.amount ≤ amount then recipient.amount else amount) =
          min recipient.amount amount := by
        split <;> omega
      have hpositive : min recipient.amount amount ≠ 0 := by omega
      rw [hpaid] at hmsg hrest
      obtain ⟨rfl, rfl, hmsgs, -, -⟩ := ih hrest
      obtain ⟨denom, hdenom, rfl⟩ : ∃ denom, basket.creditAsset.info = .nativeToken denom ∧
          msg = sendMsg denom recipient (min recipient.amount amount) := by
        unfold withdrawalMsg at hmsg
        split at hmsg
        case h_1 denom hdenom =>
          exact ⟨denom, hdenom, (Except.ok.inj hmsg).symm⟩
        case h_2 => simp at hmsg
      refine ⟨by rw [hpaid, List.zipWith_cons_cons], ?_, ?_, ?_, fun _ =>
        ⟨basket, denom, hbasket, hdenom⟩⟩
      · rw [List.sum_cons, Nat.sub_sub]
      · intro basket' denom' hbasket' hdenom'
        obtain rfl := Except.ok.inj (hbasket.symm.trans hbasket')
        obtain rfl := AssetInfo.nativeToken.inj (hdenom.symm.trans hdenom')
        rw [paymentMsgs_cons_pos hpositive, hmsgs basket denom hbasket hdenom]
      · intro hnone
        rw [List.sum_cons] at hnone
        omega
    case isFalse hskipped =>
      simp only [bind_eq_ok, pure_eq_ok, Prod.mk.injEq] at done
      obtain ⟨⟨others, rest', msgs'⟩, hrest, rfl, rfl, rfl⟩ := done
      have hzero : min recipient.amount amount = 0 := by
        by_contra hpositive
        exact hskipped (by omega)
      obtain ⟨rfl, rfl, hmsgs, hnone, hsome⟩ := ih hrest
      rw [hzero]
      simp only [List.zipWith_cons_cons, List.sum_cons, paymentMsgs_cons_zero, Nat.sub_zero,
        Nat.zero_add]
      exact ⟨trivial, trivial, hmsgs, hnone, hsome⟩

/-! ## One swap -/

theorem paymentMsgs_nothing {α : Type} (msg : α → Nat → CosmosMsg OutMsg) (list : List α)
    {paid : List Nat} (nothing : paid.sum = 0) : paymentMsgs msg list paid = [] := by
  refine List.filterMap_eq_nil_iff.mpr fun entry hmem => ?_
  have hshare : entry.2 ∈ paid := (List.of_mem_zip hmem).2
  rw [if_pos (List.sum_eq_zero_iff_forall_eq_nat.mp nothing _ hshare)]

/-- None of the subtractions of a swap is of more than there is: neither those from the
    debts and from the coin, nor those that make up the remaining total. -/
structure NoUnderflow (deps : Deps) (config : Config) (auction : DebtAuction) (coin : Coin) :
    Prop where
  repaid_le : List.Forall₂ (· ≤ ·) (auction.repaid coin.amount)
    (auction.repaymentPositions.map RepayPosition.repayment)
  sent_le : List.Forall₂ (· ≤ ·) (auction.sent coin.amount)
    (auction.sendTo.map AuctionRecipient.amount)
  kept_le : auction.kept coin.amount ≤ coin.amount
  remaining : ∀ recipients overpay msgs,
    payRecipients deps config auction.sendTo
      (repayPositions config coin.denom auction.repaymentPositions coin.amount).2.1 =
        .ok (recipients, overpay, msgs) →
    ∃ kept left, subUint coin.amount overpay = (.ok kept : Result Nat) ∧
      subUint auction.remainingRecapitalization kept = (.ok left : Result Nat)

/-- What a swap of a coin does: the shares of positions and recipients and the refund make
    up the coin, a message goes out for each of them, and each list is lowered by its
    shares. -/
structure Split (deps : Deps) (config : Config) (auction : DebtAuction) (sender : Addr)
    (coin : Coin)
    (refund : Nat) (s' : State) (response : Response OutMsg) : Prop where
  exact : (auction.repaid coin.amount).sum + (auction.sent coin.amount).sum + refund = coin.amount
  messages : ∃ minted denom,
    response = Response.addMessages {} ([mintMsg config sender minted] ++
      paymentMsgs (repayMsg config coin.denom) auction.repaymentPositions
        (auction.repaid coin.amount) ++
      paymentMsgs (sendMsg denom) auction.sendTo (auction.sent coin.amount) ++
      refundMsgs coin.denom sender refund) ∧
    ((auction.sent coin.amount).sum ≠ 0 → ∃ basket,
      deps.basket config.positionsContract = .ok basket ∧
        basket.creditAsset.info = .nativeToken denom)
  stored : s'.debtAuction =
    if (auction.pay coin.amount).remainingRecapitalization = 0 then none
    else some (auction.pay coin.amount)
  repayments : ((auction.pay coin.amount).repaymentPositions.map RepayPosition.repayment).sum +
    (auction.repaid coin.amount).sum =
      (auction.repaymentPositions.map RepayPosition.repayment).sum
  recipients : ((auction.pay coin.amount).sendTo.map AuctionRecipient.amount).sum +
    (auction.sent coin.amount).sum = (auction.sendTo.map AuctionRecipient.amount).sum

namespace DebtAuction

theorem pay_repayments (auction : DebtAuction) (amount : Nat) :
    ((auction.pay amount).repaymentPositions.map RepayPosition.repayment).sum +
      (auction.repaid amount).sum =
        (auction.repaymentPositions.map RepayPosition.repayment).sum := by
  rw [pay, sum_filter_ne_zero, List.map_zipWith]
  have hlowered := lowered_sum (auction.repaymentPositions.map RepayPosition.repayment) amount
  rw [lowered, List.zipWith_map_left] at hlowered
  exact hlowered

theorem pay_recipients (auction : DebtAuction) (amount : Nat) :
    ((auction.pay amount).sendTo.map AuctionRecipient.amount).sum + (auction.sent amount).sum =
      (auction.sendTo.map AuctionRecipient.amount).sum := by
  rw [pay, List.map_zipWith]
  have hlowered := lowered_sum (auction.sendTo.map AuctionRecipient.amount)
    (amount - (auction.repaid amount).sum)
  rw [lowered, List.zipWith_map_left] at hlowered
  exact hlowered

theorem pay_owed (auction : DebtAuction) (amount : Nat) :
    (auction.pay amount).owed + auction.kept amount = auction.owed := by
  have hrepayments := auction.pay_repayments amount
  have hrecipients := auction.pay_recipients amount
  rw [owed, owed, kept]
  omega

end DebtAuction

section

variable {deps : Deps} {env : Env} {info : MessageInfo} {s s' : State} {response : Response OutMsg}
  {auction : DebtAuction}

theorem payments_spec {config : Config} {denom : String} {amount overpay : Nat}
    {recipients : List AuctionRecipient} {msgs : List (CosmosMsg OutMsg)}
    (done : payRecipients deps config auction.sendTo
      (repayPositions config denom auction.repaymentPositions amount).2.1 =
        .ok (recipients, overpay, msgs)) :
    recipients = (auction.pay amount).sendTo ∧ overpay = amount - auction.kept amount ∧
      ∃ sendDenom, msgs = paymentMsgs (sendMsg sendDenom) auction.sendTo (auction.sent amount) ∧
        ((auction.sent amount).sum ≠ 0 → ∃ basket,
          deps.basket config.positionsContract = .ok basket ∧
            basket.creditAsset.info = .nativeToken sendDenom) := by
  rw [repayPositions_shares] at done
  obtain ⟨hrecipients, hoverpay, hmsgs, hnone, hsome⟩ := payRecipients_shares done
  refine ⟨hrecipients, ?_, ?_⟩
  · rw [hoverpay]
    exact Nat.sub_sub _ _ _
  · by_cases hzero : (auction.sent amount).sum = 0
    · refine ⟨"", ?_, fun h => absurd hzero h⟩
      rw [paymentMsgs_nothing _ _ hzero]
      exact hnone hzero
    · obtain ⟨basket, sendDenom, hbasket, hdenom⟩ := hsome hzero
      exact ⟨sendDenom, hmsgs basket sendDenom hbasket hdenom, fun _ => ⟨basket, hbasket, hdenom⟩⟩

theorem noUnderflow_of_covered (deps : Deps) (config : Config) (coin : Coin)
    (covered : auction.owed ≤ auction.remainingRecapitalization) :
    NoUnderflow deps config auction coin := by
  have hkept := auction.kept_eq coin.amount
  refine ⟨shares_le _ _, shares_le _ _, ?_, ?_⟩
  · rw [hkept]
    exact Nat.min_le_right _ _
  · intro recipients overpay msgs hpaid
    obtain ⟨-, hover, -⟩ := payments_spec hpaid
    refine ⟨coin.amount - overpay, _, subUint_eq_ok.mpr ⟨by omega, rfl⟩,
      subUint_eq_ok.mpr ⟨?_, rfl⟩⟩
    omega

theorem swapForMbrn_split (done : swapForMbrn deps env info s = .ok (s', response)) :
    ∃ auction coin refund, s.debtAuction = some auction ∧ info.funds = [coin] ∧
      Split deps s.config auction info.sender coin refund s' response := by
  simp only [swapForMbrn, bind_eq_ok, pure_eq_ok, liftStd_eq_ok, ofExcept_eq_ok, ofOption_eq_ok,
    guardErr_eq_ok, subUint_eq_ok, Prod.mk.injEq] at done
  obtain ⟨coin, hcoin, auction, hauction, _, -, amount, hamount, mbrn, -, basket, -, ratio, -,
    mbrnPrice, -, value, -, quotient, -, minted, -, swapAmount, hswap,
    ⟨recipients, overpay, sends⟩, hsends, kept, ⟨hkept, rfl⟩, remaining, ⟨hremaining, rfl⟩,
    refund, hrefund, rfl, rfl⟩ := done
  have hfunds : info.funds = [coin] := by
    unfold sentCoin at hcoin
    split at hcoin
    case h_1 sent hsent =>
      simp only [liftStd_eq_ok, validateAsset, bind_eq_ok, pure_eq_ok] at hcoin
      obtain ⟨_, -, _, -, rfl⟩ := hcoin
      exact hsent
    case h_2 => simp at hcoin
  obtain rfl := Decimal.fromRatio_one hamount
  obtain rfl : swapAmount = coin.amount := by
    rw [Decimal.mulUint_eq_ok hswap, Nat.one_mul]
    exact Nat.mul_div_cancel _ (by decide)
  obtain ⟨hrecipients, hover, denom, hdenom, hpaid⟩ := payments_spec hsends
  simp only at hkept hremaining hrefund
  have hle : auction.kept coin.amount ≤ coin.amount := by
    rw [auction.kept_eq]
    exact Nat.min_le_right _ _
  have hremains : coin.amount - overpay = auction.kept coin.amount := by omega
  refine ⟨auction, coin, overpay, hauction, hfunds, ?_⟩
  constructor
  case exact =>
    rw [hover]
    unfold DebtAuction.kept at hle ⊢
    omega
  case messages =>
    refine ⟨minted, denom, ?_, hpaid⟩
    have hback : refund = refundMsgs coin.denom info.sender overpay := by
      unfold refundMsgs
      split at hrefund
      case isTrue hzero =>
        rw [if_pos hzero]
        exact (pure_eq_ok.mp hrefund).symm
      case isFalse hsome =>
        simp only [bind_eq_ok, pure_eq_ok, liftStd_eq_ok, withdrawalMsg, Except.ok.injEq] at hrefund
        obtain ⟨_, rfl, rfl⟩ := hrefund
        rw [if_neg hsome]
    simp only [hback, hdenom, repayPositions_shares]
    rfl
  case stored =>
    simp only [hremains, hrecipients, repayPositions_shares]
    rfl
  case repayments => exact auction.pay_repayments coin.amount
  case recipients => exact auction.pay_recipients coin.amount

/-! ## One call -/

def State.toRaise (s : State) : Nat :=
  (s.debtAuction.map DebtAuction.remainingRecapitalization).getD 0

/-- What its positions and recipients are owed. -/
def State.owed (s : State) : Nat := (s.debtAuction.map DebtAuction.owed).getD 0

/-- A running auction is to raise what its positions and recipients are owed. -/
def Settled (s : State) : Prop :=
  ∀ auction, s.debtAuction = some auction → auction.remainingRecapitalization = auction.owed

/-- A running auction is to raise that at least. -/
def Covered (s : State) : Prop :=
  ∀ auction, s.debtAuction = some auction → auction.owed ≤ auction.remainingRecapitalization

theorem settled_iff : Settled s ↔ s.toRaise = s.owed := by
  unfold Settled State.toRaise State.owed
  cases s.debtAuction with
  | none => simp
  | some auction => simp

theorem covered_iff : Covered s ↔ s.owed ≤ s.toRaise := by
  unfold Covered State.toRaise State.owed
  cases s.debtAuction with
  | none => simp
  | some auction => simp

/-- A start of debt names a position or an address that gets it. -/
def NamesOne (s : State) (call : Call) : Prop :=
  match call.msg with
  | .startAuction userInfo sendTo auctionAsset =>
    call.info.funds = [] → auctionAsset.info.toText = s.config.cdtDenom →
      auctionAsset.amount = 0 ∨ userInfo.isSome ∨ sendTo.isSome
  | _ => True

/-- What a call does to both: nothing, an end of the auction, as much less of both, or
    as much more where a start names one. -/
inductive BooksMove (s : State) (call : Call) (s' : State) : Prop
  | same (names : NamesOne s call) (toRaise : s'.toRaise = s.toRaise) (owed : s'.owed = s.owed)
  | ended (names : NamesOne s call) (none : s'.debtAuction = none)
  | paid (names : NamesOne s call) (amount : Nat) (toRaise : s'.toRaise = s.toRaise - amount)
      (owed : s'.owed + amount = s.owed)
  | named (names : NamesOne s call) (amount : Nat) (toRaise : s'.toRaise = s.toRaise + amount)
      (owed : s'.owed = s.owed + amount)
  | unnamed (names : ¬ NamesOne s call) (amount : Nat) (positive : amount ≠ 0)
      (toRaise : s'.toRaise = s.toRaise + amount) (owed : s'.owed = s.owed)

theorem addDebt_owed {amount : Nat} {sendAddr : Option Addr} {userInfo : Option UserInfo} :
    (addDebt amount sendAddr userInfo auction).owed =
      auction.owed + (if userInfo.isSome then amount else 0) +
        (if sendAddr.isSome then amount else 0) := by
  simp only [addDebt, DebtAuction.owed, List.map_append, List.sum_append]
  cases userInfo <;> cases sendAddr <;> simp <;> omega

theorem startDebtAuction_spec {userInfo : Option UserInfo} {sendTo : Option String} {amount : Nat}
    (done : startDebtAuction deps env userInfo sendTo amount s = .ok s') :
    s'.toRaise = s.toRaise + amount ∧
      s'.owed = s.owed + (if userInfo.isSome ∨ sendTo.isSome then amount else 0) := by
  simp only [startDebtAuction, bind_eq_ok, guardErr_eq_ok, pure_eq_ok] at done
  obtain ⟨_, hone, sendAddr, hsend, auction, hauction, rfl⟩ := done
  have hsame : sendAddr.isSome = sendTo.isSome := by
    split at hsend
    · simp only [bind_eq_ok, pure_eq_ok] at hsend
      obtain ⟨_, -, rfl⟩ := hsend
      rfl
    · rw [← pure_eq_ok.mp hsend]
  have hstart : auction.remainingRecapitalization = s.toRaise + amount ∧ auction.owed = s.owed := by
    unfold State.toRaise State.owed
    split at hauction
    case h_1 old hold =>
      simp only [bind_eq_ok, pure_eq_ok] at hauction
      obtain ⟨remaining, hremaining, rfl⟩ := hauction
      rw [hold]
      exact ⟨(Uint128.add_eq_ok.mp hremaining).2.symm, rfl⟩
    case h_2 hnone =>
      rw [hnone, ← pure_eq_ok.mp hauction]
      simp [DebtAuction.owed]
  constructor
  · exact hstart.1
  · show (addDebt amount sendAddr userInfo auction).owed = _
    rw [addDebt_owed, hstart.2, hsame]
    cases userInfo with
    | none => simp
    | some _ =>
      cases sendTo with
      | none => simp
      | some _ => simp at hone

theorem startAuction_moves {userInfo : Option UserInfo} {sendTo : Option String}
    {auctionAsset : Asset}
    (done : startAuction deps env info userInfo sendTo auctionAsset s = .ok (s', response)) :
    BooksMove s ⟨deps, env, info, .startAuction userInfo sendTo auctionAsset⟩ s' := by
  simp only [startAuction, bind_eq_ok, pure_eq_ok, Prod.mk.injEq] at done
  obtain ⟨_, -, _, hstart, rfl, -⟩ := done
  by_cases hfunds : info.funds = []
  · rw [if_neg (not_not.mpr hfunds)] at hstart
    by_cases hcdt : auctionAsset.info.toText = s.config.cdtDenom
    · rw [if_pos hcdt] at hstart
      obtain ⟨htoRaise, howed⟩ := startDebtAuction_spec hstart
      by_cases hone : userInfo.isSome ∨ sendTo.isSome
      · rw [if_pos hone] at howed
        exact .named (fun _ _ => .inr hone) _ htoRaise howed
      · rw [if_neg hone] at howed
        by_cases hzero : auctionAsset.amount = 0
        · exact .same (fun _ _ => .inl hzero) (by rw [htoRaise, hzero, Nat.add_zero]) howed
        · exact .unnamed (fun h => (h hfunds hcdt).elim hzero hone) _ hzero htoRaise howed
    · rw [if_neg hcdt] at hstart
      rw [← pure_eq_ok.mp hstart]
      exact .same (fun _ h => absurd h hcdt) rfl rfl
  · rw [if_pos hfunds] at hstart
    have hsame : ∀ {s'}, startFeeAuction env info auctionAsset s = .ok s' →
        s'.debtAuction = s.debtAuction := by
      intro s' hfee
      unfold startFeeAuction at hfee
      split at hfee
      · simp only [bind_eq_ok, pure_eq_ok] at hfee
        obtain ⟨_, -, _, -, rfl⟩ := hfee
        rfl
      · simp at hfee
    refine .same (fun h => absurd h hfunds) ?_ ?_
    · rw [State.toRaise, hsame hstart, State.toRaise]
    · rw [State.owed, hsame hstart, State.owed]

theorem swapForMbrn_moves (done : swapForMbrn deps env info s = .ok (s', response)) :
    BooksMove s ⟨deps, env, info, .swapForMBRN⟩ s' := by
  obtain ⟨auction, coin, refund, hauction, -, hsplit⟩ := swapForMbrn_split done
  have hstored := hsplit.stored
  by_cases hzero : (auction.pay coin.amount).remainingRecapitalization = 0
  · rw [if_pos hzero] at hstored
    exact .ended trivial hstored
  · rw [if_neg hzero] at hstored
    refine .paid trivial (auction.kept coin.amount) ?_ ?_
    · rw [State.toRaise, State.toRaise, hstored, hauction]
      rfl
    · rw [State.owed, State.owed, hstored, hauction]
      exact auction.pay_owed coin.amount

/-- A successful call. -/
def callStep (s : State) (call : Call) (s' : State) : Prop :=
  ∃ response, execute call.deps call.env call.info call.msg s = .ok (s', response)

theorem Call.exec_step {call : Call} (done : call.exec s = some s') : callStep s call s' := by
  unfold Call.exec at done
  split at done
  case h_1 _ response h =>
    obtain rfl := Option.some.inj done
    exact ⟨response, h⟩
  case h_2 => cases done

theorem step_moves {call : Call} (step : callStep s call s') : BooksMove s call s' := by
  obtain ⟨response, hcall⟩ := step
  obtain ⟨deps, env, info, msg⟩ := call
  cases msg with
  | startAuction userInfo sendTo auctionAsset => exact startAuction_moves hcall
  | swapForMBRN => exact swapForMbrn_moves hcall
  | swapForFee auctionAsset =>
    unfold execute at hcall
    simp only [swapWithTheContractsDesiredAsset, bind_eq_ok, pure_eq_ok, Prod.mk.injEq] at hcall
    obtain ⟨_, -, _, -, _, -, _, -, _, -, _, -, _, -, _, -, rfl, -⟩ := hcall
    exact .same trivial rfl rfl
  | removeAuction =>
    unfold execute at hcall
    simp only [removeAuction, bind_eq_ok, pure_eq_ok, Prod.mk.injEq] at hcall
    obtain ⟨_, -, rfl, -⟩ := hcall
    exact .ended trivial rfl
  | updateConfig update =>
    unfold execute at hcall
    simp only [updateConfig, bind_eq_ok, pure_eq_ok, Prod.mk.injEq] at hcall
    obtain ⟨_, -, _, -, _, -, _, -, _, -, _, -, _, -, _, -, _, -, _, -, _, -, rfl, -⟩ := hcall
    exact .same trivial rfl rfl

theorem BooksMove.covered {call : Call} (moves : BooksMove s call s') (covered : Covered s) :
    Covered s' := by
  rw [covered_iff] at covered
  cases moves with
  | ended _ hnone =>
    intro auction hsome
    rw [hnone] at hsome
    cases hsome
  | same _ htoRaise howed => exact covered_iff.mpr (by omega)
  | paid _ amount htoRaise howed => exact covered_iff.mpr (by omega)
  | named _ amount htoRaise howed => exact covered_iff.mpr (by omega)
  | unnamed _ amount _ htoRaise howed => exact covered_iff.mpr (by omega)

theorem BooksMove.settled_iff {call : Call} (moves : BooksMove s call s') (settled : Settled s) :
    Settled s' ↔ NamesOne s call := by
  rw [Auction.settled_iff] at settled
  cases moves with
  | ended hnames hnone =>
    refine ⟨fun _ => hnames, fun _ auction hsome => ?_⟩
    rw [hnone] at hsome
    cases hsome
  | same hnames htoRaise howed =>
    exact ⟨fun _ => hnames, fun _ => Auction.settled_iff.mpr (by omega)⟩
  | paid hnames amount htoRaise howed =>
    exact ⟨fun _ => hnames, fun _ => Auction.settled_iff.mpr (by omega)⟩
  | named hnames amount htoRaise howed =>
    exact ⟨fun _ => hnames, fun _ => Auction.settled_iff.mpr (by omega)⟩
  | unnamed hnames amount hpositive htoRaise howed =>
    refine ⟨fun hsettled => ?_, fun hnames' => absurd hnames' hnames⟩
    rw [Auction.settled_iff] at hsettled
    omega

/-! ## Runs -/

/-- No swap that starts in the state underflows, and each that succeeds splits its
    coin. -/
def SwapsSplit (s : State) : Prop :=
  (∀ deps auction coin, s.debtAuction = some auction → NoUnderflow deps s.config auction coin) ∧
    ∀ (call : Call) s' response, call.msg = .swapForMBRN →
      execute call.deps call.env call.info call.msg s = .ok (s', response) →
      ∃ auction coin refund, s.debtAuction = some auction ∧ call.info.funds = [coin] ∧
        Split call.deps s.config auction call.info.sender coin refund s' response

theorem instantiate_idle {msg : InstantiateMsg} {created : State}
    (instantiated : instantiate deps info msg = .ok (created, response)) :
    created.debtAuction = none := by
  simp only [instantiate, bind_eq_ok, pure_eq_ok, Prod.mk.injEq] at instantiated
  obtain ⟨_, -, _, -, _, -, _, -, _, -, _, -, _, -, rfl, -⟩ := instantiated
  rfl

/-- In every reachable state swaps split their coins without an underflow. Where every
    start of debt has named who gets it, what there is to raise is what is owed, and the
    next call leaves it so exactly when it does as well. -/
theorem debt_auction_settled {msg : InstantiateMsg} {created s : State}
    (instantiated : instantiate deps info msg = .ok (created, response)) :
    (RunWhere callStep (fun _ _ => True) created s → SwapsSplit s) ∧
      (RunWhere callStep NamesOne created s → Settled s ∧
        ∀ call s', callStep s call s' → (Settled s' ↔ NamesOne s call)) := by
  have hidle := instantiate_idle instantiated
  constructor
  · intro run
    have hstart : Covered created := by
      intro auction hsome
      rw [hidle] at hsome
      cases hsome
    have hkeeps : ∀ s call s', Covered s → True → callStep s call s' → Covered s' :=
      fun _ _ _ hcovered _ hstep => (step_moves hstep).covered hcovered
    have hcovered := RunWhere.keeps hkeeps run hstart
    refine ⟨?_, ?_⟩
    · intro deps auction coin hauction
      exact noUnderflow_of_covered deps s.config coin (hcovered auction hauction)
    · intro call s' response hmsg hcall
      rw [hmsg] at hcall
      exact swapForMbrn_split hcall
  · intro run
    have hstart : Settled created := by
      intro auction hsome
      rw [hidle] at hsome
      cases hsome
    have hkeeps : ∀ s call s', Settled s → NamesOne s call → callStep s call s' → Settled s' :=
      fun _ _ _ hsettled hnames hstep => ((step_moves hstep).settled_iff hsettled).mpr hnames
    have hsettled := RunWhere.keeps hkeeps run hstart
    exact ⟨hsettled, fun _ _ hstep => (step_moves hstep).settled_iff hsettled⟩

end

/-! ## On the sample chain -/

theorem afterGenesis_spec {calls : List Call} {s : State} (done : afterGenesis calls = some s) :
    ∃ created response, instantiate atPar (MessageInfo.noFunds "gov") genesis =
      .ok (created, response) ∧ execAll Call.exec calls created = some s := by
  unfold afterGenesis at done
  split at done
  case h_1 created response h => exact ⟨created, response, h, done⟩
  case h_2 => cases done

def startedRepayment (amount : Nat) : Call :=
  ⟨atPar, ⟨0, "auction"⟩, MessageInfo.noFunds "gov",
    .startAuction (some ⟨1, "user"⟩) none ⟨.nativeToken "ucdt", amount⟩⟩

theorem debt_auction_settled_partial :
    ∃ s, afterGenesis [startedAuction 10000000, startedRepayment 5000000,
        sampleSwap 8000000 (by decide)] = some s ∧
      s.debtAuction = some ⟨7000000, [], [⟨7000000, "treasury"⟩], 0⟩ ∧ Settled s ∧
        SwapsSplit s := by
  have hauction : (afterGenesis [startedAuction 10000000, startedRepayment 5000000,
      sampleSwap 8000000 (by decide)]).map State.debtAuction =
        some (some ⟨7000000, [], [⟨7000000, "treasury"⟩], 0⟩) := by
    decide +kernel
  obtain ⟨s, hs, hauction⟩ := Option.map_eq_some_iff.mp hauction
  obtain ⟨created, response, hcreated, hrun⟩ := afterGenesis_spec hs
  have hnames : ∀ call ∈ [startedAuction 10000000, startedRepayment 5000000,
      sampleSwap 8000000 (by decide)], ∀ s, NamesOne s call := by
    intro call hcall s
    simp only [List.mem_cons, List.not_mem_nil, or_false] at hcall
    rcases hcall with rfl | rfl | rfl
    · exact fun _ _ => .inr (.inr rfl)
    · exact fun _ _ => .inr (.inl rfl)
    · trivial
  have hruns : RunWhere callStep NamesOne created s :=
    execAll_run (fun _ _ _ => Call.exec_step) hnames hrun
  obtain ⟨hsplit, hsettled⟩ := debt_auction_settled hcreated
  exact ⟨s, hs, hauction, (hsettled hruns).1, hsplit (hruns.mono fun _ _ _ _ _ => trivial)⟩

/-- What there is to raise is not what is owed in every reachable state: governance starts
    an auction of debt and names no one. -/
theorem debt_auction_not_settled :
    ¬ ∀ calls s, afterGenesis calls = some s → Settled s := by
  intro claim
  have hauction : (afterGenesis [⟨atPar, ⟨0, "auction"⟩, MessageInfo.noFunds "gov",
      .startAuction none none ⟨.nativeToken "ucdt", 100⟩⟩]).map State.debtAuction =
        some (some ⟨100, [], [], 0⟩) := by
    decide +kernel
  obtain ⟨s, hs, hauction⟩ := Option.map_eq_some_iff.mp hauction
  have hsettled := claim _ s hs _ hauction
  exact absurd hsettled (by decide)

end Membrane.Auction
