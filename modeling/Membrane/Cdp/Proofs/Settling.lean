import Membrane.Cdp.Proofs.Calls
import Membrane.Cdp.Proofs.Callbacks

/-!
# What a whole liquidation writes

The stages of a liquidation as one transaction: the liquidation itself, the payment
for the owner, the replies of the queue and the pool's own payment. The first two
act on what is stored; the last two act on the propagation, and one write of theirs
at the end replaces the stored position and the books of the basket.
-/

namespace Membrane.Cdp

open Outcome

/-! ## The payment for the owner -/

/-- What a payment of the stability pool for the owner did to the stored position. -/
structure OwnerRepaid (s s' : State) (owner : Addr) (stored : Position) (paid : Nat) : Prop where
  write : RepayWrite s.positions s'.positions owner stored
    { stored with creditAmount := stored.creditAmount - min paid stored.creditAmount }
  credit : s'.basket.creditAsset = { s.basket.creditAsset with
    amount := s.basket.creditAsset.amount - min paid stored.creditAmount }
  currentPositionId : s'.basket.currentPositionId = s.basket.currentPositionId
  liquidation : s'.liquidation = s.liquidation
  config : s'.config = s.config

theorem oneCoin_sent {assetInfo : AssetInfo} {sender : Addr} {coin : Coin}
    {positive : 0 < coin.amount}
    {asset : Asset}
    (done : assertSentNativeTokenBalance assetInfo (MessageInfo.oneCoin sender coin positive) =
      .ok asset) : asset.amount = coin.amount := by
  unfold assertSentNativeTokenBalance at done
  split at done
  case h_1 => simp at done
  case h_2 denom =>
    split at done
    case h_1 => simp at done
    case h_2 found hfind =>
      simp only [bind_eq_ok, pure_eq_ok] at done
      obtain ⟨_, _, rfl⟩ := done
      have hmem := List.mem_of_find?_eq_some hfind
      rw [List.mem_singleton.mp hmem]

theorem carryRepay_spec {env : Env} {pool : Addr} {positionId : Nat} {owner : String}
    {repayment : Asset} {p p' : Progress} (isPool : p.state.config.stabilityPool = some pool)
    (done : carryRepay env pool ⟨positionId, owner⟩ repayment p = some p') :
    ∃ payment stored i, p.answers.userRepay = some payment ∧
      payment.coin.amount ≤ repayment.amount ∧
      getTargetPosition p.state owner positionId = .ok (i, stored) ∧
      OwnerRepaid p.state p'.state owner stored payment.coin.amount ∧
      p' = { p with state := p'.state, answers := { p.answers with userRepay := none } } := by
  unfold carryRepay at done
  split at done
  case h_1 => cases done
  case h_2 payment hpayment =>
    split at done
    case isFalse => cases done
    case isTrue hbound =>
      split at done
      case h_2 => cases done
      case h_1 s' response hrepay =>
        obtain rfl := Option.some.inj done
        simp only [execute, executeRepay, bind_eq_ok, liftStd_eq_ok] at hrepay
        obtain ⟨asset, hasset, hrepay⟩ := hrepay
        obtain ⟨owner', position, charged, basket, paid, howner, ⟨i, htarget⟩, repaid, -⟩ :=
          repay_spec hrepay
        obtain rfl : owner = owner' := (Deps.addrValidate_eq_ok.mp howner).2
        obtain ⟨prices, haccrue⟩ := repaid.accrued
        -- no interest accrues when the pool repays
        have hsender : ¬ (MessageInfo.oneCoin pool payment.coin payment.positive).sender ≠
            addrOr p.state.config.stabilityPool := by
          rw [isPool]
          exact not_not.mpr rfl
        rw [accrueForRepay, if_neg hsender] at haccrue
        obtain ⟨-, rfl, rfl⟩ := by simpa only [pure_eq_ok, Prod.mk.injEq] using haccrue
        have hwrite := repaid.write
        have hcredit := repaid.credit
        rw [oneCoin_sent hasset] at hwrite hcredit
        exact ⟨payment, position, i, hpayment, hbound.2, htarget, ⟨hwrite, hcredit,
          repaid.currentPositionId, repaid.liquidation, repaid.config⟩, rfl⟩

/-! ## The replies of the queue -/

def queueRepaid (answers : List QueueAnswer) : Nat := (answers.map (·.event.repayAmount)).sum

def queueSent (answers : List QueueAnswer) : List Coin := answers.map (·.event.coin)

def queueTaken (answers : List QueueAnswer) : List Coin := answers.flatMap (·.event.taken)

/-- Nothing of a transaction's other answers is used up; coins are sent. -/
structure OnlySent (p p' : Progress) (coins : List Coin) : Prop where
  userRepay : p'.answers.userRepay = p.answers.userRepay
  liqRepay : p'.answers.liqRepay = p.answers.liqRepay
  sent : p'.sent = p.sent ++ coins
  liqRepaid : p'.liqRepaid = p.liqRepaid

theorem OnlySent.trans {p₁ p₂ p₃ : Progress} {coins coins' : List Coin} (h : OnlySent p₁ p₂ coins)
    (h' : OnlySent p₂ p₃ coins') : OnlySent p₁ p₃ (coins ++ coins') :=
  ⟨h'.userRepay.trans h.userRepay, h'.liqRepay.trans h.liqRepay,
    by rw [h'.sent, h.sent, List.append_assoc], h'.liqRepaid.trans h.liqRepaid⟩

/-- What the replies to `taken` did, from the propagation `prop` to `prop'`. -/
structure QueueDone (p p' : Progress) (prop prop' : LiquidationPropagation)
    (taken : List QueueAnswer) : Prop where
  queue : p.answers.queue = taken ++ p'.answers.queue
  rest : OnlySent p p' (queueSent taken)
  liquidation : p'.state.liquidation = some prop'
  errand : SameErrand prop prop'
  positionId : prop'.targetPosition.positionId = prop.targetPosition.positionId
  kinds : collateralKinds prop'.targetPosition = collateralKinds prop.targetPosition
  credit : prop'.targetPosition.creditAmount + queueRepaid taken = prop.targetPosition.creditAmount
  collateral : ∀ info, amountOf info prop'.targetPosition.held + coinsOf info (queueTaken taken) =
    amountOf info prop.targetPosition.held
  stored : taken ≠ [] → prop.stabilityPool ≤ Decimal.one →
    Saved p.state.positions p'.state.positions prop.positionOwner prop'.targetPosition ∧
      SameBooks prop.basket p'.state.basket
  pending : taken = [] ∨ Decimal.one < prop.stabilityPool →
    p'.state.positions = p.state.positions ∧ p'.state.basket = p.state.basket
  config : p'.state.config = p.state.config

theorem carryOut_ask {env : Env} {basket : Basket} {sub : SubMsg OutMsg} {p : Progress}
    (ask : IsAsk basket sub) : carryOut env p sub = carryAsk env liqQueueReplyId p := by
  obtain ⟨queue, price, amount, kind, -, rfl⟩ := ask
  rfl

theorem carryAsk_spec {env : Env} {p p' : Progress} {prop : LiquidationPropagation}
    (sound : p.state.Sound) (left : p.state.liquidation = some prop)
    (done : carryAsk env liqQueueReplyId p = some p') :
    ∃ answer prop' response, p.answers.queue = answer :: p'.answers.queue ∧
      p'.state.liquidation = some prop' ∧
      Replied p.state p'.state answer.event prop prop' response ∧
      OnlySent p p' [answer.event.coin] := by
  unfold carryAsk at done
  split at done
  case h_1 => cases done
  case h_2 answer rest hqueue =>
    split at done
    case h_2 => cases done
    case h_1 s' response hreply =>
      obtain rfl := Option.some.inj done
      rw [reply, if_pos rfl] at hreply
      obtain ⟨event, prop', hevent, hprop', replied⟩ := handleLiqQueueReply_spec sound left hreply
      obtain rfl := Option.some.inj hevent
      exact ⟨answer, prop', response, hqueue, hprop', replied, rfl, rfl,
        congrArg (p.sent ++ ·) replied.sent, rfl⟩

theorem carryAsks_spec {env : Env} {basket : Basket} : ∀ {asks : List (SubMsg OutMsg)}
    {p p' : Progress} {prop : LiquidationPropagation}, (∀ sub ∈ asks, IsAsk basket sub) →
      asks.length = prop.perAssetRepayment.length → p.state.Sound →
      p.state.liquidation = some prop → asks.foldlM (carryOut env) p = some p' →
      ∃ taken prop', taken.length = asks.length ∧ QueueDone p p' prop prop' taken := by
  intro asks
  induction asks with
  | nil =>
    intro p p' prop _ _ _ left done
    obtain rfl : p = p' := by simpa using done
    exact ⟨[], prop, rfl, rfl, ⟨rfl, rfl, (List.append_nil _).symm, rfl⟩, left,
      ⟨rfl, rfl, rfl, rfl⟩, rfl, rfl, rfl, fun _ => rfl, fun h => absurd rfl h,
      fun _ => ⟨rfl, rfl⟩, rfl⟩
  | cons ask rest ih =>
    intro p p' prop hasks count sound left done
    simp only [List.foldlM_cons, Option.bind_eq_bind, Option.bind_eq_some_iff] at done
    obtain ⟨mid, hstep, hrest⟩ := done
    rw [carryOut_ask (hasks ask List.mem_cons_self)] at hstep
    obtain ⟨answer, prop₁, response, hqueue, left₁, replied, hmid⟩ :=
      carryAsk_spec sound left hstep
    have hcounter := replied.counter
    have hrecorded := replied.recorded
    cases rest with
    | nil =>
      obtain rfl : mid = p' := by simpa using hrest
      have hone : prop.perAssetRepayment.length = 1 := count.symm
      refine ⟨[answer], prop₁, rfl, hqueue, hmid, left₁, replied.errand, hrecorded.positionId,
        hrecorded.kinds, ?_, ?_, ?_, ?_, replied.config⟩
      · simpa [queueRepaid] using hrecorded.credit
      · simpa [queueTaken] using hrecorded.collateral
      · exact fun _ hle => replied.stored ⟨hone, hle⟩
      · intro h
        have hlt := h.resolve_left (by simp)
        exact replied.pending fun last => absurd hlt (Nat.not_lt.mpr last.2)
    | cons next rest =>
      have hmore : ¬ (prop.perAssetRepayment.length = 1 ∧ prop.stabilityPool ≤ Decimal.one) := by
        rintro ⟨hone, -⟩
        rw [hone] at count
        simp at count
      obtain ⟨hpositions, hbasket⟩ := replied.pending hmore
      have sound₁ : mid.state.Sound := by
        rw [State.Sound, hpositions, hbasket]
        exact sound
      have count₁ : (next :: rest).length = prop₁.perAssetRepayment.length := by
        simp only [List.length_cons] at count ⊢
        omega
      obtain ⟨taken, prop', hlength, run⟩ := ih (fun sub hmem =>
        hasks sub (List.mem_cons_of_mem ask hmem)) count₁ sound₁ left₁ hrest
      have hne : taken ≠ [] := by
        intro hnil
        rw [hnil] at hlength
        cases hlength
      refine ⟨answer :: taken, prop', by simp [hlength], ?_, ?_, run.liquidation, ?_, ?_, ?_, ?_,
        ?_, ?_, ?_, ?_⟩
      · rw [hqueue, run.queue, List.cons_append]
      · exact hmid.trans run.rest
      · exact replied.errand.trans run.errand
      · exact run.positionId.trans hrecorded.positionId
      · exact run.kinds.trans hrecorded.kinds
      · have hhead := hrecorded.credit
        have htail := run.credit
        simp only [queueRepaid, List.map_cons, List.sum_cons] at htail ⊢
        omega
      · intro info
        have hhead := hrecorded.collateral info
        have htail := run.collateral info
        simp only [queueTaken, List.flatMap_cons, coinsOf_append] at htail ⊢
        omega
      · intro _ hle
        have hstored := run.stored hne (replied.errand.stabilityPool ▸ hle)
        rw [hpositions, replied.errand.owner, replied.errand.basket] at hstored
        exact hstored
      · intro h
        have hlt := h.resolve_left (by simp)
        have hpending := run.pending (.inr (replied.errand.stabilityPool ▸ hlt))
        exact ⟨hpending.1.trans hpositions, hpending.2.trans hbasket⟩
      · exact run.config.trans replied.config

/-! ## The pool's own payment -/

theorem carryLiqRepay_spec {env : Env} {pool : Addr} {amount : Decimal} {p p' : Progress}
    {prop : LiquidationPropagation} (sound : p.state.Sound)
    (left : p.state.liquidation = some prop)
    (done : carryLiqRepay env pool amount p = some p') :
    ∃ payment repaid forgiven target response, p.answers.liqRepay = some payment ∧
      PoolRepaid p.state p'.state prop payment.coin.amount repaid forgiven target response ∧
      p' = { p with
        state := p'.state
        answers := { p.answers with liqRepay := none }
        sent := p.sent ++ coinsIn distributedCoinsOf response
        liqRepaid := p.liqRepaid + repaid } := by
  unfold carryLiqRepay at done
  split at done
  case h_1 => cases done
  case h_2 payment hpayment =>
    split at done
    case isFalse => cases done
    case isTrue =>
      split at done
      case h_2 => cases done
      case h_1 s' response hrepay =>
        obtain rfl := Option.some.inj done
        have hpool :
            liqRepay payment.deps env (MessageInfo.oneCoin pool payment.coin payment.positive)
            ⟨.nativeToken payment.coin.denom, payment.coin.amount⟩ p.state = .ok (s', response) :=
          hrepay
        obtain ⟨repaid, forgiven, target, -, hrepaid⟩ := liqRepay_spec sound left hpool
        refine ⟨payment, repaid, forgiven, target, response, hpayment, hrepaid, ?_⟩
        rw [hrepaid.consumed]

/-! ## All repayments -/

/-- The owner's stage of a liquidation: the pool is not asked to repay for the owner,
    or it does. -/
inductive OwnerStage (covers : Prop) (s s' : State) (owner : Addr) (positionId due : Nat) :
    Option Payment → Prop
  | idle (same : s' = s) : OwnerStage covers s s' owner positionId due none
  | repaid (payment : Payment) (i : Nat) (stored : Position)
      (bound : covers ∨ payment.coin.amount < due)
      (found : getTargetPosition s owner positionId = .ok (i, stored))
      (write : OwnerRepaid s s' owner stored payment.coin.amount) :
      OwnerStage covers s s' owner positionId due (some payment)

/-- What the queue and the pool made of the propagation's position: `target`, of whose
    debt the pool repaid `liqRepaid`, and of whose collateral it is given
    `distributed`. -/
structure RestWritten (s : State) (p : Progress) (prop : LiquidationPropagation)
    (queue : List QueueAnswer) (pool : Option Payment) (target : Position) (forgiven : Nat)
    (distributed : List Coin) : Prop where
  used : queue ≠ [] ∨ pool ≠ none
  saved : Saved s.positions p.state.positions prop.positionOwner target
  positionId : target.positionId = prop.targetPosition.positionId
  kinds : collateralKinds target = collateralKinds prop.targetPosition
  credit : target.creditAmount + queueRepaid queue + p.liqRepaid + forgiven =
    prop.targetPosition.creditAmount
  atMostOne : forgiven ≤ 1
  exact : pool = none → forgiven = 0
  collateral : ∀ info, amountOf info target.held +
    coinsOf info (queueTaken queue ++ distributed) = amountOf info prop.targetPosition.held
  sent : p.sent = queueSent queue ++ distributed
  basket : p.state.basket.creditAsset.amount + p.liqRepaid = prop.basket.creditAsset.amount
  currentPositionId : p.state.basket.currentPositionId = prop.basket.currentPositionId

/-- The rest of the repayments: nobody is asked, or the last to answer writes. -/
inductive RestStage (s : State) (p : Progress) (prop : LiquidationPropagation)
    (queue : List QueueAnswer) (pool : Option Payment) : Prop
  | unwritten (noQueue : queue = []) (noPool : pool = none) (same : p.state = s)
      (sent : p.sent = []) (liqRepaid : p.liqRepaid = 0)
  | written (target : Position) (forgiven : Nat) (distributed : List Coin)
      (write : RestWritten s p prop queue pool target forgiven distributed)

/-- What a liquidation and all its repayments did: the liquidation led to `s₀`, the
    owner's stage to `s₁`. -/
structure Repayments (l : Liquidation) (s : State) (p : Progress) (position : Position) (due : Nat)
    (msgs : LiquidationMsgs) (prop : LiquidationPropagation) (s₀ s₁ : State) : Prop where
  first : ∃ response, liquidate l.deps l.env l.info l.positionId l.positionOwner s =
    .ok (s₀, response)
  liquidated : ∃ response, Liquidated l.deps l.env l.info.sender s s₀ l.positionId l.positionOwner
    position prop due msgs response
  left : s₀.liquidation = some prop
  owner : OwnerStage (OwnerCovers l.deps l.env s position l.positionOwner) s₀ s₁ l.positionOwner
    l.positionId due l.answers.userRepay
  asked : l.answers.queue.length = msgs.asks.length
  unasked : msgs.pool = [] → l.answers.liqRepay = none
  rest : RestStage s₁ p prop l.answers.queue l.answers.liqRepay
  config : p.state.config = s.config

theorem Liquidated.split {deps : Deps} {env : Env} {caller : Addr} {s s' : State}
    {positionId due : Nat} {positionOwner : String} {position : Position}
    {prop : LiquidationPropagation} {msgs : LiquidationMsgs} {response : Response OutMsg}
    (liquidated : Liquidated deps env caller s s' positionId positionOwner position prop due msgs
      response) :
    response.messages.takeWhile isRepayment = msgs.owing ++ msgs.asks ++ msgs.pool ∧
      response.messages.dropWhile isRepayment =
        msgs.closing env caller s.config positionId prop.positionOwner := by
  have hall : ∀ sub ∈ msgs.owing ++ msgs.asks ++ msgs.pool, isRepayment sub = true := by
    intro sub hmem
    simp only [List.mem_append] at hmem
    rcases hmem with (howing | hask) | hpool
    · rcases liquidated.owing with hnone | ⟨_, _, -, hone, -⟩
      · rw [hnone] at howing
        cases howing
      · rw [hone, List.mem_singleton] at howing
        rw [howing]
        rfl
    · obtain ⟨_, _, _, _, -, rfl⟩ := liquidated.asks.2 sub hask
      rfl
    · rcases liquidated.pool with ⟨-, hnone⟩ | ⟨-, _, -, hone⟩
      · rw [hnone] at hpool
        cases hpool
      · rw [hone, List.mem_singleton] at hpool
        rw [hpool]
        rfl
  rw [liquidated.messages, List.takeWhile_append_of_pos hall, List.dropWhile_append_of_pos hall]
  refine ⟨?_, rfl⟩
  rw [show (msgs.closing env caller s.config positionId prop.positionOwner).takeWhile isRepayment =
    [] from rfl, List.append_nil]

theorem LiquidationWrite.sound {covers : Prop} {s s' : State} {owner : Addr}
    {position target : Position} {due : Nat}
    (write : LiquidationWrite covers s s' owner position target due) (sound : s.Sound) :
    s'.Sound := by
  cases write with
  | deferred _ same =>
    rw [same]
    exact sound
  | settled _ write books =>
    rw [State.Sound, books.currentPositionId]
    exact write.ids sound

theorem OwnerRepaid.sound {s s' : State} {owner : Addr} {stored : Position} {paid : Nat}
    (repaid : OwnerRepaid s s' owner stored paid) (sound : s.Sound) : s'.Sound := by
  rw [State.Sound, repaid.currentPositionId]
  exact repaid.write.ids sound

theorem carryOwing_spec {covers : Prop} {env : Env} {basket : Basket} {positionId due : Nat}
    {owner : String} {owing : List (SubMsg OutMsg)} {p p' : Progress}
    (one : owing = [] ∨ ∃ address amount, p.state.config.stabilityPool = some address ∧
      owing = [poolRepay address basket positionId owner amount] ∧ (covers ∨ amount < due))
    (done : owing.foldlM (carryOut env) p = some p') :
    p' = p ∨ ∃ payment i stored, p.answers.userRepay = some payment ∧
      (covers ∨ payment.coin.amount < due) ∧
      getTargetPosition p.state owner positionId = .ok (i, stored) ∧
      OwnerRepaid p.state p'.state owner stored payment.coin.amount ∧
      p' = { p with state := p'.state, answers := { p.answers with userRepay := none } } := by
  rcases one with rfl | ⟨address, amount, isPool, rfl, hbound⟩
  · left
    simpa using done.symm
  · right
    have hrepay : carryRepay env address ⟨positionId, owner⟩ ⟨basket.creditAsset.info, amount⟩ p =
        some p' := by
      have hone : (carryOut env p (poolRepay address basket positionId owner amount)) =
          some p' := by
        simpa using done
      exact hone
    obtain ⟨payment, stored, i, hpayment, hle, hfound, hwrite, hp⟩ := carryRepay_spec isPool hrepay
    refine ⟨payment, i, stored, hpayment, ?_, hfound, hwrite, hp⟩
    exact hbound.imp_right fun hlt => Nat.lt_of_le_of_lt hle hlt

theorem carryRest_spec {env : Env} {basket : Basket} {asks pool : List (SubMsg OutMsg)}
    {p₁ p₂ p : Progress} {prop : LiquidationPropagation} (sound : p₁.state.Sound)
    (left : p₁.state.liquidation = some prop) (hasks : ∀ sub ∈ asks, IsAsk basket sub)
    (count : asks.length = prop.perAssetRepayment.length)
    (one : prop.stabilityPool ≤ Decimal.one ∧ pool = [] ∨ Decimal.one < prop.stabilityPool ∧
      ∃ address, pool = [poolAsk address prop.stabilityPool])
    (queue : asks.foldlM (carryOut env) p₁ = some p₂)
    (poolDone : pool.foldlM (carryOut env) p₂ = some p) (unsent : p₁.sent = [])
    (unpaid : p₁.liqRepaid = 0) (spent : p.answers.spent = true) :
    RestStage p₁.state p prop p₁.answers.queue p₁.answers.liqRepay ∧
      p₁.answers.userRepay = none ∧ p₁.answers.queue.length = asks.length ∧
      (pool = [] → p₁.answers.liqRepay = none) ∧ p.state.config = p₁.state.config := by
  obtain ⟨taken, prop', hlength, run⟩ := carryAsks_spec hasks count sound left queue
  simp only [Answers.spent, Bool.and_eq_true, Option.isNone_iff_eq_none, List.isEmpty_iff] at spent
  obtain ⟨⟨huser, hqueue⟩, hpool⟩ := spent
  rcases one with ⟨hle, rfl⟩ | ⟨hlt, address, rfl⟩
  · obtain rfl : p = p₂ := by simpa using poolDone.symm
    have htaken : p₁.answers.queue = taken := by rw [run.queue, hqueue, List.append_nil]
    have hnone : p₁.answers.liqRepay = none := run.rest.liqRepay.symm.trans hpool
    refine ⟨?_, run.rest.userRepay.symm.trans huser, htaken ▸ hlength, fun _ => hnone, run.config⟩
    by_cases hempty : taken = []
    · subst hempty
      obtain rfl : asks = [] := List.length_eq_zero_iff.mp hlength.symm
      obtain rfl : p = p₁ := by simpa using queue.symm
      exact .unwritten htaken hnone rfl unsent unpaid
    · obtain ⟨hsaved, hbooks⟩ := run.stored hempty hle
      refine .written prop'.targetPosition 0 [] {
        used := .inl (htaken ▸ hempty)
        saved := hsaved
        positionId := run.positionId
        kinds := run.kinds
        credit := ?_
        atMostOne := Nat.zero_le 1
        exact := fun _ => rfl
        collateral := ?_
        sent := ?_
        basket := ?_
        currentPositionId := hbooks.currentPositionId }
      · have hcredit := run.credit
        rw [htaken, run.rest.liqRepaid, unpaid]
        exact hcredit
      · intro info
        rw [htaken, List.append_nil]
        exact run.collateral info
      · rw [run.rest.sent, unsent, htaken, List.nil_append, List.append_nil]
      · rw [hbooks.creditAsset, run.rest.liqRepaid, unpaid]
        rfl
  · have hpay : carryLiqRepay env address prop.stabilityPool p₂ = some p := by
      have hone : carryOut env p₂ (poolAsk address prop.stabilityPool) = some p := by
        simpa using poolDone
      exact hone
    obtain ⟨hpositions, hbasket⟩ := run.pending (.inr hlt)
    have hsound : p₂.state.Sound := by
      rw [State.Sound, hpositions, hbasket]
      exact sound
    obtain ⟨payment, repaid, forgiven, target, response, hpayment, paid, hp⟩ :=
      carryLiqRepay_spec hsound run.liquidation hpay
    have hsame : p.answers.queue = p₂.answers.queue := by rw [hp]
    have huser' : p.answers.userRepay = p₂.answers.userRepay := by rw [hp]
    have htaken : p₁.answers.queue = taken := by
      rw [run.queue, ← hsame, hqueue, List.append_nil]
    have hrepaid : p.liqRepaid = repaid := by
      rw [hp]
      simp only [run.rest.liqRepaid, unpaid, Nat.zero_add]
    have hsome : p₁.answers.liqRepay = some payment := run.rest.liqRepay.symm.trans hpayment
    refine ⟨?_, run.rest.userRepay.symm.trans (huser'.symm.trans huser), htaken ▸ hlength,
      fun hnil => (by cases hnil), paid.config.trans run.config⟩
    refine .written target forgiven (coinsIn distributedCoinsOf response) {
      used := .inr (by simp [hsome])
      saved := ?_
      positionId := paid.positionId.trans run.positionId
      kinds := paid.kinds.trans run.kinds
      credit := ?_
      atMostOne := paid.atMostOne
      exact := ?_
      collateral := ?_
      sent := ?_
      basket := ?_
      currentPositionId := ?_ }
    · rw [← hpositions, ← run.errand.owner]
      exact paid.saved
    · have hcredit := run.credit
      have hpaid := paid.credit
      rw [htaken, hrepaid]
      omega
    · intro hnone
      rw [hsome] at hnone
      cases hnone
    · intro info
      have hqueued := run.collateral info
      have hpooled := paid.collateral info
      rw [htaken, coinsOf_append]
      omega
    · rw [hp]
      simp only [run.rest.sent, unsent, htaken, List.nil_append]
    · rw [hrepaid, paid.basket, run.errand.basket]
    · rw [paid.currentPositionId, run.errand.basket]

theorem repayments_spec {l : Liquidation} {s : State} {p : Progress}
    {closing : List (SubMsg OutMsg)} (sound : s.Sound)
    (done : l.repayments s = some (p, closing)) :
    ∃ position due msgs prop s₀ s₁, Repayments l s p position due msgs prop s₀ s₁ ∧
      closing = msgs.closing l.env l.info.sender s.config l.positionId prop.positionOwner := by
  unfold Liquidation.repayments at done
  split at done
  case h_1 => cases done
  case h_2 s₀ response hliquidate =>
    split at done
    case h_1 => cases done
    case h_2 last hrun =>
      split at done
      case isFalse => cases done
      case isTrue hspent =>
        obtain ⟨rfl, rfl⟩ := Prod.mk.inj (Option.some.inj done)
        obtain ⟨position, due, msgs, prop, left, liquidated⟩ := liquidate_spec sound hliquidate
        obtain ⟨htake, hdrop⟩ := liquidated.split
        rw [htake, List.foldlM_append, List.foldlM_append] at hrun
        simp only [Option.bind_eq_bind, Option.bind_eq_some_iff] at hrun
        obtain ⟨p₂, ⟨p₁, howing, hasks⟩, hpool⟩ := hrun
        have sound₀ := liquidated.write.sound sound
        have howner : prop.positionOwner = l.positionOwner :=
          (Deps.addrValidate_eq_ok.mp liquidated.owner).2.symm
        have hone : msgs.owing = [] ∨ ∃ address amount, s₀.config.stabilityPool = some address ∧
            msgs.owing = [poolRepay address s.basket l.positionId l.positionOwner amount] ∧
            (OwnerCovers l.deps l.env s position l.positionOwner ∨ amount < due) := by
          rw [liquidated.config]
          exact liquidated.owing
        have hpoolOne : prop.stabilityPool ≤ Decimal.one ∧ msgs.pool = [] ∨
            Decimal.one < prop.stabilityPool ∧
              ∃ address, msgs.pool = [poolAsk address prop.stabilityPool] :=
          liquidated.pool.imp_right fun h => ⟨h.1, h.2.imp fun _ hset => hset.2⟩
        refine ⟨position, due, msgs, prop, s₀, p₁.state, ?_, hdrop⟩
        -- the rest runs from the same answers, state and propagation in both cases
        rcases carryOwing_spec hone howing with rfl | ⟨payment, i, stored, hpayment, hbound, hfound,
          hwrite, hp⟩
        · obtain ⟨hrest, huser, hasked, hunasked, hconfig⟩ :=
            carryRest_spec sound₀ left liquidated.asks.2
            liquidated.asks.1 hpoolOne hasks hpool rfl rfl hspent
          refine ⟨⟨response, hliquidate⟩, ⟨response, liquidated⟩, left, ?_, hasked, hunasked, hrest,
            hconfig.trans liquidated.config⟩
          rw [show l.answers.userRepay = none from huser]
          exact .idle rfl
        · have sound₁ : p₁.state.Sound := hwrite.sound sound₀
          obtain ⟨hrest, huser, hasked, hunasked, hconfig⟩ :=
            carryRest_spec sound₁ (hwrite.liquidation.trans left)
            liquidated.asks.2 liquidated.asks.1 hpoolOne hasks
              hpool (by rw [hp]) (by rw [hp]) hspent
          rw [hp] at hrest hasked hunasked
          refine ⟨⟨response, hliquidate⟩, ⟨response, liquidated⟩, left, ?_, hasked, hunasked, hrest,
            hconfig.trans (hwrite.config.trans liquidated.config)⟩
          rw [show l.answers.userRepay = some payment from hpayment]
          exact .repaid payment i stored hbound hfound hwrite

end Membrane.Cdp
