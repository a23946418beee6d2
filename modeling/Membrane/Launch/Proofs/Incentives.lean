import Membrane.Launch.Contract
import Membrane.Lib.KeyedList
import Membrane.Lib.ListEdit
import Membrane.Lib.Run
import Membrane.Lib.Shares
import Membrane.Lib.Truncation

/-!
# Deposits and shares of the lockdrop

Until the lockdrop ends, a call moves the deposits of its sender, and keeps what they add up
to but for what it locks and sends back. The tickets are counted once, and the shares of the
incentives by the ratios of the tickets add up to at most all incentives.
-/

namespace Membrane.Launch

open Outcome

/-! ## The lockdrop on the chain -/

/-- The launch contract with the time of the last block, and what each user has locked, was
    sent back and was minted. -/
structure World where
  state : State
  now : Nat
  deposited : Addr → Nat
  withdrawn : Addr → Nat
  minted : Addr → Nat

/-- A new launch contract. -/
def World.new (state : State) (now : Nat) : World :=
  ⟨state, now, fun _ => 0, fun _ => 0, fun _ => 0⟩

/-- What happens: a call of the lockdrop, or another call or a reply, which may change the
    configuration, the addresses and whether the launch has happened. -/
inductive Event where
  | call (env : Env) (info : MessageInfo) (msg : ExecuteMsg)
  | elsewhere (env : Env) (config : Config) (addresses : LaunchAddrs) (launched : Bool)

/-- The time of the block of an event. -/
def Event.time : Event → Nat
  | .call env _ _ => env.blockTime
  | .elsewhere env _ _ _ => env.blockTime

def lockedFunds (info : MessageInfo) : ExecuteMsg → Nat
  | .lock _ => (info.funds.map (·.amount)).sum
  | _ => 0

def sentTo (user : Addr) (msg : SubMsg OutMsg) : Nat :=
  match msg.msg with
  | .bankSend toAddress amount => if toAddress = user then (amount.map (·.amount)).sum else 0
  | _ => 0

def mintedBy (msg : SubMsg OutMsg) : Nat :=
  match msg.msg with
  | .execute _ (.mintTokens _ amount _) _ => amount
  | _ => 0

def World.record (w : World) (env : Env) (info : MessageInfo) (msg : ExecuteMsg) (state : State)
    (response : Response OutMsg) : World where
  state := state
  now := env.blockTime
  deposited user := w.deposited user + if user = info.sender then lockedFunds info msg else 0
  withdrawn user := w.withdrawn user + (response.messages.map (sentTo user)).sum
  minted user := w.minted user +
    if user = info.sender then (response.messages.map mintedBy).sum else 0

/-- The launch contract after an event that succeeds. -/
def World.exec (w : World) : Event → Option World
  | .call env info msg =>
    match execute env info msg w.state with
    | .ok (state, response) => some (w.record env info msg state response)
    | .error _ => none
  | .elsewhere env config addresses launched => some { w with
      now := env.blockTime
      state := { w.state with
        config := config
        addresses := addresses
        lockdrop := { w.state.lockdrop with launched := launched } } }

def eventStep (w : World) (event : Event) (w' : World) : Prop := w.exec event = some w'

/-- The time of the blocks does not go back. -/
def InOrder (w : World) (event : Event) : Prop := w.now ≤ event.time

/-- What a user has locked. -/
def LockedUser.locked (lockedUser : LockedUser) : Nat := (lockedUser.deposits.map (·.deposit)).sum

/-- The deposits of a user. -/
def State.locked (s : State) (user : Addr) : Nat :=
  KeyMap.measureAt LockedUser.locked s.lockedUsers user

/-- A user's share of the incentives, nothing before the ratios are computed. -/
def State.share (s : State) (user : Addr) : Nat :=
  (getUserIncentives s.incentiveRatios user s.lockdrop.numOfIncentives).getD 0

/-- What is unlocked of a user's share at a time. -/
def State.unlockedAt (s : State) (user : Addr) (time : Nat) : Result Nat := do
  let (_, _, _, unlocked) ← unlock time user s
  pure unlocked

/-! ## Deposits -/

section

variable {deposits deposits' : List Lock} {amount lockUpDuration : Nat}

theorem addLock_locked {ε : Type}
    (done : (addLock deposits amount lockUpDuration : Outcome ε (List Lock)) = .ok deposits') :
    (deposits'.map (·.deposit)).sum = (deposits.map (·.deposit)).sum + amount := by
  unfold addLock at done
  split at done
  case h_1 i _ =>
    simp only [bind_eq_ok, index_eq_ok, Uint128.add_eq_ok, setIndex_eq_ok] at done
    obtain ⟨lock, hlock, deposit, ⟨-, rfl⟩, -, rfl⟩ := done
    have hset := ListEdit.sum_set (·.deposit)
      ({ lock with deposit := lock.deposit + amount } : Lock) hlock
    simp only at hset
    omega
  case h_2 =>
    obtain rfl := pure_eq_ok.mp done
    simp

theorem takeLocks_locked (lockUpDuration amount : Nat) (deposits : List Lock) :
    ((takeLocks lockUpDuration amount deposits).1.map (·.deposit)).sum + amount =
      (deposits.map (·.deposit)).sum + (takeLocks lockUpDuration amount deposits).2 := by
  induction deposits generalizing amount with
  | nil => simp [takeLocks]
  | cons lock rest ih =>
    unfold takeLocks
    split
    case isTrue =>
      split
      case isTrue hle =>
        have hrest := ih 0
        simp only [List.map_cons, List.sum_cons]
        omega
      case isFalse hlt =>
        have hrest := ih (amount - lock.deposit)
        simp only [List.map_cons, List.sum_cons]
        omega
    case isFalse =>
      have hrest := ih amount
      simp only [List.map_cons, List.sum_cons]
      omega

end

/-! ## Calls before the end -/

structure Moved (env : Env) (sender : Addr) (s s' : State) (added taken : Nat) : Prop where
  early : env.blockTime ≤ s.lockdrop.depositEnd ∨ env.blockTime ≤ s.lockdrop.withdrawalEnd
  written : ∃ lockedUser : LockedUser,
    s' = { s with lockedUsers := s.lockedUsers.insert sender lockedUser } ∧
    (KeyMap.All (fun key user => user.user = key) s.lockedUsers → lockedUser.user = sender) ∧
    lockedUser.locked + taken = s.locked sender + added ∧
    lockedUser.incentivesWithdrawn =
      KeyMap.measureAt LockedUser.incentivesWithdrawn s.lockedUsers sender

section

variable {env : Env} {info : MessageInfo} {s s' : State} {response : Response OutMsg}

theorem validateLockdropAsset_amount {asset : AssetInfo} {valid : Asset}
    (done : validateLockdropAsset info asset = .ok valid) :
    valid.amount = (info.funds.map (·.amount)).sum := by
  simp only [validateLockdropAsset, bind_eq_ok, guardErr_eq_ok, ofOption_eq_ok, pure_eq_ok] at done
  obtain ⟨_, hlength, coin, hfound, _, -, rfl⟩ := done
  cases hfunds : info.funds with
  | nil => simp [hfunds] at hfound
  | cons head rest =>
    obtain rfl : rest = [] := by
      rw [hfunds, List.length_cons] at hlength
      exact List.eq_nil_of_length_eq_zero (by omega)
    rw [hfunds] at hfound
    obtain rfl := List.mem_singleton.mp (List.mem_of_find?_eq_some hfound)
    simp

theorem Moved.stored {sender : Addr} {lockedUser : LockedUser} {deposits : List Lock}
    {added taken : Nat} (found : s.lockedUsers.lookup sender = some lockedUser)
    (early : env.blockTime ≤ s.lockdrop.depositEnd ∨ env.blockTime ≤ s.lockdrop.withdrawalEnd)
    (moved : (deposits.map (·.deposit)).sum + taken =
      (lockedUser.deposits.map (·.deposit)).sum + added) :
    Moved env sender s { s with
      lockedUsers := s.lockedUsers.insert sender { lockedUser with deposits := deposits } }
      added taken := by
  refine ⟨early, _, rfl, fun hnamed => hnamed sender lockedUser found, ?_, ?_⟩
  · rw [State.locked, KeyMap.measureAt_of_lookup found]
    exact moved
  · rw [KeyMap.measureAt_of_lookup found]

theorem lock_spec {lockUpDuration : Nat}
    (done : lock env info lockUpDuration s = .ok (s', response)) :
    Moved env info.sender s s' (info.funds.map (·.amount)).sum 0 ∧ response.messages = [] := by
  simp only [lock, bind_eq_ok, guardErr_eq_ok, liftStd_eq_ok, pure_eq_ok, Prod.mk.injEq] at done
  obtain ⟨_, hearly, _, -, valid, hvalid, lockedUser, huser, rfl, rfl⟩ := done
  have hamount : valid.amount = (info.funds.map (·.amount)).sum :=
    validateLockdropAsset_amount hvalid
  have htime : env.blockTime ≤ s.lockdrop.depositEnd ∨ env.blockTime ≤ s.lockdrop.withdrawalEnd :=
    .inl (Nat.le_of_not_lt hearly)
  refine ⟨?_, rfl⟩
  split at huser
  case h_1 stored hstored =>
    simp only [bind_eq_ok, pure_eq_ok] at huser
    obtain ⟨deposits, hadded, rfl⟩ := huser
    refine .stored hstored htime ?_
    rw [addLock_locked hadded, hamount, Nat.add_zero]
  case h_2 habsent =>
    obtain rfl := pure_eq_ok.mp huser
    refine ⟨htime, _, rfl, fun _ => rfl, ?_, ?_⟩
    · rw [State.locked, KeyMap.measureAt_of_absent habsent, ← hamount]
      simp [LockedUser.locked]
    · rw [KeyMap.measureAt_of_absent habsent]

theorem changeLockupDuration_spec {uosmoAmount : Option Nat}
    {oldLockUpDuration newLockUpDuration : Nat}
    (done : changeLockupDuration env info uosmoAmount oldLockUpDuration newLockUpDuration s =
      .ok (s', response)) : Moved env info.sender s s' 0 0 ∧ response.messages = [] := by
  simp only [changeLockupDuration, bind_eq_ok, guardErr_eq_ok, ofOption_eq_ok, index_eq_ok,
    subUint_eq_ok, pure_eq_ok, Prod.mk.injEq] at done
  obtain ⟨_, hearly, _, -, lockedUser, hstored, i, -, old, hold, deposit, ⟨hle, rfl⟩, deposits,
    hdeposits, deposits', hadded, rfl, rfl⟩ := done
  generalize (uosmoAmount.elim old.deposit fun amount => min amount old.deposit) = changeAmount at *
  have hsubtracted : (deposits.map (·.deposit)).sum + changeAmount =
      (lockedUser.deposits.map (·.deposit)).sum := by
    split at hdeposits
    case isTrue hzero =>
      obtain ⟨-, rfl⟩ := removeIndex_eq_ok.mp hdeposits
      have herased := ListEdit.sum_eraseIdx (·.deposit) hold
      omega
    case isFalse =>
      obtain ⟨-, rfl⟩ := setIndex_eq_ok.mp hdeposits
      have hset := ListEdit.sum_set (·.deposit)
        ({ old with deposit := old.deposit - changeAmount } : Lock) hold
      simp only at hset
      omega
  refine ⟨.stored hstored (.inl (Nat.le_of_not_lt hearly)) ?_, rfl⟩
  rw [addLock_locked hadded, hsubtracted]

theorem withdraw_spec {withdrawalAmount lockUpDuration : Nat}
    (done : withdraw env info withdrawalAmount lockUpDuration s = .ok (s', response)) :
    Moved env info.sender s s' 0 withdrawalAmount ∧ ∃ denom, response.messages =
      [.new (.bankSend info.sender [⟨denom, withdrawalAmount⟩])] := by
  simp only [withdraw, bind_eq_ok, guardErr_eq_ok, ofOption_eq_ok, liftStd_eq_ok, pure_eq_ok,
    Prod.mk.injEq, Decidable.not_not, not_or] at done
  obtain ⟨_, ⟨-, hearly⟩, lockedUser, hstored, _, hleft, msg, hmsg, rfl, rfl⟩ := done
  have htaken := takeLocks_locked lockUpDuration withdrawalAmount lockedUser.deposits
  constructor
  · refine .stored hstored (.inr (Nat.le_of_not_lt hearly)) ?_
    rw [sum_filter_ne_zero (fun lock : Lock => lock.deposit), htaken, hleft]
  · unfold withdrawalMsg at hmsg
    split at hmsg
    case h_1 denom _ =>
      obtain rfl := pure_eq_ok.mp hmsg
      exact ⟨denom, rfl⟩
    case h_2 => cases hmsg

end

/-! ## The distribution of tickets -/

def Lock.ticketCount (lock : Lock) : Nat := lock.deposit * (lock.lockUpDuration + 1)

def LockedUser.ticketCount (lockedUser : LockedUser) : Nat :=
  (lockedUser.deposits.map Lock.ticketCount).sum

/-- A user with its tickets counted. -/
def LockedUser.counted (lockedUser : LockedUser) : LockedUser :=
  { lockedUser with totalTickets := lockedUser.ticketCount }

section

variable {users users' : KeyMap Addr LockedUser} {lockedUser : LockedUser}

theorem tickets_eq {lock : Lock} {tickets : Nat} (done : lock.tickets = .ok tickets) :
    tickets = lock.ticketCount := by
  simp only [Lock.tickets, bind_eq_ok, Uint64.add_eq_ok, Uint128.mul_eq_ok] at done
  obtain ⟨_, ⟨-, rfl⟩, -, rfl⟩ := done
  rfl

theorem userTotal_eq {total : Addr × Nat} (done : userTotal lockedUser = .ok total) :
    total = (lockedUser.user, lockedUser.ticketCount) := by
  simp only [userTotal, bind_eq_ok, pure_eq_ok] at done
  obtain ⟨tickets, htickets, sum, hsum, rfl⟩ := done
  have hmap : tickets.map id = lockedUser.deposits.map Lock.ticketCount :=
    mapM_map (fun _ _ hlock => tickets_eq hlock) htickets
  rw [List.map_id] at hmap
  rw [Uint128.sum_eq hsum, hmap, LockedUser.ticketCount]

theorem userTotals_eq {l : List LockedUser} {totals : List (Addr × Nat)}
    (done : l.mapM userTotal = .ok totals) :
    totals = l.map fun user => (user.user, user.ticketCount) := by
  have hmap : totals.map id = l.map fun user => (user.user, user.ticketCount) :=
    mapM_map (fun _ _ huser => userTotal_eq huser) done
  rwa [List.map_id] at hmap

theorem setTotalTickets_fold {totals : List (Addr × Nat)}
    (counts : ∀ total ∈ totals, ∀ user, users.lookup total.1 = some user →
      total.2 = user.ticketCount)
    (done : totals.foldlM setTotalTickets users = .ok users') (key : Addr) :
    users'.lookup key = if key ∈ totals.map (·.1) then (users.lookup key).map LockedUser.counted
      else users.lookup key := by
  induction totals generalizing users with
  | nil =>
    obtain rfl := pure_eq_ok.mp done
    simp
  | cons total rest ih =>
    simp only [List.foldlM_cons, bind_eq_ok, setTotalTickets, unwrap_eq_ok, pure_eq_ok] at done
    obtain ⟨_, ⟨user, huser, rfl⟩, hrest⟩ := done
    have hcount : total.2 = user.ticketCount := counts total List.mem_cons_self user huser
    rw [hcount] at hrest
    have hlookup : ∀ key', (users.insert total.1 user.counted).lookup key' =
        if key' = total.1 then (users.lookup key').map LockedUser.counted
        else users.lookup key' := by
      intro key'
      by_cases hsame : key' = total.1
      · rw [hsame, AList.lookup_insert, if_pos rfl, huser, Option.map_some]
      · rw [AList.lookup_insert_ne hsame, if_neg hsame]
    have hrest' := @ih (users.insert total.1 user.counted) (fun later hlater user' huser' => by
      rw [hlookup] at huser'
      have hlater' := counts later (List.mem_cons_of_mem _ hlater)
      split at huser'
      case isTrue =>
        obtain ⟨user'', huser'', rfl⟩ := Option.map_eq_some_iff.mp huser'
        exact hlater' user'' huser''
      case isFalse => exact hlater' user' huser') hrest
    rw [hrest', hlookup, List.map_cons]
    -- counting tickets twice counts them once
    by_cases hhead : key = total.1
    · have hmem : key ∈ total.1 :: rest.map (·.1) := hhead ▸ List.mem_cons_self
      rw [if_pos hhead, if_pos hmem, Option.map_map]
      split
      case isTrue => rfl
      case isFalse => rfl
    · rw [if_neg hhead]
      simp only [List.mem_cons, hhead, false_or]

theorem mem_usersAscending {user : LockedUser} :
    user ∈ usersAscending users ↔ ∃ key, users.lookup key = some user := by
  unfold usersAscending
  rw [List.mem_map]
  constructor
  · rintro ⟨entry, hentry, rfl⟩
    rw [List.mem_insertionSort] at hentry
    exact ⟨entry.1, (AList.mem_lookup_iff).mpr hentry⟩
  · rintro ⟨key, hkey⟩
    refine ⟨⟨key, user⟩, ?_, rfl⟩
    rw [List.mem_insertionSort]
    exact (AList.mem_lookup_iff).mp hkey

theorem calcTicketDistribution_spec {ratios : List UserRatio}
    (named : KeyMap.All (fun key user => user.user = key) users)
    (done : calcTicketDistribution users = .ok (users', ratios)) :
    (∀ key, users'.lookup key = (users.lookup key).map LockedUser.counted) ∧
      (ratios.map (·.ratio.atomics)).sum ≤ Decimal.fractional := by
  simp only [calcTicketDistribution, bind_eq_ok, pure_eq_ok, Prod.mk.injEq] at done
  obtain ⟨totals, htotals, users', hstored, total, htotal, ratios, hratios, rfl, rfl⟩ := done
  obtain rfl := userTotals_eq htotals
  constructor
  · intro key
    rw [setTotalTickets_fold _ hstored]
    · split
      case isTrue => rfl
      case isFalse habsent =>
        cases hlookup : users.lookup key with
        | none => rfl
        | some user =>
          refine absurd ?_ habsent
          rw [List.map_map]
          exact List.mem_map.mpr ⟨user, mem_usersAscending.mpr ⟨key, hlookup⟩,
            named key user hlookup⟩
    · intro entry hentry user huser
      obtain ⟨stored, hstored, rfl⟩ := List.mem_map.mp hentry
      obtain ⟨key, hkey⟩ := mem_usersAscending.mp hstored
      obtain rfl := named key stored hkey
      obtain rfl := Option.some.inj (hkey.symm.trans huser)
      rfl
  · generalize (usersAscending users).map (fun user => (user.user, user.ticketCount)) = totals at *
    have hatomics : ratios.map (·.ratio.atomics) =
        totals.map fun user => user.2 * Decimal.fractional / (totals.map (·.2)).sum := by
      obtain rfl := Uint128.sum_eq htotal
      refine mapM_map (fun user userRatio huser => ?_) hratios
      simp only [bind_eq_ok, pure_eq_ok] at huser
      obtain ⟨_, hpart, _, hwhole, ratio, hratio, rfl⟩ := huser
      rw [Decimal.fromRatio_one hpart, Decimal.fromRatio_one hwhole] at hratio
      obtain ⟨-, rfl⟩ := decimalDivision_whole hratio
      rfl
    rw [hatomics]
    exact sum_shares_le (·.2) totals

end

/-! ## Shares -/

theorem getUserIncentives_eq {ratios : List UserRatio} {user : Addr} {total incentives : Nat}
    (done : getUserIncentives ratios user total = .ok incentives) :
    ∃ userRatio, ratios.find? (fun userRatio => userRatio.user = user) = some userRatio ∧
      incentives = userRatio.ratio.atomics * total / Decimal.fractional := by
  simp only [getUserIncentives, bind_eq_ok, ofOption_eq_ok] at done
  obtain ⟨userRatio, hfound, whole, hwhole, product, hproduct, hincentives⟩ := done
  refine ⟨userRatio, hfound, ?_⟩
  rw [Decimal.fromRatio_one hwhole] at hproduct
  obtain ⟨-, rfl⟩ := decimalMultiplication_eq_ok.mp hproduct
  rw [Decimal.mulUint_eq_ok hincentives, Nat.one_mul, ← Nat.mul_assoc,
    Nat.mul_div_cancel _ (by decide : 0 < Decimal.fractional)]

theorem getUserIncentives_le (ratios : List UserRatio) (user : Addr) (total : Nat) :
    (getUserIncentives ratios user total).getD 0 ≤
      (ratios.find? fun userRatio => userRatio.user = user).elim 0 fun userRatio =>
        userRatio.ratio.atomics * total / Decimal.fractional := by
  cases hdone : getUserIncentives ratios user total with
  | error => exact Nat.zero_le _
  | ok incentives =>
    obtain ⟨userRatio, hfound, hincentives⟩ := getUserIncentives_eq hdone
    rw [hfound]
    exact Nat.le_of_eq hincentives

theorem sum_getUserIncentives_le {ratios : List UserRatio} {users : List Addr} (total : Nat)
    (distinct : users.Nodup) (within : (ratios.map (·.ratio.atomics)).sum ≤ Decimal.fractional) :
    (users.map fun user => (getUserIncentives ratios user total).getD 0).sum ≤ total := by
  calc (users.map fun user => (getUserIncentives ratios user total).getD 0).sum
      ≤ (users.map fun user => (ratios.find? fun userRatio => userRatio.user = user).elim 0
          fun userRatio => userRatio.ratio.atomics * total / Decimal.fractional).sum :=
        (sum_map_le fun user _ => getUserIncentives_le ratios user total).1
    _ ≤ (ratios.map fun userRatio => userRatio.ratio.atomics * total / Decimal.fractional).sum :=
        KeyedList.sum_found_le _ distinct
    _ ≤ (ratios.map fun userRatio => userRatio.ratio.atomics * total).sum / Decimal.fractional :=
        sum_map_div_le _ _ ratios
    _ = (ratios.map (·.ratio.atomics)).sum * total / Decimal.fractional := by
        rw [List.sum_map_mul_right]
    _ ≤ total := Nat.div_le_of_le_mul (Nat.mul_le_mul_right _ within)

end Membrane.Launch
