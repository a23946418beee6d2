import Membrane.DiscountVault.Contract
import Membrane.Lib.Run

/-!
# Withdrawals from the discount vault

What a withdrawal sends of an asset is what the deposits of it fall by. The assets that are
not owned are to be skipped, which the first loop does by their index in the list that was
sent: the first of them is removed, and with it the indices of all the others are off by one.
A withdrawal with two assets that are not owned therefore keeps the second, and removes the
asset after it or aborts.
-/

namespace Membrane.DiscountVault

open Outcome

/-! ## What is held and what is asked -/

/-- What deposits hold of the assets that count. -/
def heldIn (counts : AssetInfo → Bool) (lps : List VaultedLP) : Nat :=
  (lps.map fun deposit => if counts deposit.gamm then deposit.amount else 0).sum

def askedIn (counts : AssetInfo → Bool) (assets : List Asset) : Nat :=
  (assets.map fun asset => if counts asset.info then asset.amount else 0).sum

def sentIn (denom : String) : CosmosMsg OutMsg → Nat
  | .bankSend _ coins => (coins.map fun coin => if coin.denom = denom then coin.amount else 0).sum
  | .execute _ _ coins => (coins.map fun coin => if coin.denom = denom then coin.amount else 0).sum

/-- The assets of a denomination. -/
def named (denom : String) (info : AssetInfo) : Bool := info.toText = denom

variable {info : AssetInfo} {lps lps' : List VaultedLP} {assets left : List Asset}
variable {counts : AssetInfo → Bool}

@[simp]
theorem heldIn_nil : heldIn counts [] = 0 := rfl

@[simp]
theorem heldIn_cons (deposit : VaultedLP) (lps : List VaultedLP) :
    heldIn counts (deposit :: lps) =
      (if counts deposit.gamm then deposit.amount else 0) + heldIn counts lps := by
  rw [heldIn, List.map_cons, List.sum_cons, heldIn]

@[simp]
theorem askedIn_nil : askedIn counts [] = 0 := rfl

@[simp]
theorem askedIn_cons (asset : Asset) (assets : List Asset) :
    askedIn counts (asset :: assets) =
      (if counts asset.info then asset.amount else 0) + askedIn counts assets := by
  rw [askedIn, List.map_cons, List.sum_cons, askedIn]

theorem sentIn_withdrawal (denom : String) (assets : List Asset) (recipient : Addr) :
    sentIn denom (multiNativeWithdrawalMsg assets recipient) = askedIn (named denom) assets := by
  simp only [multiNativeWithdrawalMsg, sentIn, askedIn, named, List.map_map, Function.comp_def,
    decide_eq_true_eq]

/-! ## Taking from the deposits -/

theorem combDeposits_left (info : AssetInfo) (lps : List VaultedLP) (amount : Nat) :
    (combDeposits info lps amount).2 = amount - heldIn (· == info) lps := by
  induction lps generalizing amount with
  | nil => simp [combDeposits]
  | cons deposit rest ih =>
    simp only [combDeposits, AssetInfo.equal_iff, heldIn_cons, beq_iff_eq]
    by_cases hasset : deposit.gamm = info
    · rw [if_pos hasset]
      by_cases hzero : amount = 0
      · rw [if_neg (fun h => h.2 hzero)]
        dsimp only
        rw [ih]
        omega
      · rw [if_pos ⟨hasset.symm, hzero⟩]
        by_cases hall : deposit.amount ≤ amount
        · rw [if_pos hall]
          dsimp only
          rw [ih]
          omega
        · rw [if_neg hall]
          dsimp only
          rw [ih]
          omega
    · rw [if_neg hasset, if_neg (fun h => hasset h.1.symm)]
      dsimp only
      rw [ih]
      omega

theorem combDeposits_held (counts : AssetInfo → Bool) (info : AssetInfo) (lps : List VaultedLP)
    (amount : Nat) :
    (combDeposits info lps amount).2 ≤ amount ∧
      heldIn counts (combDeposits info lps amount).1 +
        (if counts info then amount - (combDeposits info lps amount).2 else 0) =
          heldIn counts lps := by
  induction lps generalizing amount with
  | nil => simp [combDeposits]
  | cons deposit rest ih =>
    simp only [combDeposits, AssetInfo.equal_iff]
    by_cases htakes : info = deposit.gamm ∧ amount ≠ 0
    · obtain ⟨rfl, hsome⟩ := htakes
      rw [if_pos ⟨rfl, hsome⟩]
      by_cases hall : deposit.amount ≤ amount
      · rw [if_pos hall]
        obtain ⟨hle, hheld⟩ := ih (amount - deposit.amount)
        dsimp only
        simp only [heldIn_cons]
        by_cases hcounts : counts deposit.gamm = true
        · simp only [if_pos hcounts] at hheld ⊢
          omega
        · simp only [if_neg hcounts] at hheld ⊢
          omega
      · rw [if_neg hall]
        obtain ⟨hle, hheld⟩ := ih 0
        dsimp only
        simp only [heldIn_cons]
        by_cases hcounts : counts deposit.gamm = true
        · simp only [if_pos hcounts] at hheld ⊢
          omega
        · simp only [if_neg hcounts] at hheld ⊢
          omega
    · rw [if_neg htakes]
      obtain ⟨hle, hheld⟩ := ih amount
      dsimp only
      simp only [heldIn_cons]
      omega

theorem takeRound_iff {asset : Asset} :
    takeRound lps asset = .ok lps' ↔
      asset.amount ≤ heldIn (· == asset.info) lps ∧
        (combDeposits asset.info lps asset.amount).1 = lps' := by
  have hleft := combDeposits_left asset.info lps asset.amount
  simp only [takeRound, bind_eq_ok, guardErr_eq_ok, pure_eq_ok, not_not]
  constructor
  · rintro ⟨_, hnone, rfl⟩
    exact ⟨by omega, rfl⟩
  · rintro ⟨henough, rfl⟩
    exact ⟨⟨⟩, by omega, rfl⟩

theorem takeRound_held {asset : Asset} (counts : AssetInfo → Bool)
    (done : takeRound lps asset = .ok lps') :
    heldIn counts lps' + (if counts asset.info then asset.amount else 0) = heldIn counts lps := by
  obtain ⟨henough, rfl⟩ := takeRound_iff.mp done
  have hleft := combDeposits_left asset.info lps asset.amount
  have hheld := (combDeposits_held counts asset.info lps asset.amount).2
  have hnone : (combDeposits asset.info lps asset.amount).2 = 0 := by omega
  rwa [hnone, Nat.sub_zero] at hheld

theorem foldlM_takeRound_held (counts : AssetInfo → Bool)
    (done : assets.foldlM takeRound lps = .ok lps') :
    heldIn counts lps' + askedIn counts assets = heldIn counts lps := by
  induction assets generalizing lps with
  | nil =>
    obtain rfl := pure_eq_ok.mp done
    rfl
  | cons asset rest ih =>
    rw [List.foldlM_cons, bind_eq_ok] at done
    obtain ⟨mid, hround, hrest⟩ := done
    have hmid := takeRound_held counts hround
    have hheld := ih hrest
    rw [askedIn_cons]
    omega

/-- The deposits of a user. -/
def lpsOf (s : State) (user : Addr) : List VaultedLP :=
  ((s.users.lookup user).map VaultUser.vaultedLps).getD []

/-- A withdrawal sends of each denomination what the deposits of the sender fall by, to the
    sender, and leaves the deposits of others. -/
def SendsWhatFalls (deps : Deps) (info : MessageInfo) (assets : List Asset) (s : State) : Prop :=
  ∀ s' response, withdraw deps info assets s = .ok (s', response) →
    (∀ denom, (response.messages.map (sentIn denom)).sum +
      heldIn (named denom) (lpsOf s' info.sender) = heldIn (named denom) (lpsOf s info.sender)) ∧
    (∀ other, other ≠ info.sender → s'.users.lookup other = s.users.lookup other) ∧
    ∀ recipient coins, .bankSend recipient coins ∈ response.messages → recipient = info.sender

variable {deps : Deps} {s s' : State} {info : MessageInfo} {response : Response}

theorem lpsOf_found {user : VaultUser} (found : s.users.lookup info.sender = some user) :
    lpsOf s info.sender = user.vaultedLps := by
  rw [lpsOf, found]
  rfl

theorem accrueUserPositions_eq_ok {contract : Addr} {user : String} {msg : CosmosMsg OutMsg} :
    accrueUserPositions deps contract user = .ok msg ↔
      ∃ ids rest, deps.basketPositions contract user = .ok (ids :: rest) ∧
        .execute contract (.accrue (some user) ids) [] = msg := by
  simp only [accrueUserPositions, bind_eq_ok, ofExcept_eq_ok, index_eq_ok, pure_eq_ok]
  constructor
  · rintro ⟨positions, hpositions, ids, hids, rfl⟩
    cases positions with
    | nil => simp at hids
    | cons first rest =>
      obtain rfl : first = ids := by simpa using hids
      exact ⟨first, rest, hpositions, rfl⟩
  · rintro ⟨ids, rest, hpositions, rfl⟩
    exact ⟨_, hpositions, ids, rfl, rfl⟩

theorem withdraw_eq_ok {assets : List Asset} :
    withdraw deps info assets s = .ok (s', response) ↔
      ∃ user left lps msg, s.users.lookup info.sender = some user ∧
        removeUnowned user.vaultedLps assets = .ok left ∧
        left.foldlM takeRound user.vaultedLps = .ok lps ∧
        accrueUserPositions deps s.config.positionsContract info.sender = .ok msg ∧
        { s with users := s.users.insert info.sender { user with vaultedLps := lps } } = s' ∧
        ⟨[msg, multiNativeWithdrawalMsg left info.sender], left⟩ = response := by
  simp only [withdraw, bind_eq_ok, ofOption_eq_ok, liftStd_eq_ok, pure_eq_ok, Prod.mk.injEq]
  constructor
  · rintro ⟨user, huser, left, hleft, lps, hlps, msg, hmsg, hs, hresponse⟩
    exact ⟨user, left, lps, msg, huser, hleft, hlps, hmsg, hs, hresponse⟩
  · rintro ⟨user, left, lps, msg, huser, hleft, hlps, hmsg, hs, hresponse⟩
    exact ⟨user, huser, left, hleft, lps, hlps, msg, hmsg, hs, hresponse⟩

theorem withdraw_sends (deps : Deps) (info : MessageInfo) (assets : List Asset) (s : State) :
    SendsWhatFalls deps info assets s := by
  intro s' response done
  obtain ⟨user, left, lps, msg, huser, -, hlps, hmsg, rfl, rfl⟩ := withdraw_eq_ok.mp done
  obtain ⟨ids, rest, -, rfl⟩ := accrueUserPositions_eq_ok.mp hmsg
  refine ⟨?_, ?_, ?_⟩
  · intro denom
    have hheld := foldlM_takeRound_held (named denom) hlps
    have hlookup := lpsOf_found huser
    have hlookup' :
        lpsOf { s with users := s.users.insert info.sender { user with vaultedLps := lps } }
        info.sender = lps := by
      rw [lpsOf, AList.lookup_insert]
      rfl
    rw [hlookup, hlookup']
    simp only [List.map_cons, List.map_nil, List.sum_cons, List.sum_nil, sentIn_withdrawal]
    simp only [sentIn, List.map_nil, List.sum_nil]
    omega
  · intro other hother
    exact AList.lookup_insert_ne hother
  · intro recipient coins hmem
    simp only [List.mem_cons, List.not_mem_nil, or_false, reduceCtorEq, false_or] at hmem
    exact (CosmosMsg.bankSend.inj hmem).1

def sampleState : State where
  config := ⟨"owner", "positions", "proxy", [⟨.nativeToken "gamm", 1⟩], true⟩
  users := AList.singleton "user" ⟨"user", [⟨.nativeToken "gamm", 10, 0⟩]⟩
  ownershipTransfer := none

def sampleDeps : Deps where
  addrValid _ := true
  poolState _ _ := .ok ("gamm", [])
  debtToken _ := .ok (.nativeToken "cdt")
  basketPositions _ _ := .ok [[1]]

/-- A message to the vault. -/
structure Call where
  deps : Deps
  env : Env
  info : MessageInfo
  msg : ExecuteMsg

/-- The vault, with what each account deposited and was sent of each denomination, and what
    the vault got and sent of it. -/
structure Books where
  state : State
  deposited : Addr → String → Nat
  withdrawn : Addr → String → Nat
  received : String → Nat
  paid : String → Nat

/-- A vault in which nothing has happened. -/
def Books.new (s : State) : Books :=
  ⟨s, fun _ _ => 0, fun _ _ => 0, fun _ => 0, fun _ => 0⟩

def coinsIn (denom : String) (coins : List Coin) : Nat :=
  (coins.map fun coin => if coin.denom = denom then coin.amount else 0).sum

/-- What a message deposits. -/
def ExecuteMsg.deposits (denom : String) (funds : List Coin) : ExecuteMsg → Nat
  | .deposit => coinsIn denom funds
  | _ => 0

def sentTo (user : Addr) (denom : String) (msg : CosmosMsg OutMsg) : Nat :=
  match msg with
  | .bankSend recipient _ => if recipient = user then sentIn denom msg else 0
  | .execute recipient _ _ => if recipient = user then sentIn denom msg else 0

/-- What a response sends an account of a denomination. -/
def Response.sends (response : Response) (user : Addr) (denom : String) : Nat :=
  (response.messages.map (sentTo user denom)).sum

def Response.sendsAll (response : Response) (denom : String) : Nat :=
  (response.messages.map (sentIn denom)).sum

/-- The books after a call, when it succeeds. -/
def Call.exec (b : Books) (call : Call) : Option Books :=
  match execute call.deps call.env call.info call.msg b.state with
  | .ok (s, response) => some {
      state := s
      deposited := fun user denom => b.deposited user denom +
        (if call.info.sender = user then call.msg.deposits denom call.info.funds else 0)
      withdrawn := fun user denom => b.withdrawn user denom + response.sends user denom
      received := fun denom => b.received denom + call.msg.deposits denom call.info.funds
      paid := fun denom => b.paid denom + response.sendsAll denom }
  | .error _ => none

/-- A successful call. -/
def Steps (b : Books) (call : Call) (b' : Books) : Prop := call.exec b = some b'

section

variable {b b' : Books} {call : Call}

theorem lpsOf_insert (s : State) (sender user : Addr) (entry : VaultUser) :
    lpsOf { s with users := s.users.insert sender entry } user =
      if user = sender then entry.vaultedLps else lpsOf s user := by
  unfold lpsOf
  by_cases hsame : user = sender
  · rw [if_pos hsame, hsame, AList.lookup_insert]
    rfl
  · rw [if_neg hsame, AList.lookup_insert_ne hsame]

theorem heldIn_append (counts : AssetInfo → Bool) (lps lps' : List VaultedLP) :
    heldIn counts (lps ++ lps') = heldIn counts lps + heldIn counts lps' := by
  rw [heldIn, List.map_append, List.sum_append, heldIn, heldIn]

theorem validateAssets_all {funds : List Coin} {acceptedLPs : List LPPoolInfo}
    {validAssets : List Asset} (done : validateAssets funds acceptedLPs = .ok validAssets) :
    validAssets = funds.map fun coin => ⟨.nativeToken coin.denom, coin.amount⟩ := by
  simp only [validateAssets, bind_eq_ok, guardErr_eq_ok, pure_eq_ok, not_not] at done
  obtain ⟨_, hlength, rfl⟩ := done
  rw [List.length_map] at hlength
  rw [List.filter_eq_self.mpr (List.length_filter_eq_length_iff.mp hlength.symm)]

theorem heldIn_vaulted (denom : String) (env : Env) (funds : List Coin) :
    heldIn (named denom) ((funds.map fun coin =>
      (⟨.nativeToken coin.denom, coin.amount⟩ : Asset)).map (vaulted env)) =
        coinsIn denom funds := by
  induction funds with
  | nil => rfl
  | cons coin rest ih =>
    have hnamed : named denom (.nativeToken coin.denom) = true ↔ coin.denom = denom :=
      decide_eq_true_iff
    rw [List.map_cons, List.map_cons, heldIn_cons, ih]
    change (if named denom (.nativeToken coin.denom) = true then coin.amount else 0) + _ = _
    rw [coinsIn, coinsIn, List.map_cons, List.sum_cons]
    simp only [hnamed]

theorem deposit_spec {env : Env} {info : MessageInfo} {s s' : State}
    (done : deposit env info s = .ok s') (user : Addr) (denom : String) :
    heldIn (named denom) (lpsOf s' user) = heldIn (named denom) (lpsOf s user) +
      if info.sender = user then coinsIn denom info.funds else 0 := by
  simp only [deposit, bind_eq_ok, guardErr_eq_ok, liftStd_eq_ok, pure_eq_ok] at done
  obtain ⟨_, -, validAssets, hvalid, _, -, rfl⟩ := done
  obtain rfl := validateAssets_all hvalid
  rw [lpsOf_insert]
  by_cases hsame : user = info.sender
  · subst hsame
    rw [if_pos rfl, if_pos rfl]
    unfold lpsOf
    cases s.users.lookup info.sender with
    | none =>
      simp only [Option.map_none, Option.getD_none, heldIn_nil, Nat.zero_add]
      exact heldIn_vaulted denom env info.funds
    | some entry =>
      simp only [Option.map_some, Option.getD_some, heldIn_append]
      rw [heldIn_vaulted]
  · rw [if_neg hsame, if_neg (Ne.symm hsame), Nat.add_zero]

theorem withdraw_spec {deps : Deps} {info : MessageInfo} {assets : List Asset} {s s' : State}
    {response : Response} (done : withdraw deps info assets s = .ok (s', response)) (user : Addr)
    (denom : String) :
    heldIn (named denom) (lpsOf s' user) + response.sends user denom =
      heldIn (named denom) (lpsOf s user) := by
  obtain ⟨entry, left, lps, msg, hentry, -, hlps, hmsg, rfl, rfl⟩ := withdraw_eq_ok.mp done
  obtain ⟨ids, rest, -, rfl⟩ := accrueUserPositions_eq_ok.mp hmsg
  have hsends : Response.sends ⟨[.execute s.config.positionsContract
        (.accrue (some info.sender) ids) [], multiNativeWithdrawalMsg left info.sender], left⟩
      user denom = if info.sender = user then askedIn (named denom) left else 0 := by
    simp only [Response.sends, List.map_cons, List.map_nil, List.sum_cons, List.sum_nil, sentTo,
      Nat.add_zero]
    rw [← sentIn_withdrawal denom left info.sender]
    simp [sentIn, multiNativeWithdrawalMsg]
  rw [hsends, lpsOf_insert]
  by_cases hsame : user = info.sender
  · subst hsame
    have hlookup := lpsOf_found hentry
    rw [if_pos rfl, if_pos rfl, hlookup]
    exact foldlM_takeRound_held (named denom) hlps
  · rw [if_neg hsame, if_neg (Ne.symm hsame), Nat.add_zero]

/-- What the vault owes of a denomination. -/
def State.owed (s : State) (denom : String) : Nat :=
  KeyMap.total (fun user => heldIn (named denom) user.vaultedLps) s.users

theorem owed_written {s s' : State} {sender : Addr}
    (written : ∃ entry, s'.users = s.users.insert sender entry) (denom : String) :
    s'.owed denom + heldIn (named denom) (lpsOf s sender) =
      s.owed denom + heldIn (named denom) (lpsOf s' sender) := by
  obtain ⟨entry, husers⟩ := written
  have htotal := KeyMap.total_insert (fun user : VaultUser => heldIn (named denom) user.vaultedLps)
    s.users sender entry
  have hbefore : KeyMap.measureAt (fun user : VaultUser => heldIn (named denom) user.vaultedLps)
      s.users sender = heldIn (named denom) (lpsOf s sender) := by
    unfold KeyMap.measureAt lpsOf
    cases s.users.lookup sender <;> rfl
  have hafter : lpsOf s' sender = entry.vaultedLps := by
    rw [lpsOf, husers, AList.lookup_insert]
    rfl
  rw [hbefore] at htotal
  rw [State.owed, husers, hafter]
  exact htotal

theorem deposit_writes {env : Env} {info : MessageInfo} {s s' : State}
    (done : deposit env info s = .ok s') :
    ∃ entry, s'.users = s.users.insert info.sender entry := by
  simp only [deposit, bind_eq_ok, guardErr_eq_ok, liftStd_eq_ok, pure_eq_ok] at done
  obtain ⟨_, -, _, -, _, -, rfl⟩ := done
  exact ⟨_, rfl⟩

theorem withdraw_writes {deps : Deps} {info : MessageInfo} {assets : List Asset} {s s' : State}
    {response : Response} (done : withdraw deps info assets s = .ok (s', response)) :
    ∃ entry, s'.users = s.users.insert info.sender entry := by
  obtain ⟨_, _, _, _, -, -, -, -, rfl, -⟩ := withdraw_eq_ok.mp done
  exact ⟨_, rfl⟩

/-- What an account deposited is held for it or was sent to it, and what the vault got is owed
    or was sent. -/
structure Books.Settled (b : Books) : Prop where
  each : ∀ user denom,
    heldIn (named denom) (lpsOf b.state user) + b.withdrawn user denom = b.deposited user denom
  all : ∀ denom, b.state.owed denom + b.paid denom = b.received denom

theorem new_settled {deps : Deps} {info : MessageInfo} {msg : InstantiateMsg} {s : State}
    (done : instantiate deps info msg = .ok s) : (Books.new s).Settled := by
  simp only [instantiate, bind_eq_ok, pure_eq_ok] at done
  obtain ⟨_, -, _, -, _, -, _, -, rfl⟩ := done
  exact ⟨fun _ _ => rfl, fun _ => rfl⟩

theorem execute_config {deps : Deps} {env : Env} {info : MessageInfo} {msg : ExecuteMsg}
    {s s' : State} {response : Response}
    (done : execute deps env info msg s = .ok (s', response)) (notDeposit : msg ≠ .deposit)
    (notWithdraw : ∀ assets, msg ≠ .withdraw assets) :
    s'.users = s.users ∧ response = .empty := by
  cases msg with
  | deposit => exact absurd rfl notDeposit
  | withdraw assets => exact absurd rfl (notWithdraw assets)
  | changeOwner owner =>
    simp only [execute, changeOwner, bind_eq_ok, pure_eq_ok, Prod.mk.injEq] at done
    obtain ⟨_, hdone, rfl, rfl⟩ := done
    refine ⟨?_, rfl⟩
    split at hdone
    case isTrue =>
      simp only [bind_eq_ok, pure_eq_ok] at hdone
      obtain ⟨_, -, _, -, _, rfl, _, -, rfl⟩ := hdone
      rfl
    case isFalse =>
      simp only [bind_eq_ok, pure_eq_ok] at hdone
      obtain ⟨_, rfl, _, -, rfl⟩ := hdone
      rfl
  | editAcceptedLPs poolIds remove =>
    simp only [execute, editLPs, bind_eq_ok, pure_eq_ok, Prod.mk.injEq] at done
    obtain ⟨_, ⟨_, -, hdone⟩, rfl, rfl⟩ := done
    refine ⟨?_, rfl⟩
    split at hdone
    case isTrue =>
      simp only [bind_eq_ok, pure_eq_ok] at hdone
      obtain ⟨_, -, rfl⟩ := hdone
      rfl
    case isFalse =>
      simp only [bind_eq_ok, pure_eq_ok] at hdone
      obtain ⟨_, -, _, -, rfl⟩ := hdone
      rfl
  | toggleDeposits enable =>
    simp only [execute, toggleDeposits, bind_eq_ok, pure_eq_ok, Prod.mk.injEq] at done
    obtain ⟨_, ⟨_, -, rfl⟩, rfl, rfl⟩ := done
    exact ⟨rfl, rfl⟩

theorem step_settled (settled : b.Settled) (step : Steps b call b') : b'.Settled := by
  unfold Steps Call.exec at step
  split at step
  case h_2 => cases step
  case h_1 s' response hexecute =>
    obtain rfl := Option.some.inj step
    cases hmsg : call.msg with
    | deposit =>
      rw [hmsg] at hexecute
      simp only [execute, bind_eq_ok, pure_eq_ok, Prod.mk.injEq] at hexecute
      obtain ⟨_, hdone, rfl, rfl⟩ := hexecute
      constructor
      · intro user denom
        have hbefore := settled.each user denom
        simp only [deposit_spec hdone user denom, Response.sends, Response.empty, List.map_nil,
          List.sum_nil, ExecuteMsg.deposits]
        omega
      · intro denom
        have hbefore := settled.all denom
        have howed := owed_written (deposit_writes hdone) denom
        rw [deposit_spec hdone, if_pos rfl] at howed
        simp only [Response.sendsAll, Response.empty, List.map_nil, List.sum_nil,
          ExecuteMsg.deposits]
        omega
    | withdraw assets =>
      rw [hmsg] at hexecute
      constructor
      · intro user denom
        have hbefore := settled.each user denom
        have htaken := withdraw_spec hexecute user denom
        simp only [ExecuteMsg.deposits, ite_self]
        omega
      · intro denom
        have hbefore := settled.all denom
        have howed := owed_written (withdraw_writes hexecute) denom
        have hsent :=
          (withdraw_sends call.deps call.info assets b.state s' response hexecute).1 denom
        simp only [Response.sendsAll, ExecuteMsg.deposits]
        omega
    | changeOwner | editAcceptedLPs | toggleDeposits =>
      obtain ⟨husers, rfl⟩ := execute_config hexecute (by simp [hmsg]) (by simp [hmsg])
      constructor
      · intro user denom
        simp only [lpsOf, husers, ExecuteMsg.deposits, ite_self, Response.sends, Response.empty,
          List.map_nil, List.sum_nil]
        exact settled.each user denom
      · intro denom
        simp only [State.owed, husers, ExecuteMsg.deposits, Response.sendsAll, Response.empty,
          List.map_nil, List.sum_nil]
        exact settled.all denom

end

/-- The vault holds what it owes: after any run of messages from anyone, what an account
    deposited of a denomination is what its deposits still hold and what the account was sent,
    and what all deposits hold is what the vault got less what it sent. -/
theorem vault_settled {deps : Deps} {info : MessageInfo} {msg : InstantiateMsg} {s : State}
    {b : Books} (made : instantiate deps info msg = .ok s)
    (run : RunWhere Steps (fun _ _ => True) (Books.new s) b) :
    (∀ user denom, heldIn (named denom) (lpsOf b.state user) + b.withdrawn user denom =
      b.deposited user denom) ∧
    ∀ denom, b.state.owed denom + b.paid denom = b.received denom := by
  have hsettled := RunWhere.keeps (fun _ _ _ hsettled _ step => step_settled hsettled step) run
    (new_settled made)
  exact ⟨hsettled.each, hsettled.all⟩

theorem ten_shares_positive : 0 < 10 := by decide

def sampleCalls : List Call := [
  ⟨sampleDeps, ⟨1, "vault"⟩, .oneCoin "ann" ⟨"gamm", 10⟩ ten_shares_positive, .deposit⟩,
  ⟨sampleDeps, ⟨2, "vault"⟩, .oneCoin "bob" ⟨"gamm", 10⟩ ten_shares_positive, .deposit⟩,
  ⟨sampleDeps, ⟨3, "vault"⟩, .noFunds "ann", .withdraw [⟨.nativeToken "gamm", 4⟩]⟩]

def samplePools : Deps := { sampleDeps with poolState := fun _ _ => .ok ("gamm", ["cdt"]) }

/-- After them ann's deposits hold six and the vault owes sixteen. -/
theorem vault_settled_two :
    ∃ s b, instantiate samplePools (.noFunds "owner") ⟨none, "positions", "proxy", [1]⟩ = .ok s ∧
      execAll (fun b call => call.exec b) sampleCalls (Books.new s) = some b ∧
      b.deposited "ann" "gamm" = 10 ∧ b.withdrawn "ann" "gamm" = 4 ∧
      heldIn (named "gamm") (lpsOf b.state "ann") + b.withdrawn "ann" "gamm" =
        b.deposited "ann" "gamm" ∧
      b.state.owed "gamm" + b.paid "gamm" = b.received "gamm" := by
  have hruns : ((instantiate samplePools (.noFunds "owner")
      ⟨none, "positions", "proxy", [1]⟩).toOption.bind fun s =>
        (execAll (fun b call => call.exec b) sampleCalls (Books.new s)).map fun b =>
          (b.deposited "ann" "gamm", b.withdrawn "ann" "gamm")) = some (10, 4) := by
    decide +kernel
  obtain ⟨s, hs, hruns⟩ := Option.bind_eq_some_iff.mp hruns
  obtain ⟨b, hb, hread⟩ := Option.map_eq_some_iff.mp hruns
  obtain ⟨hdeposited, hwithdrawn⟩ := Prod.mk.inj hread
  have hmade : instantiate samplePools (.noFunds "owner") ⟨none, "positions", "proxy", [1]⟩ =
      .ok s := by
    cases hdone : instantiate samplePools (.noFunds "owner") ⟨none, "positions", "proxy", [1]⟩ with
    | ok s' =>
      rw [hdone] at hs
      exact congrArg Except.ok (Option.some.inj hs)
    | error _ =>
      rw [hdone] at hs
      cases hs
  have hsettled := vault_settled hmade
    (execAll_run (fun _ _ _ h => h) (fun _ _ _ => trivial) hb)
  exact ⟨s, b, hmade, hb, hdeposited, hwithdrawn, hsettled.1 "ann" "gamm", hsettled.2 "gamm"⟩

end Membrane.DiscountVault
