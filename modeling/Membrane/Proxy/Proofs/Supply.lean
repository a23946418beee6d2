import Membrane.Proxy.Contract
import Membrane.Lib.Run

/-!
# The supply that the proxy keeps

The stored supply of a denom is what has been minted of it less what has been burned, in
every run. A mint that succeeds is made in full and within the cap exactly when it fits
under the cap, or comes from the debt auction.
-/

namespace Membrane.Proxy

open Outcome

/-! ## Runs -/

/-- What happens to the contract: a call, or the chain's answer to a creation. -/
inductive Event where
  | call (call : Call)
  | created (result : Except String (Option (Except StdError String)))

/-- The contract, with what its messages have minted and burned of each denom. -/
structure Ledger where
  state : State
  minted : String → Nat
  burned : String → Nat

def mintedBy (denom : String) : TokenMsg → Nat
  | .mint _ minted amount _ => if minted = denom then amount else 0
  | _ => 0

def burnedBy (denom : String) : TokenMsg → Nat
  | .burn _ burned amount _ => if burned = denom then amount else 0
  | _ => 0

def Ledger.record (l : Ledger) (s' : State) (response : TokenResponse) : Ledger :=
  ⟨s', fun denom => l.minted denom + (response.map fun entry => mintedBy denom entry.1).sum,
    fun denom => l.burned denom + (response.map fun entry => burnedBy denom entry.1).sum⟩

/-- A successful event. -/
def eventStep (l : Ledger) (event : Event) (l' : Ledger) : Prop :=
  match event with
  | .call call => ∃ s' response,
      execute call.addrValid call.env call.info call.msg l.state = .ok (s', response) ∧
        l' = l.record s' response
  | .created result => ∃ s', handleCreateDenomReply result l.state = .ok s' ∧ l' = l.record s' []

/-- The ledger after an event that succeeds. -/
def Ledger.exec (l : Ledger) (event : Event) : Option Ledger :=
  match event with
  | .call call =>
    match execute call.addrValid call.env call.info call.msg l.state with
    | .ok (s', response) => some (l.record s' response)
    | .error _ => none
  | .created result =>
    match handleCreateDenomReply result l.state with
    | .ok s' => some (l.record s' [])
    | .error _ => none

theorem Ledger.exec_step {l l' : Ledger} {event : Event} (done : l.exec event = some l') :
    eventStep l event l' := by
  unfold exec at done
  cases event with
  | call call =>
    dsimp only at done
    split at done
    case h_1 s' response h => exact ⟨s', response, h, (Option.some.inj done).symm⟩
    case h_2 => cases done
  | created result =>
    dsimp only at done
    split at done
    case h_1 s' h => exact ⟨s', h, (Option.some.inj done).symm⟩
    case h_2 => cases done

/-- The token factory creates a denom only once. -/
def CreatesOnce (l : Ledger) (event : Event) : Prop :=
  match event with
  | .created (.ok (some (.ok newTokenDenom))) => l.state.tokens.lookup newTokenDenom = none
  | _ => True

instance (l : Ledger) (event : Event) : Decidable (CreatesOnce l event) := by
  unfold CreatesOnce
  split
  · infer_instance
  · infer_instance

/-! ## The supply of a denom -/

/-- The supply of each denom is what was minted less what was burned; nothing was of one
    that does not exist. -/
structure Counted (l : Ledger) : Prop where
  supply : ∀ denom token, l.state.tokens.lookup denom = some token →
    token.currentSupply + l.burned denom = l.minted denom ∧ token.burnedSupply = l.burned denom
  absent : ∀ denom, l.state.tokens.lookup denom = none → l.minted denom = 0 ∧ l.burned denom = 0

/-- What a response mints of a denom. -/
def minted (denom : String) (response : TokenResponse) : Nat :=
  (response.map fun entry => mintedBy denom entry.1).sum

/-- What a response burns of a denom. -/
def burned (denom : String) (response : TokenResponse) : Nat :=
  (response.map fun entry => burnedBy denom entry.1).sum

/-- What a call does to the tokens: nothing, or it writes one with what its messages mint
    and burn of it. -/
inductive TokensMove (s s' : State) (response : TokenResponse) : Prop
  | same (tokens : s'.tokens = s.tokens) (mints : ∀ denom, minted denom response = 0)
      (burns : ∀ denom, burned denom response = 0)
  | wrote (denom : String) (token token' : TokenInfo) (found : s.tokens.lookup denom = some token)
      (tokens : s'.tokens = s.tokens.insert denom token')
      (supply : token'.currentSupply + burned denom response =
        token.currentSupply + minted denom response)
      (burnedSupply : token'.burnedSupply = token.burnedSupply + burned denom response)
      (mints : ∀ other, other ≠ denom → minted other response = 0)
      (burns : ∀ other, other ≠ denom → burned other response = 0)

theorem Counted.move {l : Ledger} {s' : State} {response : TokenResponse} (counted : Counted l)
    (move : TokensMove l.state s' response) : Counted (l.record s' response) := by
  have hminted : ∀ denom, (l.record s' response).minted denom =
      l.minted denom + minted denom response := fun _ => rfl
  have hburned : ∀ denom, (l.record s' response).burned denom =
      l.burned denom + burned denom response := fun _ => rfl
  cases move with
  | same htokens hmints hburns =>
    constructor
    · intro denom token hfound
      change s'.tokens.lookup denom = some token at hfound
      rw [htokens] at hfound
      rw [hminted, hburned, hmints, hburns]
      exact counted.supply denom token hfound
    · intro denom habsent
      change s'.tokens.lookup denom = none at habsent
      rw [htokens] at habsent
      rw [hminted, hburned, hmints, hburns]
      exact counted.absent denom habsent
  | wrote denom token token' hfound htokens hsupply hburnedSupply hmints hburns =>
    constructor
    · intro other token'' hother
      change s'.tokens.lookup other = some token'' at hother
      rw [htokens] at hother
      rw [hminted, hburned]
      by_cases hsame : other = denom
      · subst hsame
        rw [AList.lookup_insert] at hother
        obtain rfl := Option.some.inj hother
        obtain ⟨hold, hburnedOld⟩ := counted.supply other token hfound
        constructor <;> omega
      · rw [AList.lookup_insert_ne hsame] at hother
        rw [hmints other hsame, hburns other hsame]
        exact counted.supply other token'' hother
    · intro other habsent
      change s'.tokens.lookup other = none at habsent
      rw [htokens] at habsent
      by_cases hsame : other = denom
      · subst hsame
        rw [AList.lookup_insert] at habsent
        cases habsent
      · rw [AList.lookup_insert_ne hsame] at habsent
        rw [hminted, hburned, hmints other hsame, hburns other hsame]
        exact counted.absent other habsent

section

variable {addrValid : String → Bool} {env : Env} {info : MessageInfo} {s s' : State}
  {response : TokenResponse}

structure Mints (env : Env) (info : MessageInfo) (s : State) (denom : String) (amount : Nat)
    (mintTo : String) (token : TokenInfo) (allowed : Bool) (s' : State) (response : TokenResponse) :
    Prop where
  found : s.tokens.lookup denom = some token
  allows : allowed = true ↔ ∀ maxSupply, token.maxSupply = some maxSupply →
    token.currentSupply ≤ maxSupply ∨ s.config.debtAuction = some info.sender
  stored : s' = { s with tokens := s.tokens.insert denom { token with
    currentSupply := token.currentSupply + if allowed then amount else 0 } }
  sends : response =
    if allowed then [(.mint env.contractAddress denom amount mintTo, none)] else []
  some : amount ≠ 0

theorem mintTokens_spec {denom mintTo : String} {amount : Nat}
    (done : mintTokens addrValid env info denom amount mintTo s = .ok (s', response)) :
    ∃ token allowed, Mints env info s denom amount mintTo token allowed s' response := by
  simp only [mintTokens, bind_eq_ok, guardErr_eq_ok, pure_eq_ok, Prod.mk.injEq, loadToken,
    ofOption_eq_ok] at done
  obtain ⟨_, -, _, -, _, hsome, _, -, token, hfound, token', hmint, rfl, rfl⟩ := done
  refine ⟨token, mintAllowed s.config info token, hfound, ?_, ?_, rfl, hsome⟩
  · unfold mintAllowed
    cases token.maxSupply with
    | none => simp
    | some maxSupply => simp
  · split at hmint
    case isTrue hallowed =>
      simp only [bind_eq_ok, pure_eq_ok, Uint128.add_eq_ok] at hmint
      obtain ⟨_, ⟨-, rfl⟩, rfl⟩ := hmint
      simp only [hallowed, if_true]
    case isFalse hrefused =>
      rw [← pure_eq_ok.mp hmint]
      simp [hrefused]

theorem minted_mint (sender : Addr) (denom : String) (amount : Nat) (mintTo : String)
    (other : String) :
    minted other [(.mint sender denom amount mintTo, none)] =
      if denom = other then amount else 0 := by
  simp [minted, mintedBy]

theorem burned_burn (sender : Addr) (denom : String) (amount : Nat) (burnFrom : String)
    (other : String) :
    burned other [(.burn sender denom amount burnFrom, none)] =
      if denom = other then amount else 0 := by
  simp [burned, burnedBy]

theorem Mints.move {denom mintTo : String} {amount : Nat} {token : TokenInfo} {allowed : Bool}
    (mints : Mints env info s denom amount mintTo token allowed s' response) :
    TokensMove s s' response := by
  have hsends := mints.sends
  cases allowed with
  | false =>
    rw [if_neg Bool.false_ne_true] at hsends
    subst hsends
    refine .wrote denom token _ mints.found (by rw [mints.stored]) ?_ ?_ ?_ ?_
    · rfl
    · rfl
    · intro _ _
      rfl
    · intro _ _
      rfl
  | true =>
    rw [if_pos rfl] at hsends
    subst hsends
    refine .wrote denom token _ mints.found (by rw [mints.stored]) ?_ ?_ ?_ ?_
    · rw [minted_mint]
      simp [burned, burnedBy]
    · rfl
    · intro other hother
      rw [minted_mint, if_neg (Ne.symm hother)]
    · intro _ _
      rfl

theorem burnTokens_move {denom burnFrom : String} {amount : Nat}
    (done : burnTokens env info denom amount burnFrom s = .ok (s', response)) :
    TokensMove s s' response := by
  simp only [burnTokens, bind_eq_ok, guardErr_eq_ok, pure_eq_ok, Prod.mk.injEq, loadToken,
    ofOption_eq_ok, subUint_eq_ok, Uint128.add_eq_ok] at done
  obtain ⟨_, -, _, -, _, -, token, hfound, _, ⟨hmost, rfl⟩, _, ⟨-, rfl⟩, rfl, rfl⟩ := done
  refine .wrote denom token _ hfound rfl ?_ ?_ ?_ ?_
  · rw [burned_burn, if_pos rfl]
    exact Nat.sub_add_cancel hmost
  · rw [burned_burn, if_pos rfl]
  · intro _ _
    rfl
  · intro other hother
    rw [burned_burn, if_neg (Ne.symm hother)]

theorem execute_move {msg : ExecuteMsg}
    (done : execute addrValid env info msg s = .ok (s', response)) : TokensMove s s' response := by
  unfold execute at done
  cases msg with
  | createDenom subdenom maxSupply =>
    simp only [createDenom, bind_eq_ok, pure_eq_ok, Prod.mk.injEq] at done
    obtain ⟨_, -, _, -, rfl, rfl⟩ := done
    exact .same rfl (fun _ => rfl) (fun _ => rfl)
  | changeAdmin denom newAdminAddress =>
    simp only [changeAdmin, bind_eq_ok, pure_eq_ok, Prod.mk.injEq] at done
    obtain ⟨_, -, _, -, _, -, rfl, rfl⟩ := done
    exact .same rfl (fun _ => rfl) (fun _ => rfl)
  | mintTokens denom amount mintTo =>
    obtain ⟨token, allowed, hmints⟩ := mintTokens_spec done
    exact hmints.move
  | burnTokens denom amount burnFrom => exact burnTokens_move done
  | editTokenMaxSupply denom maxSupply =>
    simp only [editTokenMax, bind_eq_ok, pure_eq_ok, Prod.mk.injEq, loadToken,
      ofOption_eq_ok] at done
    obtain ⟨_, -, token, hfound, rfl, rfl⟩ := done
    exact .wrote denom token _ hfound rfl rfl rfl (fun _ _ => rfl) (fun _ _ => rfl)
  | updateConfig =>
    simp only [updateConfig, bind_eq_ok, pure_eq_ok, Prod.mk.injEq] at done
    obtain ⟨_, -, _, -, _, -, _, -, _, -, _, -, rfl, rfl⟩ := done
    exact .same rfl (fun _ => rfl) (fun _ => rfl)
  | editOwner =>
    simp only [editOwner, bind_eq_ok] at done
    obtain ⟨_, -, _, -, hedit⟩ := done
    split at hedit
    case h_1 =>
      simp only [pure_eq_ok, Prod.mk.injEq] at hedit
      obtain ⟨rfl, rfl⟩ := hedit
      exact .same rfl (fun _ => rfl) (fun _ => rfl)
    case h_2 => simp at hedit

theorem handleCreateDenomReply_spec {result : Except String (Option (Except StdError String))}
    (done : handleCreateDenomReply result s = .ok s') :
    ∃ newTokenDenom maxSupply, result = .ok (some (.ok newTokenDenom)) ∧
      s' = { s with tokens := s.tokens.insert newTokenDenom ⟨0, maxSupply, 0⟩ } := by
  unfold handleCreateDenomReply at done
  split at done
  case h_2 => simp at done
  case h_1 data =>
    simp only [bind_eq_ok] at done
    obtain ⟨pending, -, hdata⟩ := done
    split at hdata
    case h_1 newTokenDenom =>
      exact ⟨newTokenDenom, pending.maxSupply, rfl, (pure_eq_ok.mp hdata).symm⟩
    case h_2 => simp at hdata
    case h_3 => simp at hdata

theorem Counted.created {l : Ledger} {newTokenDenom : String} {maxSupply : Option Nat}
    (counted : Counted l) (fresh : l.state.tokens.lookup newTokenDenom = none) :
    Counted (l.record { l.state with
      tokens := l.state.tokens.insert newTokenDenom ⟨0, maxSupply, 0⟩ } []) := by
  constructor
  · intro denom token hfound
    change (l.state.tokens.insert newTokenDenom ⟨0, maxSupply, 0⟩).lookup denom = _ at hfound
    show token.currentSupply + (l.burned denom + 0) = l.minted denom + 0 ∧
      token.burnedSupply = l.burned denom + 0
    by_cases hsame : denom = newTokenDenom
    · subst hsame
      rw [AList.lookup_insert] at hfound
      obtain ⟨hminted, hburned⟩ := counted.absent denom fresh
      rw [← Option.some.inj hfound, hminted, hburned]
      exact ⟨rfl, rfl⟩
    · rw [AList.lookup_insert_ne hsame] at hfound
      exact counted.supply denom token hfound
  · intro denom habsent
    change (l.state.tokens.insert newTokenDenom ⟨0, maxSupply, 0⟩).lookup denom = _ at habsent
    by_cases hsame : denom = newTokenDenom
    · subst hsame
      rw [AList.lookup_insert] at habsent
      cases habsent
    · rw [AList.lookup_insert_ne hsame] at habsent
      exact counted.absent denom habsent

theorem step_counted {l l' : Ledger} {event : Event} (counted : Counted l)
    (once : CreatesOnce l event) (step : eventStep l event l') : Counted l' := by
  cases event with
  | call call =>
    obtain ⟨s', response, hcall, rfl⟩ := step
    exact counted.move (execute_move hcall)
  | created result =>
    obtain ⟨s', hreply, rfl⟩ := step
    obtain ⟨newTokenDenom, maxSupply, rfl, rfl⟩ := handleCreateDenomReply_spec hreply
    exact counted.created once

/-! ## Mints -/

/-- A mint is made in full, and within the maximum supply unless it comes from the debt
    auction. -/
structure MintedInFull (s : State) (call : Call) (denom : String) (amount : Nat) (mintTo : String)
    (s' : State) (response : TokenResponse) : Prop where
  sent : response = [(.mint call.env.contractAddress denom amount mintTo, none)]
  raised : ∃ token token', s.tokens.lookup denom = some token ∧
    s'.tokens.lookup denom = some token' ∧
    token'.currentSupply = token.currentSupply + amount ∧
    (s.config.debtAuction ≠ some call.info.sender →
      ∀ maxSupply, token'.maxSupply = some maxSupply → token'.currentSupply ≤ maxSupply)

/-- A mint comes from the debt auction, or the supply with it is within the maximum. -/
def FitsCap (s : State) (sender : Addr) (denom : String) (amount : Nat) : Prop :=
  s.config.debtAuction = some sender ∨ ∀ token maxSupply, s.tokens.lookup denom = some token →
    token.maxSupply = some maxSupply → token.currentSupply + amount ≤ maxSupply

theorem minted_in_full_iff {call : Call} {denom mintTo : String} {amount : Nat}
    (msg : call.msg = .mintTokens denom amount mintTo)
    (done : execute call.addrValid call.env call.info call.msg s = .ok (s', response)) :
    MintedInFull s call denom amount mintTo s' response ↔
      FitsCap s call.info.sender denom amount := by
  rw [msg] at done
  obtain ⟨token, allowed, hmints⟩ := mintTokens_spec done
  have hsends := hmints.sends
  have hstored : s'.tokens.lookup denom = some { token with
      currentSupply := token.currentSupply + if allowed then amount else 0 } := by
    rw [hmints.stored]
    exact AList.lookup_insert _
  constructor
  · intro hfull
    by_cases hauction : s.config.debtAuction = some call.info.sender
    · exact .inl hauction
    · obtain ⟨token₁, token', hfound₁, hfound', hraised, hwithin⟩ := hfull.raised
      obtain rfl := Option.some.inj (hmints.found.symm.trans hfound₁)
      obtain rfl := Option.some.inj (hstored.symm.trans hfound')
      refine .inr fun token₂ maxSupply hfound₂ hmax => ?_
      obtain rfl := Option.some.inj (hmints.found.symm.trans hfound₂)
      rw [← hraised]
      exact hwithin hauction maxSupply hmax
  · intro hfits
    have hallowed : allowed = true := by
      refine hmints.allows.mpr fun maxSupply hmax => ?_
      rcases hfits with hauction | hwithin
      · exact .inr hauction
      · have hle := hwithin token maxSupply hmints.found hmax
        exact .inl (by omega)
    subst hallowed
    refine ⟨hsends, token, _, hmints.found, hstored, rfl, fun hother maxSupply hmax => ?_⟩
    exact hfits.resolve_left hother token maxSupply hmints.found hmax

/-- In every reachable state the supply of a denom is what was minted less what was burned,
    and a mint that succeeds there is made in full and within the cap exactly when it comes
    from the debt auction or fits. -/
theorem supply_counted {info : MessageInfo} {l : Ledger}
    (run : RunWhere eventStep CreatesOnce ⟨instantiate info, fun _ => 0, fun _ => 0⟩ l) :
    (∀ denom token, l.state.tokens.lookup denom = some token →
      token.currentSupply + l.burned denom = l.minted denom ∧
        token.burnedSupply = l.burned denom) ∧
      ∀ (call : Call) denom amount mintTo s' response,
        call.msg = .mintTokens denom amount mintTo →
        execute call.addrValid call.env call.info call.msg l.state = .ok (s', response) →
        (MintedInFull l.state call denom amount mintTo s' response ↔
          FitsCap l.state call.info.sender denom amount) := by
  have hstart : Counted ⟨instantiate info, fun _ => 0, fun _ => 0⟩ := by
    constructor
    · intro denom token hfound
      simp [instantiate] at hfound
    · intro _ _
      exact ⟨rfl, rfl⟩
  have hkeeps : ∀ l event l', Counted l → CreatesOnce l event → eventStep l event l' →
      Counted l' :=
    fun _ _ _ hcounted honce hstep => step_counted hcounted honce hstep
  have hcounted := RunWhere.keeps hkeeps run hstart
  exact ⟨hcounted.supply, fun _ _ _ _ _ _ hmsg hdone => minted_in_full_iff hmsg hdone⟩

end

/-! ## On a sample chain -/

def creatorCall (msg : ExecuteMsg) : Call :=
  ⟨fun _ => true, ⟨0, "proxy"⟩, MessageInfo.noFunds "creator", msg⟩

def sampleMint (amount : Nat) : Call :=
  creatorCall (.mintTokens "factory/proxy/ucdt" amount "user")

def sampleEvents : List Event :=
  [.call (creatorCall (.createDenom "ucdt" (some 1000))),
    .created (.ok (some (.ok "factory/proxy/ucdt"))), .call (sampleMint 600)]

def ledgerAfter (events : List Event) : Option Ledger :=
  execAll (execWhere Ledger.exec CreatesOnce) events
    ⟨instantiate (MessageInfo.noFunds "creator"), fun _ => 0, fun _ => 0⟩

def sampleReading (events : List Event) (amount : Nat) :
    Option (Option TokenInfo × Option TokenInfo × TokenResponse) :=
  (ledgerAfter events).bind fun l =>
    match execute (sampleMint amount).addrValid (sampleMint amount).env (sampleMint amount).info
      (sampleMint amount).msg l.state with
    | .ok (s', response) => some (l.state.tokens.lookup "factory/proxy/ucdt",
        s'.tokens.lookup "factory/proxy/ucdt", response)
    | .error _ => none

theorem sampleReading_spec {events : List Event} {amount : Nat} {token token' : Option TokenInfo}
    {response : TokenResponse}
    (done : sampleReading events amount = some (token, token', response)) :
    ∃ l s', ledgerAfter events = some l ∧ l.state.tokens.lookup "factory/proxy/ucdt" = token ∧
      s'.tokens.lookup "factory/proxy/ucdt" = token' ∧
      execute (sampleMint amount).addrValid (sampleMint amount).env (sampleMint amount).info
        (sampleMint amount).msg l.state = .ok (s', response) := by
  obtain ⟨l, hl, hcall⟩ := Option.bind_eq_some_iff.mp done
  split at hcall
  case h_1 s' response' h =>
    obtain ⟨rfl, rfl, rfl⟩ := by simpa only [Option.some.injEq, Prod.mk.injEq] using hcall
    exact ⟨l, s', hl, rfl, rfl, h⟩
  case h_2 => cases hcall

theorem supply_counted_within :
    ∃ l s' response, ledgerAfter sampleEvents = some l ∧
      execute (sampleMint 300).addrValid (sampleMint 300).env (sampleMint 300).info
        (sampleMint 300).msg l.state = .ok (s', response) ∧
      MintedInFull l.state (sampleMint 300) "factory/proxy/ucdt" 300 "user" s' response := by
  have hreading : sampleReading sampleEvents 300 = some (some ⟨600, some 1000, 0⟩,
      some ⟨900, some 1000, 0⟩, [(.mint "proxy" "factory/proxy/ucdt" 300 "user", none)]) := by
    decide +kernel
  obtain ⟨l, s', hl, htoken, -, hdone⟩ := sampleReading_spec hreading
  have hrun := execWhere_run (fun _ _ _ => Ledger.exec_step) hl
  have hfits : FitsCap l.state "creator" "factory/proxy/ucdt" 300 := by
    refine .inr fun token maxSupply hfound hmax => ?_
    obtain rfl := Option.some.inj (htoken.symm.trans hfound)
    obtain rfl := Option.some.inj hmax
    decide
  exact ⟨l, s', _, hl, hdone, ((supply_counted hrun).2 (sampleMint 300) "factory/proxy/ucdt" 300
    "user" s' _ rfl hdone).mpr hfits⟩

/-- A mint that succeeds is not always made in full and within the cap: of at most 1000,
    600 are minted twice, and a third mint succeeds and sends nothing. -/
theorem mints_not_in_full :
    (¬ ∀ (events : List Event) l s' response, ledgerAfter events = some l →
      execute (sampleMint 600).addrValid (sampleMint 600).env (sampleMint 600).info
        (sampleMint 600).msg l.state = .ok (s', response) →
      ∀ token', s'.tokens.lookup "factory/proxy/ucdt" = some token' →
        ∀ maxSupply, token'.maxSupply = some maxSupply → token'.currentSupply ≤ maxSupply) ∧
    ¬ ∀ (events : List Event) l s' response, ledgerAfter events = some l →
      execute (sampleMint 600).addrValid (sampleMint 600).env (sampleMint 600).info
        (sampleMint 600).msg l.state = .ok (s', response) →
      MintedInFull l.state (sampleMint 600) "factory/proxy/ucdt" 600 "user" s' response := by
  constructor
  · intro claim
    have hreading : sampleReading sampleEvents 600 = some (some ⟨600, some 1000, 0⟩,
        some ⟨1200, some 1000, 0⟩, [(.mint "proxy" "factory/proxy/ucdt" 600 "user", none)]) := by
      decide +kernel
    obtain ⟨l, s', hl, -, htoken', hdone⟩ := sampleReading_spec hreading
    exact absurd (claim _ l s' _ hl hdone _ htoken' 1000 rfl) (by decide)
  · intro claim
    have hreading : sampleReading (sampleEvents ++ [.call (sampleMint 600)]) 600 =
        some (some ⟨1200, some 1000, 0⟩, some ⟨1200, some 1000, 0⟩, []) := by
      decide +kernel
    obtain ⟨l, s', hl, -, -, hdone⟩ := sampleReading_spec hreading
    have hsent := (claim _ l s' _ hl hdone).sent
    cases hsent

end Membrane.Proxy
