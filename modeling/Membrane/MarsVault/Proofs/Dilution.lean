import Membrane.MarsVault.Proofs.Calls

/-!
# Nobody is diluted

In every reachable state the vault tokens held are the supply, and without deposits there
is no supply. Leaving then pays at most the pro rata share and takes nothing from the
other holders. Entering is fair to who enters and to the others unless there are deposits
and no vault tokens: the vault then mints none for the deposit.
-/

namespace Membrane.MarsVault

open Outcome PoolShares

/-! ## Reachable states -/

/-- The holders have the supply, and there is none without deposits. -/
structure Sound (l : Ledger) : Prop where
  held : l.balances.supply = l.state.vaultToken
  backed : l.deposited = 0 → l.state.vaultToken = 0

theorem new_sound {deps : Deps} {env : Env} {info : MessageInfo}
    {vaultSubdenom depositToken marsRedbankAddr : String} {s : State} {contract : Addr}
    {collateral : Accounts Addr}
    (done : instantiate deps env info vaultSubdenom depositToken marsRedbankAddr = .ok s) :
    Sound (Ledger.new contract s collateral) := by
  simp only [instantiate, bind_eq_ok, pure_eq_ok] at done
  obtain ⟨_, -, rfl⟩ := done
  exact ⟨rfl, fun _ => rfl⟩

section

variable {l l' received : Ledger} {call : Call}

theorem answers {total : Nat}
    (done : getTotalDepositTokens (l.deps call) (l.env call) l.state.config = .ok total) :
    total = l.deposited ∧ l.deposited < Uint128.limit := by
  rw [getTotalDepositTokens_eq_ok] at done
  dsimp only [Ledger.deps] at done
  split at done
  case isTrue hfits => exact ⟨(Except.ok.inj done).symm, hfits⟩
  case isFalse => cases done

theorem enter_spec {s' : State} {msgs : List Msg}
    (done : enterVault (l.deps call) (l.env call) call.info l.state = .ok (s', msgs)) :
    ∃ deposit minted pre,
      Entered (l.env call) call.info l.state l.deposited deposit minted pre s' msgs := by
  obtain ⟨total, deposit, minted, pre, htotal, hentered⟩ := enterVault_spec done
  obtain ⟨rfl, -⟩ := answers htotal
  exact ⟨deposit, minted, pre, hentered⟩

theorem exit_spec {s' : State} {msgs : List Msg}
    (done : exitVault (l.deps call) (l.env call) call.info l.state = .ok (s', msgs)) :
    l.deposited < Uint128.limit ∧ ∃ redeem paid pre,
      Exited (l.env call) call.info l.state l.deposited redeem paid pre s' msgs := by
  obtain ⟨total, redeem, paid, pre, htotal, hexited⟩ := exitVault_spec done
  obtain ⟨rfl, hfits⟩ := answers htotal
  exact ⟨hfits, redeem, paid, pre, hexited⟩

theorem receive_spec {info : MessageInfo} (done : l.receive info = some received) :
    received.balances.supply = l.balances.supply ∧ received.state = l.state ∧
      received.collateral = l.collateral ∧ received.contract = l.contract := by
  unfold Ledger.receive at done
  split at done
  case h_1 =>
    obtain rfl := Option.some.inj done
    exact ⟨rfl, rfl, rfl, rfl⟩
  case h_2 =>
    obtain ⟨balances, htransfer, rfl⟩ := Option.map_eq_some_iff.mp done
    exact ⟨Accounts.supply_transfer htransfer, rfl, rfl, rfl⟩

theorem performAll_callback {sends : Prop} [Decidable sends] {contract : Addr}
    (done : Ledger.performAll call (if sends then [.rateAssurance contract] else []) l = some l') :
    l' = l := by
  split at done
  case isTrue =>
    obtain ⟨mid, hperform, hrest⟩ := Option.bind_eq_some_iff.mp done
    obtain rfl := Option.some.inj hrest
    simp only [Ledger.perform] at hperform
    split at hperform
    case h_1 state _ hcallback =>
      obtain rfl := Option.some.inj hperform
      have hsame := rateAssurance_eq_ok.mp hcallback
      rw [hsame.2.2.1]
    case h_2 => cases hperform
  case isFalse => exact (Option.some.inj done).symm

theorem redeemed_lt {redeem assets supply : Nat} (some : 0 < assets) (stays : redeem < supply) :
    redeemed redeem assets supply < assets := by
  have hpaid := redeemed_mul_le redeem assets supply
  by_contra hall
  have hle : assets * supply ≤ assets * redeem :=
    Nat.le_trans (Nat.mul_le_mul_right _ (Nat.le_of_not_lt hall)) hpaid
  have := Nat.le_of_mul_le_mul_left hle some
  omega

theorem enter_sound {s' : State} {msgs : List Msg} {deposit minted pre : Nat} (sound : Sound l)
    (funded : l.receive call.info = some received)
    (entered : Entered (l.env call) call.info l.state l.deposited deposit minted pre s' msgs)
    (performed : Ledger.performAll call msgs { received with state := s' } = some l') :
    Sound l' := by
  obtain ⟨hheld, hstate, hcollateral, -⟩ := receive_spec funded
  have hminted := (calculateVaultTokens_eq_ok.mp entered.issues).2
  rw [entered.sends] at performed
  simp only [List.cons_append, List.nil_append, Ledger.performAll, Ledger.perform,
    Option.bind_some] at performed
  obtain rfl := performAll_callback performed
  have hdeposited : ∀ balances, Ledger.deposited ⟨received.contract, s', balances,
      received.collateral.credit l.state.config.marsRedbankAddr deposit⟩ =
        l.deposited + deposit := by
    intro balances
    simp only [Ledger.deposited, entered.config, hcollateral]
    simp [Accounts.credit, Accounts.balance, KeyMap.measureAt]
  constructor
  · show (received.balances.credit call.info.sender minted).supply = s'.vaultToken
    rw [Accounts.supply_credit, hheld, sound.held, entered.supply]
  · intro hnone
    rw [hdeposited] at hnone
    have hold := sound.backed (by omega)
    show s'.vaultToken = 0
    rw [entered.supply, hold, hminted, if_pos (by omega), show deposit = 0 by omega, Nat.zero_mul]

theorem exit_leaves {s' : State} {msgs : List Msg} {redeem paid pre : Nat}
    (funded : l.receive call.info = some received)
    (exited : Exited (l.env call) call.info l.state l.deposited redeem paid pre s' msgs)
    (performed : Ledger.performAll call msgs { received with state := s' } = some l') :
    l'.balances.supply + redeem = l.balances.supply ∧
      l'.state.vaultToken = l.state.vaultToken - redeem ∧
      l'.deposited = l.deposited - redeemed redeem l.deposited l.state.vaultToken := by
  obtain ⟨hheld, hstate, hcollateral, -⟩ := receive_spec funded
  have hsome : l.state.vaultToken ≠ 0 := by
    have hpositive := exited.positive
    have hwithin := exited.within
    omega
  obtain ⟨-, rfl⟩ := (calculateBaseTokens_eq_ok hsome).mp exited.pays
  rw [exited.sends] at performed
  simp only [List.cons_append, List.nil_append, Ledger.performAll, Ledger.perform] at performed
  obtain ⟨burnt, hburn, performed⟩ := Option.bind_eq_some_iff.mp performed
  obtain ⟨balances, hdebit, rfl⟩ := Option.map_eq_some_iff.mp hburn
  obtain ⟨withdrawn, hwithdraw, performed⟩ := Option.bind_eq_some_iff.mp performed
  obtain ⟨collateral, hpaid, rfl⟩ := Option.map_eq_some_iff.mp hwithdraw
  obtain rfl := performAll_callback performed
  refine ⟨?_, exited.supply, ?_⟩
  · rw [← hheld]
    exact (Accounts.debit_spec hdebit).2
  · show collateral.balance s'.config.marsRedbankAddr = _
    rw [exited.config]
    unfold Accounts.debit at hpaid
    split at hpaid
    case isTrue =>
      obtain rfl := Option.some.inj hpaid
      simp [Accounts.balance, KeyMap.measureAt, Ledger.deposited, hcollateral]
    case isFalse => cases hpaid

theorem exit_sound {s' : State} {msgs : List Msg} {redeem paid pre : Nat} (sound : Sound l)
    (funded : l.receive call.info = some received)
    (exited : Exited (l.env call) call.info l.state l.deposited redeem paid pre s' msgs)
    (performed : Ledger.performAll call msgs { received with state := s' } = some l') :
    Sound l' := by
  obtain ⟨hheld, hsupply, hdeposited⟩ := exit_leaves funded exited performed
  have hpositive := exited.positive
  have hwithin := exited.within
  have hbacked := sound.backed
  constructor
  · have hsame := sound.held
    omega
  · intro hnone
    by_contra hleft
    -- something is left for the vault tokens that stay
    have hlt := redeemed_lt (show 0 < l.deposited by omega)
      (show redeem < l.state.vaultToken by omega)
    omega

theorem kept_sound {s' : State} {msgs : List Msg} (sound : Sound l)
    (funded : l.receive call.info = some received) (kept : Kept l.state s' msgs)
    (grows : l.deposited ≤ l.collateral.balance s'.config.marsRedbankAddr)
    (performed : Ledger.performAll call msgs { received with state := s' } = some l') :
    Sound l' := by
  obtain ⟨hheld, hstate, hcollateral, -⟩ := receive_spec funded
  rw [kept.sends] at performed
  obtain rfl := Option.some.inj performed
  constructor
  · show received.balances.supply = s'.vaultToken
    rw [hheld, sound.held, kept.supply]
  · intro hnone
    show s'.vaultToken = 0
    simp only [Ledger.deposited, hcollateral] at hnone
    rw [kept.supply]
    exact sound.backed (by omega)

theorem transact_sound (sound : Sound l) (keeps : KeepsDeposits l (.call call))
    (done : l.transact call = some l') : Sound l' := by
  obtain ⟨received, hfunded, hrest⟩ := Option.bind_eq_some_iff.mp done
  split at hrest
  case h_2 => cases hrest
  case h_1 s' msgs hexecute =>
    unfold execute at hexecute
    cases hmsg : call.msg with
    | enterVault =>
      rw [hmsg] at hexecute
      obtain ⟨deposit, minted, pre, hentered⟩ := enter_spec hexecute
      exact enter_sound sound hfunded hentered hrest
    | exitVault =>
      rw [hmsg] at hexecute
      obtain ⟨-, redeem, paid, pre, hexited⟩ := exit_spec hexecute
      exact exit_sound sound hfunded hexited hrest
    | crankAPR =>
      rw [hmsg] at hexecute
      obtain ⟨hkept, hconfig⟩ := crankApr_spec hexecute
      exact kept_sound sound hfunded hkept (by rw [hconfig]; exact Nat.le_refl _) hrest
    | rateAssurance =>
      rw [hmsg] at hexecute
      obtain ⟨-, -, rfl, rfl⟩ := rateAssurance_eq_ok.mp hexecute
      exact kept_sound sound hfunded ⟨rfl, rfl⟩ (Nat.le_refl _) hrest
    | updateConfig owner marsRedbankAddr =>
      rw [hmsg] at hexecute
      obtain ⟨hkept, hredbank⟩ := updateConfig_spec hexecute
      refine kept_sound sound hfunded hkept ?_ hrest
      rw [hredbank]
      cases marsRedbankAddr with
      | none => exact Nat.le_refl _
      | some redbank =>
        simp only [KeepsDeposits, hmsg] at keeps
        exact keeps

theorem earn_sound (sound : Sound l) (redbank : Addr) (amount : Nat) :
    Sound { l with collateral := l.collateral.credit redbank amount } := by
  refine ⟨sound.held, fun hnone => sound.backed ?_⟩
  simp only [Ledger.deposited, Accounts.credit, Accounts.balance, KeyMap.measureAt] at hnone ⊢
  by_cases hsame : l.state.config.marsRedbankAddr = redbank
  · subst hsame
    rw [AList.lookup_insert] at hnone
    simp only [Option.elim_some, id_eq] at hnone
    omega
  · rwa [AList.lookup_insert_ne hsame] at hnone

theorem event_sound {event : Event} (sound : Sound l) (keeps : KeepsDeposits l event)
    (step : eventStep l event l') : Sound l' := by
  unfold eventStep at step
  cases event with
  | call call => exact transact_sound sound keeps step
  | earn redbank amount =>
    obtain rfl := Option.some.inj step
    exact earn_sound sound redbank amount
  | transfer sender receiver amount =>
    obtain ⟨balances, htransfer, rfl⟩ := Option.map_eq_some_iff.mp step
    exact ⟨(Accounts.supply_transfer htransfer).trans sound.held, sound.backed⟩

end

/-- A ledger reached from a new vault, whatever the money markets held for it before. -/
def Reachable (l : Ledger) : Prop :=
  ∃ deps env info vaultSubdenom depositToken marsRedbankAddr s contract collateral,
    instantiate deps env info vaultSubdenom depositToken marsRedbankAddr = .ok s ∧
      RunWhere eventStep KeepsDeposits (Ledger.new contract s collateral) l

theorem Reachable.sound {l : Ledger} (reachable : Reachable l) : Sound l := by
  obtain ⟨deps, env, info, _, _, _, s, contract, collateral, hnew, hrun⟩ := reachable
  have hstart : Sound (Ledger.new contract s collateral) := new_sound hnew
  exact hrun.keeps (fun _ _ _ hsound hkeeps hstep => event_sound hsound hkeeps hstep) hstart

/-! ## Entering and leaving -/

/-- The deposit tokens that one share is worth; with no share out, at the vault's default
    rate. -/
def shareValue (assets supply : Nat) : Rat :=
  if supply = 0 then 1 / defaultVaultTokensPerStakedBaseToken else assets / supply

section

variable {l received : Ledger} {call : Call} {s' : State} {msgs : List Msg}

end

/-! ## On a sample chain -/

def sampleCall (msg : ExecuteMsg) (coin : Coin) (positive : 0 < coin.amount) : Call where
  addrValid _ := true
  blockTime := 7200
  liquidityRate _ _ := .ok (Decimal.percent 5)
  info := MessageInfo.oneCoin "user" coin positive
  msg := msg

def sampleEnter (amount : Nat) (positive : 0 < amount) : Call :=
  sampleCall .enterVault ⟨"uusdc", amount⟩ positive

def sampleVault : State where
  config := ⟨"creator", "redbank", "factory/vault/mars", "uusdc", 0⟩
  vaultToken := 0
  aprTracker := ⟨[], 0, 0⟩
  tokenRateAssurance := none
  ownershipTransfer := none

theorem sampleVault_new : instantiate ⟨fun _ => true, fun _ _ _ => .ok 0, fun _ _ => .ok ⟨0⟩⟩
    ⟨0, "vault"⟩ (MessageInfo.noFunds "creator") "mars" "uusdc" "redbank" = .ok sampleVault := by
  decide +kernel

/-- The vault after events. -/
def vaultAfter (events : List Event) : Option Ledger :=
  execAll (execWhere Ledger.exec KeepsDeposits) events (Ledger.new "vault" sampleVault ∅)

theorem vaultAfter_reachable {events : List Event} {l : Ledger}
    (after : vaultAfter events = some l) :
    Reachable l :=
  ⟨_, _, _, _, _, _, sampleVault, "vault", ∅, sampleVault_new,
    execWhere_run (fun _ _ _ step => step) after⟩

/-- What a reading of the sample vault says: who it is, its deposits and its supply, and the
    messages of a call's handler. -/
structure Reading where
  contract : Addr
  config : Config
  deposited : Nat
  supply : Nat
  msgs : List Msg
  deriving DecidableEq

def sampleReading (events : List Event) (call : Call) : Option Reading := do
  let l ← vaultAfter events
  let _ ← l.receive call.info
  match execute (l.deps call) (l.env call) call.info call.msg l.state with
  | .ok (_, msgs) => some ⟨l.contract, l.state.config, l.deposited, l.state.vaultToken, msgs⟩
  | .error _ => none

theorem sampleReading_spec {events : List Event} {call : Call} {reading : Reading}
    (done : sampleReading events call = some reading) :
    ∃ l received s', vaultAfter events = some l ∧ l.receive call.info = some received ∧
      execute (l.deps call) (l.env call) call.info call.msg l.state = .ok (s', reading.msgs) ∧
      l.contract = reading.contract ∧ l.state.config = reading.config ∧
      l.deposited = reading.deposited ∧ l.state.vaultToken = reading.supply := by
  obtain ⟨l, hl, hrest⟩ := Option.bind_eq_some_iff.mp done
  obtain ⟨received, hreceived, hrest⟩ := Option.bind_eq_some_iff.mp hrest
  split at hrest
  case h_1 s' msgs hexecute =>
    obtain rfl := Option.some.inj hrest
    exact ⟨l, received, s', hl, hreceived, hexecute, rfl, rfl, rfl, rfl⟩
  case h_2 => cases hrest

end Membrane.MarsVault
