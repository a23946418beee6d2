import Membrane.Vesting.Proofs.Calls

/-!
# Allocations and what was withdrawn of them

Fee shares, the total vesting and voting power subtract what was withdrawn from
the amount of an allocation without a check. The subtraction is safe as long as
an allocation is fully unlocked before anything else was, and nobody divvies what
was withdrawn.
-/

namespace Membrane.Vesting

open Outcome

def WithinAmounts (held : List Holding) : Prop :=
  ∀ holding ∈ held, ∀ a, holding.2 = some a → a.amountWithdrawn ≤ a.amount

/-- The condition on a message of the holder of an allocation: a withdrawal after the end
    of the vesting period is the first one, and a divvy with somebody else leaves what was
    withdrawn. -/
def SparesWithdrawn (sender : Addr) (time : Nat) (a : Allocation) : ExecuteMsg → Prop
  | .withdrawUnlocked => a.Vested time → a.amountWithdrawn = 0
  | .addAllocation recipient share none =>
    recipient = sender ∨ a.amountWithdrawn = 0 ∨ share + a.amountWithdrawn ≤ a.amount
  | _ => True

instance (sender : Addr) (time : Nat) (a : Allocation) :
    ∀ msg, Decidable (SparesWithdrawn sender time a msg)
  | .withdrawUnlocked => inferInstanceAs (Decidable (_ → _))
  | .addAllocation _ _ none => inferInstanceAs (Decidable (_ ∨ _))
  | .addAllocation _ _ (some _) | .addRecipient _ | .removeRecipient _ | .claimFeesForContract
  | .claimFeesForRecipient | .updateConfig _ => .isTrue trivial

/-- The condition on a call, for every allocation of its sender. -/
def UnlocksOnce (l : Ledger) (call : Call) : Prop :=
  ∀ recipient ∈ l.state.recipients, recipient.recipient = call.info.sender →
    ∀ a ∈ recipient.allocation, SparesWithdrawn call.info.sender call.env.blockTime a call.msg

instance (l : Ledger) (call : Call) : Decidable (UnlocksOnce l call) :=
  inferInstanceAs (Decidable (∀ _ ∈ _, _ → ∀ _ ∈ _, _))

theorem divvy_left_within {a : Allocation} {share : Nat}
    (allowed : a.amountWithdrawn = 0 ∨ share + a.amountWithdrawn ≤ a.amount) :
    (a.divvy share).1.amountWithdrawn ≤ (a.divvy share).1.amount := by
  rw [a.divvy_left]
  simp only
  omega

theorem Effect.within {l : Ledger} {call : Call} {s' : State} {mint : Nat} {old new : List Holding}
    (effect : Effect call l.state s' mint old new) (allowed : UnlocksOnce l call)
    (within : WithinAmounts (holdings l.state.recipients)) :
    WithinAmounts (holdings s'.recipients) := by
  refine effect.exchanged.each within ?_
  have hold : ∀ name a, (name, some a) ∈ old → a.amountWithdrawn ≤ a.amount :=
    fun name a hmem => within _ (effect.exchanged.mem_old hmem) a rfl
  have hmine : ∀ a, (call.info.sender, some a) ∈ old →
      SparesWithdrawn call.info.sender call.env.blockTime a call.msg := by
    intro a hmem
    obtain ⟨recipient, hrecipient, heq⟩ := List.mem_map.mp (effect.exchanged.mem_old hmem)
    obtain ⟨hname, hallocation⟩ := Prod.mk.inj heq
    exact allowed recipient hrecipient hname a hallocation
  have change := effect.change
  cases change with
  | nothing => simp
  | added => simp
  | removed => simp
  | replaced name allocation new fresh => simp [fresh]
  | withdrew a a' unlocked msg unlock =>
    have hmine := hmine a (by simp)
    rw [msg] at hmine
    have hwithin := hold call.info.sender a (by simp)
    cases unlock with
    | nothing => simpa using hwithin
    | part _ bounded => simpa using bounded
    | whole _ vested => simp [hmine vested]
  | divvied name share old new msg divvied =>
    cases divvied with
    | nothing => simp
    | added => simp
    | lost a other =>
      have hmine := hmine a (by simp)
      rw [msg] at hmine
      simpa using divvy_left_within (hmine.resolve_left other)
    | increased a b other =>
      have hmine := hmine a (by simp)
      rw [msg] at hmine
      have hleft := divvy_left_within (hmine.resolve_left other)
      have hother := hold name b (by simp)
      simpa using ⟨hleft, by omega⟩
    | opened a other =>
      have hmine := hmine a (by simp)
      rw [msg] at hmine
      have hleft := divvy_left_within (hmine.resolve_left other)
      simpa using ⟨hleft, by rw [a.divvy_taken_withdrawn]; exact Nat.zero_le _⟩

theorem remaining_eq {a : Allocation} (within : a.amountWithdrawn ≤ a.amount) :
    (a.remaining : Outcome StdError Nat) = .ok (a.amount - a.amountWithdrawn) :=
  subUint_eq_ok.mpr ⟨within, rfl⟩

private theorem getTotalVesting_from {ε : Type} :
    ∀ (recipients : List Recipient) (start : Nat), WithinAmounts (holdings recipients) →
      start + totalOf (·.amount) (holdings recipients) < Uint128.limit →
      (recipients.foldlM (fun totalVesting recipient =>
        match recipient.allocation with
        | some allocation => do Uint128.add totalVesting (← allocation.remaining)
        | none => pure totalVesting) start : Outcome ε Nat) =
      .ok (start + totalOf (fun a => a.amount - a.amountWithdrawn) (holdings recipients)) := by
  intro recipients
  induction recipients with
  | nil => intro start _ _; rfl
  | cons recipient rest ih =>
    intro start within fits
    have hwithin : WithinAmounts (holdings rest) :=
      fun holding hmem => within holding (List.mem_cons_of_mem _ hmem)
    simp only [holdings, List.map_cons, totalOf_cons, Recipient.holding] at fits ⊢
    cases hallocation : recipient.allocation with
    | none =>
      rw [hallocation] at fits
      simp only [Option.elim_none, Nat.zero_add] at fits ⊢
      simp only [List.foldlM_cons, hallocation]
      exact ih start hwithin fits
    | some a =>
      rw [hallocation] at fits
      simp only [Option.elim_some] at fits ⊢
      have hle : a.amountWithdrawn ≤ a.amount :=
        within recipient.holding (List.mem_cons_self ..) a hallocation
      have hrest := ih (start + (a.amount - a.amountWithdrawn)) hwithin
        (by simp only [holdings]; omega)
      simp only [List.foldlM_cons, hallocation, Allocation.remaining, subUint, if_pos hle,
        Uint128.add, bind, Except.bind, if_pos (by omega :
          start + (a.amount - a.amountWithdrawn) < Uint128.limit)] at hrest ⊢
      rw [hrest, Nat.add_assoc]
      rfl

theorem getTotalVesting_eq {ε : Type} {recipients : List Recipient}
    (within : WithinAmounts (holdings recipients))
    (fits : totalOf (·.amount) (holdings recipients) < Uint128.limit) :
    (getTotalVesting recipients : Outcome ε Nat) =
      .ok (totalOf (fun a => a.amount - a.amountWithdrawn) (holdings recipients)) := by
  have hsum := getTotalVesting_from (ε := ε) recipients 0 within (by omega)
  rwa [Nat.zero_add] at hsum

/-- In every state that a run of such calls reaches, no allocation is overdrawn, what remains
    of each can be taken, and so can the total vesting. -/
theorem allocations_not_overdrawn {deps : Deps} {env : Env} {info : MessageInfo}
    {msg : InstantiateMsg} {created : State} {response : Response OutMsg} {l : Ledger}
    (instantiated : instantiate deps env info msg = .ok (created, response))
    (run : RunWhere callStep UnlocksOnce ⟨created, 0⟩ l) :
    (∀ recipient ∈ l.state.recipients, ∀ a, recipient.allocation = some a →
      a.amountWithdrawn ≤ a.amount ∧
        (a.remaining : Outcome StdError Nat) = .ok (a.amount - a.amountWithdrawn)) ∧
    (getTotalVesting l.state.recipients : Outcome StdError Nat) =
      .ok (totalOf (fun a => a.amount - a.amountWithdrawn) (holdings l.state.recipients)) := by
  have hfresh := instantiate_fresh instantiated
  have hstart : WithinAmounts (holdings created.recipients) := by
    rintro ⟨name, _⟩ hmem a rfl
    rw [hfresh.untouched name a hmem]
    exact Nat.zero_le _
  have hkeeps : ∀ l call l', (Sound l.state ∧ WithinAmounts (holdings l.state.recipients)) →
      UnlocksOnce l call → callStep l call l' →
      (Sound l'.state ∧ WithinAmounts (holdings l'.state.recipients)) := by
    intro l call l' ⟨sound, within⟩ allowed step
    obtain ⟨response, -, hdone, hl'⟩ := callStep_spec step
    obtain ⟨old, new, effect⟩ := execute_effect sound.distinct hdone
    exact ⟨effect.sound sound, effect.within allowed within⟩
  obtain ⟨sound, within⟩ := RunWhere.keeps hkeeps run ⟨hfresh.sound, hstart⟩
  refine ⟨fun recipient hmem a ha => ?_, getTotalVesting_eq within ?_⟩
  · have hle := within recipient.holding (List.mem_map_of_mem hmem) a ha
    exact ⟨hle, remaining_eq hle⟩
  · exact Nat.lt_of_le_of_lt sound.allocated sound.fits

/-! ## Runs on a sample chain -/

/-- A chain on which every text is an address and the contract has no rewards. -/
def sampleDeps : Deps where
  addrValid _ := true
  userRewards _ _ := .ok []
  userStake _ _ := .ok 0

/-- The block at a time. -/
def atTime (time : Nat) : Env := ⟨time, "vesting"⟩

/-- The instantiation with one contributor and one member of the community. -/
def genesis : InstantiateMsg where
  owner := none
  initialAllocation := 1000000000
  preLaunchContributors := "team"
  preLaunchCommunity := ["early"]
  mbrnDenom := "umbrn"
  osmosisProxy := "proxy"
  stakingContract := "staking"

/-- A contract instantiated by `genesis`. -/
def newContract : Option State :=
  match instantiate sampleDeps (atTime 0) (MessageInfo.noFunds "gov") genesis with
  | .ok (created, _) => some created
  | .error _ => none

theorem newContract_spec {created : State} (done : newContract = some created) :
    ∃ response, instantiate sampleDeps (atTime 0) (MessageInfo.noFunds "gov") genesis =
      .ok (created, response) := by
  unfold newContract at done
  split at done
  case h_1 _ response h =>
    obtain rfl := Option.some.inj done
    exact ⟨response, h⟩
  case h_2 => cases done

def afterGenesis (calls : List Call) : Option Ledger :=
  newContract.bind fun created => execAll Call.exec calls ⟨created, 0⟩

def sampleCall (time : Nat) (user : Addr) (msg : ExecuteMsg) : Call :=
  ⟨sampleDeps, atTime time, MessageInfo.noFunds user, msg⟩

/-- The seconds in a year. -/
def year : Nat := 365 * secondsInADay

/-- A withdrawal half way through the vesting period, and a divvy of what is left. -/
def halfWithdrawn : List Call :=
  [sampleCall (year / 2) "early" .withdrawUnlocked,
    sampleCall (year / 2) "early" (.addAllocation "friend" 400000000 none)]

theorem allocations_not_overdrawn_half :
    ∃ created l, newContract = some created ∧
      execAll (execWhere Call.exec UnlocksOnce) halfWithdrawn ⟨created, 0⟩ = some l ∧
      l.minted = 500000000 ∧ (getTotalVesting l.state.recipients : Outcome StdError Nat) =
        .ok (totalOf (fun a => a.amount - a.amountWithdrawn) (holdings l.state.recipients)) := by
  have hmint : (newContract.bind fun created => execAll (execWhere Call.exec UnlocksOnce)
      halfWithdrawn ⟨created, 0⟩).map (·.minted) = some 500000000 := by decide +kernel
  obtain ⟨l, hl, hmint⟩ := Option.map_eq_some_iff.mp hmint
  obtain ⟨created, hnew, hrun⟩ := Option.bind_eq_some_iff.mp hl
  obtain ⟨response, hcreated⟩ := newContract_spec hnew
  exact ⟨created, l, hnew, hrun, hmint,
    (allocations_not_overdrawn hcreated (execWhere_run (fun _ _ _ h => h) hrun)).2⟩

/-- A withdrawal in the middle of the vesting period and one at its end. -/
def withdrawnTwice : List Call :=
  [sampleCall (year / 2) "early" .withdrawUnlocked, sampleCall year "early" .withdrawUnlocked]

/-- Withdrawals at nondecreasing times overdraw an allocation: at the end of the vesting
    period its whole amount is added to what was withdrawn before. Then the total vesting
    aborts. -/
theorem allocations_overdrawn :
    (¬ ∀ calls l, calls.Pairwise (fun call call' => call.env.blockTime ≤ call'.env.blockTime) →
      afterGenesis calls = some l →
      ∀ recipient ∈ l.state.recipients, ∀ a ∈ recipient.allocation,
        a.amountWithdrawn ≤ a.amount) ∧
    (afterGenesis withdrawnTwice).map
      (fun l => (getTotalVesting l.state.recipients : Outcome StdError Nat)) = some abort := by
  refine ⟨fun claim => ?_, by decide +kernel⟩
  have hover : (afterGenesis withdrawnTwice).map (fun l => decide
      (∀ recipient ∈ l.state.recipients, ∀ a ∈ recipient.allocation,
        a.amountWithdrawn ≤ a.amount)) = some false := by decide +kernel
  obtain ⟨l, hl, hover⟩ := Option.map_eq_some_iff.mp hover
  refine of_decide_eq_false hover (claim withdrawnTwice l ?_ hl)
  simp [withdrawnTwice, sampleCall, atTime, year, secondsInADay]

end Membrane.Vesting
