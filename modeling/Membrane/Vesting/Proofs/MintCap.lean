import Membrane.Vesting.Proofs.Overdraw

/-!
# What is minted stays within the total allocation

Only the current amounts are checked against the total, so the bound on what was
minted needs the history of each allocation: it is kept as long as no allocation
of which something was withdrawn is replaced, removed or divvied below that.
-/

namespace Membrane.Vesting

open Outcome

/-- The condition on a call: it replaces or removes no allocation of which something was
    withdrawn, and a divvy with somebody else leaves what was withdrawn. -/
def SparesHistory (sender name : Addr) (a : Allocation) : ExecuteMsg → Prop
  | .removeRecipient recipient | .addAllocation recipient _ (some _) =>
    name = recipient → a.amountWithdrawn = 0
  | .addAllocation recipient share none =>
    name = sender → recipient = sender ∨ a.amountWithdrawn = 0 ∨
      share + a.amountWithdrawn ≤ a.amount
  | _ => True

instance (sender name : Addr) (a : Allocation) : ∀ msg, Decidable (SparesHistory sender name a msg)
  | .removeRecipient _ => inferInstanceAs (Decidable (_ → _))
  | .addAllocation _ _ none => inferInstanceAs (Decidable (_ → _))
  | .addAllocation _ _ (some _) => inferInstanceAs (Decidable (_ → _))
  | .withdrawUnlocked | .addRecipient _ | .claimFeesForContract | .claimFeesForRecipient
  | .updateConfig _ => .isTrue trivial

/-- The condition on a call, for every allocation. -/
def KeepsHistory (l : Ledger) (call : Call) : Prop :=
  ∀ recipient ∈ l.state.recipients, ∀ a ∈ recipient.allocation,
    SparesHistory call.info.sender recipient.recipient a call.msg

instance (l : Ledger) (call : Call) : Decidable (KeepsHistory l call) :=
  inferInstanceAs (Decidable (∀ _ ∈ _, ∀ _ ∈ _, _))

def Counted (l : Ledger) : Prop :=
  l.minted ≤ totalOf Allocation.mintable (holdings l.state.recipients)

theorem divvy_left_mintable {a : Allocation} {share : Nat}
    (allowed : a.amountWithdrawn = 0 ∨ share + a.amountWithdrawn ≤ a.amount) :
    a.mintable ≤ (a.divvy share).1.mintable := by
  rw [a.divvy_left]
  unfold Allocation.mintable
  simp only
  omega

theorem mintable_increased (a : Allocation) (more : Nat) :
    a.mintable ≤ { a with amount := a.amount + more }.mintable := by
  unfold Allocation.mintable
  simp only
  omega

theorem Effect.counted {l : Ledger} {call : Call} {s' : State} {mint : Nat} {old new : List Holding}
    (effect : Effect call l.state s' mint old new) (allowed : KeepsHistory l call)
    (counted : Counted l) : Counted ⟨s', l.minted + mint⟩ := by
  have hspares :
      ∀ name a, (name, some a) ∈ old → SparesHistory call.info.sender name a call.msg := by
    intro name a hmem
    obtain ⟨recipient, hrecipient, heq⟩ := List.mem_map.mp (effect.exchanged.mem_old hmem)
    obtain ⟨rfl, hallocation⟩ := Prod.mk.inj heq
    exact allowed recipient hrecipient a hallocation
  have hmore : totalOf Allocation.mintable old + mint ≤ totalOf Allocation.mintable new := by
    have change := effect.change
    cases change with
    | nothing => simp
    | added => simp
    | removed name allocation msg =>
      cases allocation with
      | none => simp
      | some a =>
        have hmine := hspares name a (by simp)
        rw [msg] at hmine
        simp [Allocation.mintable, hmine rfl]
    | replaced name allocation new fresh msg =>
      cases allocation with
      | none => simp
      | some a =>
        have hmine := hspares name a (by simp)
        rw [msg] at hmine
        simp [Allocation.mintable, hmine rfl]
    | withdrew a a' unlocked msg unlock =>
      simpa using Nat.le_of_eq unlock.mintable.symm
    | divvied name share old new msg divvied =>
      cases divvied with
      | nothing => simp
      | added => simp
      | lost a other =>
        have hmine := hspares call.info.sender a (by simp)
        rw [msg] at hmine
        simpa using divvy_left_mintable ((hmine rfl).resolve_left other)
      | increased a b other =>
        have hmine := hspares call.info.sender a (by simp)
        rw [msg] at hmine
        have hleft := divvy_left_mintable ((hmine rfl).resolve_left other)
        have hother := mintable_increased b (a.divvy share).2.amount
        simp only [totalOf_cons, Option.elim_some, totalOf_nil]
        omega
      | opened a other =>
        have hmine := hspares call.info.sender a (by simp)
        rw [msg] at hmine
        have hleft := divvy_left_mintable ((hmine rfl).resolve_left other)
        simp only [totalOf_cons, Option.elim_some, totalOf_nil]
        omega
  have hexchanged := effect.exchanged.total Allocation.mintable
  unfold Counted at counted ⊢
  simp only
  omega

/-- In every state that a run of such calls reaches, no more was minted than may be
    allocated. -/
theorem minted_within_total {deps : Deps} {env : Env} {info : MessageInfo}
    {msg : InstantiateMsg} {created : State} {response : Response OutMsg} {l : Ledger}
    (instantiated : instantiate deps env info msg = .ok (created, response))
    (run : RunWhere callStep KeepsHistory ⟨created, 0⟩ l) :
    l.minted ≤ l.state.config.totalAllocation := by
  have hfresh := instantiate_fresh instantiated
  have hkeeps : ∀ l call l', (Sound l.state ∧ Counted l) → KeepsHistory l call →
      callStep l call l' → (Sound l'.state ∧ Counted l') := by
    intro l call l' ⟨sound, counted⟩ allowed step
    obtain ⟨response, -, hdone, hminted⟩ := callStep_spec step
    obtain ⟨old, new, effect⟩ := execute_effect sound.distinct hdone
    have hcounted := effect.counted allowed counted
    rw [← hminted] at hcounted
    exact ⟨effect.sound sound, hcounted⟩
  obtain ⟨sound, counted⟩ :=
    RunWhere.keeps hkeeps run ⟨hfresh.sound, Nat.zero_le _⟩
  -- what the allocations count is at most their amounts
  have hamounts := totalOf_le (fun a : Allocation => Nat.min_le_left a.amount a.amountWithdrawn)
    (holdings l.state.recipients)
  exact Nat.le_trans counted (Nat.le_trans hamounts sound.allocated)

/-- A divvy of what is left after a withdrawal, and withdrawals of both parts. -/
def divviedHalf : List Call :=
  halfWithdrawn ++ [sampleCall year "friend" .withdrawUnlocked,
    sampleCall year "early" .withdrawUnlocked]

theorem minted_within_total_divvied :
    ∃ created l, newContract = some created ∧
      execAll (execWhere Call.exec KeepsHistory) divviedHalf ⟨created, 0⟩ = some l ∧
      l.minted = 1000000000 ∧ l.minted ≤ l.state.config.totalAllocation := by
  have hmint : (newContract.bind fun created => execAll (execWhere Call.exec KeepsHistory)
      divviedHalf ⟨created, 0⟩).map (·.minted) = some 1000000000 := by decide +kernel
  obtain ⟨l, hl, hmint⟩ := Option.map_eq_some_iff.mp hmint
  obtain ⟨created, hnew, hrun⟩ := Option.bind_eq_some_iff.mp hl
  obtain ⟨response, hcreated⟩ := newContract_spec hnew
  exact ⟨created, l, hnew, hrun, hmint,
    minted_within_total hcreated (execWhere_run (fun _ _ _ h => h) hrun)⟩

def withdrawnAgain : List Call :=
  [sampleCall year "early" .withdrawUnlocked, sampleCall (3 * year) "team" .withdrawUnlocked,
    sampleCall (3 * year) "team" (.addAllocation "friend" 1000000000 none),
    sampleCall (3 * year) "friend" .withdrawUnlocked]

/-- More is minted than the total allocation: what was withdrawn stays with the divvied
    allocation, and the new one starts as if nothing was. -/
theorem minted_over_total :
    ¬ ∀ calls l, calls.Pairwise (fun call call' => call.env.blockTime ≤ call'.env.blockTime) →
      afterGenesis calls = some l → l.minted ≤ l.state.config.totalAllocation := by
  intro claim
  have hover : (afterGenesis withdrawnAgain).map
      (fun l => (l.minted, l.state.config.totalAllocation)) = some (3000000000, 2000000000) := by
    decide +kernel
  obtain ⟨l, hl, hover⟩ := Option.map_eq_some_iff.mp hover
  obtain ⟨hminted, htotal⟩ := Prod.mk.inj hover
  have hclaim := claim withdrawnAgain l (by
    simp [withdrawnAgain, sampleCall, atTime, year, secondsInADay]) hl
  omega

end Membrane.Vesting
