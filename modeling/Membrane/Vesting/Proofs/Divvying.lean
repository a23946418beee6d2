import Membrane.Lib.Traverse
import Membrane.Vesting.Proofs.Overdraw

/-!
# Divvying an allocation

`add_allocation` without a vesting period takes a share of the sender's allocation and
gives it to a recipient. The share keeps the sender's schedule only when the recipient is
new, it is lost when the recipient has no allocation, and what was withdrawn of the
sender's allocation is not carried along. The condition under which the share is moved
fairly is exact.
-/

namespace Membrane.Vesting

open Outcome

/-! ## What a divvy is to do -/

def amountOf (name : Addr) (held : List Holding) : Nat :=
  totalOf (·.amount) (held.filter fun holding => holding.1 == name)

def Allocation.withdrawable (a : Allocation) (time : Nat) : Nat :=
  match getUnlockedAmount a time with
  | .ok (unlocked, _) => unlocked
  | .error _ => 0

/-- What the recipients can withdraw at a time. -/
def withdrawableAt (time : Nat) (recipients : List Recipient) : Nat :=
  totalOf (·.withdrawable time) (holdings recipients)

def othersThan (sender recipient : Addr) (recipients : List Recipient) : List Recipient :=
  recipients.filter fun stored => stored.recipient != sender && stored.recipient != recipient

/-- The sender had an allocation, its amount fell by what that of the recipient rose, the
    others are as the claim of the fees left them, and at no time from now on can more be
    withdrawn than before. -/
structure Shifted (now : Nat) (sender recipient : Addr) (s claimed s' : State) : Prop where
  entitled : ∃ a, (sender, some a) ∈ holdings s.recipients
  shifted : ∃ moved,
    amountOf sender (holdings s'.recipients) + moved = amountOf sender (holdings s.recipients) ∧
    amountOf recipient (holdings s'.recipients) =
      amountOf recipient (holdings s.recipients) + moved
  others : othersThan sender recipient s'.recipients =
    othersThan sender recipient claimed.recipients
  withdrawn : ∀ time, now ≤ time →
    withdrawableAt time s'.recipients ≤ withdrawableAt time s.recipients

/-- A divvy conserves the allocations, and a sender without one is turned down. -/
structure Conserves (deps : Deps) (env : Env) (info : MessageInfo) (recipient : String)
    (share : Nat) (s : State) : Prop where
  moves : ∀ s' response, addAllocation deps env info recipient share none s = .ok (s', response) →
    ∃ claimed, claimFeesForContract deps env s = .ok (claimed, response) ∧
      Shifted env.blockTime info.sender recipient s claimed s'
  rejects : (∀ a, (info.sender, some a) ∉ holdings s.recipients) →
    ∃ e, addAllocation deps env info recipient share none s = .error (.err e)

/-! ## When it does -/

def Even (now share : Nat) (a b : Allocation) : Prop :=
  ∀ time, now ≤ time →
    ({ a with amount := a.amount - share } : Allocation).withdrawable time +
        ({ b with amount := b.amount + min share a.amount } : Allocation).withdrawable time ≤
      a.withdrawable time + b.withdrawable time

/-- A recipient that gets a share of an allocation: it has an allocation, or is new and gets
    the schedule of the sender, and no more can be withdrawn for that. One without an
    allocation loses the share, unless there is nothing to share. -/
structure Receives (now share : Nat) (a : Allocation) (recipient : Addr) (held : List Holding) :
    Prop where
  lost : (recipient, none) ∈ held → a.amount = 0
  increased : ∀ b, (recipient, some b) ∈ held → Even now share a b
  opened : recipient ∉ held.map Prod.fst →
    Even now share a { a with amount := 0, amountWithdrawn := 0 }

/-- The condition on a divvy: it ends with an error before it begins, or the sender has an
    allocation that it divvies with itself or with somebody who receives the share. -/
def Fair (deps : Deps) (env : Env) (info : MessageInfo) (recipient : String) (share : Nat)
    (s : State) : Prop :=
  match claimFeesForContract deps env s with
  | .error (.err _) => True
  | .error .panic => ∃ a, (info.sender, some a) ∈ holdings s.recipients
  | .ok _ => share = 0 ∨ deps.addrValid recipient = false ∨
      ∃ a, (info.sender, some a) ∈ holdings s.recipients ∧
        (recipient = info.sender ∨
          Receives env.blockTime share a recipient (holdings s.recipients))

/-! ## Amounts -/

theorem amountOf_perm (name : Addr) {held held' : List Holding} (perm : held.Perm held') :
    amountOf name held = amountOf name held' :=
  totalOf_perm _ (perm.filter _)

theorem amountOf_mem {held : List Holding} {name : Addr} {allocation : Option Allocation}
    (nodup : (held.map Prod.fst).Nodup) (mem : (name, allocation) ∈ held) :
    amountOf name held = allocation.elim 0 (·.amount) := by
  have hperm := ListEdit.perm_cons_filter Prod.fst nodup mem
  have hrest : ((held.filter fun holding => holding.1 != name).filter
      fun holding => holding.1 == name) = [] := by
    simp [List.filter_filter]
  rw [amountOf_perm name hperm, amountOf, List.filter_cons_of_pos (by simp), hrest]
  simp

theorem amountOf_absent {held : List Holding} {name : Addr}
    (absent : name ∉ held.map Prod.fst) : amountOf name held = 0 := by
  have hnone : (held.filter fun holding => holding.1 == name) = [] := by
    refine List.filter_eq_nil_iff.mpr fun holding hmem => ?_
    simpa using fun heq : holding.1 = name => absent (heq ▸ List.mem_map_of_mem hmem)
  rw [amountOf, hnone, totalOf_nil]

theorem totalOf_two_le (measure : Allocation → Nat) {held : List Holding} {x y : Holding}
    (memx : x ∈ held) (memy : y ∈ held) (other : y ≠ x) :
    x.2.elim 0 measure + y.2.elim 0 measure ≤ totalOf measure held := by
  have hy : y ∈ held.erase x := (List.mem_erase_of_ne other).mpr memy
  rw [totalOf_perm measure (List.perm_cons_erase memx), totalOf_cons,
    totalOf_perm measure (List.perm_cons_erase hy), totalOf_cons]
  omega

theorem totalOf_one_le (measure : Allocation → Nat) {held : List Holding} {x : Holding}
    (mem : x ∈ held) : x.2.elim 0 measure ≤ totalOf measure held := by
  rw [totalOf_perm measure (List.perm_cons_erase mem), totalOf_cons]
  exact Nat.le_add_right _ _

theorem Divvied.amounts {sender name : Addr} {share : Nat} {before old new : List Holding}
    (divvied : Divvied sender name share before old new) :
    totalOf (·.amount) new ≤ totalOf (·.amount) old := by
  cases divvied with
  | nothing => exact Nat.le_refl _
  | added => exact Nat.le_refl _
  | lost a other =>
    have hamounts := a.divvy_amounts share
    simp only [totalOf_cons, totalOf_nil, Option.elim_some]
    omega
  | increased a b other =>
    have hamounts := a.divvy_amounts share
    simp only [totalOf_cons, totalOf_nil, Option.elim_some]
    omega
  | opened a other absent =>
    have hamounts := a.divvy_amounts share
    simp only [totalOf_cons, totalOf_nil, Option.elim_some]
    omega

theorem Allocation.divvy_taken (a : Allocation) (share : Nat) :
    (a.divvy share).2 = { a with amount := min share a.amount, amountWithdrawn := 0 } := by
  unfold Allocation.divvy
  cases h : Uint128.checkedSub a.amount share with
  | some diff =>
    obtain ⟨hle, -⟩ := Uint128.checkedSub_eq_some.mp h
    rw [Nat.min_eq_left hle]
  | none =>
    have hlt := Uint128.checkedSub_eq_none.mp h
    rw [Nat.min_eq_right (Nat.le_of_lt hlt)]

/-! ## The other recipients -/

theorem divvySenders_map (sender : Addr) (share : Nat) :
    ∀ (recipients : List Recipient) (newAllocation : Option Allocation),
      (divvySenders sender share newAllocation recipients).1 =
        recipients.map fun stored => (divvySender sender share none stored).1 := by
  intro recipients
  induction recipients with
  | nil => intro newAllocation; rfl
  | cons stored rest ih =>
    intro newAllocation
    have hhead : (divvySender sender share newAllocation stored).1 =
        (divvySender sender share none stored).1 := by
      unfold divvySender
      by_cases hname : stored.recipient = sender
      · cases stored.allocation <;> simp [hname]
      · simp [hname]
    simp only [divvySenders, List.map_cons, hhead, ih]

theorem othersThan_forall₂ {sender recipient : Addr} {recipients recipients' : List Recipient}
    (each : List.Forall₂ (fun stored stored' : Recipient =>
      stored'.recipient = stored.recipient ∧
        (stored.recipient ≠ sender → stored.recipient ≠ recipient → stored' = stored))
      recipients recipients') :
    othersThan sender recipient recipients' = othersThan sender recipient recipients := by
  induction each with
  | nil => rfl
  | @cons stored stored' rest rest' hhead _ ih =>
    simp only [othersThan] at ih ⊢
    by_cases hother : stored.recipient ≠ sender ∧ stored.recipient ≠ recipient
    · rw [hhead.2 hother.1 hother.2, List.filter_cons_of_pos (by simpa using hother),
        List.filter_cons_of_pos (by simpa using hother), ih]
    · have hname := hhead.1
      rw [List.filter_cons_of_neg (by simpa [hname] using hother),
        List.filter_cons_of_neg (by simpa using hother), ih]

theorem divvyAllocation_others {sender recipient : Addr} {share : Nat}
    {recipients recipients' : List Recipient}
    (done : divvyAllocation sender recipient share recipients = .ok recipients') :
    othersThan sender recipient recipients' = othersThan sender recipient recipients := by
  have hfirst : othersThan sender recipient (divvySenders sender share none recipients).1 =
      othersThan sender recipient recipients := by
    refine othersThan_forall₂ ?_
    rw [divvySenders_map]
    refine List.forall₂_map_right_iff.mpr (List.forall₂_same.mpr fun stored _ => ?_)
    unfold divvySender
    by_cases hname : stored.recipient = sender
    · rw [if_pos hname]
      cases stored.allocation with
      | none => exact ⟨rfl, fun _ _ => rfl⟩
      | some a => exact ⟨rfl, fun hsender => absurd hname hsender⟩
    · rw [if_neg hname]
      exact ⟨rfl, fun _ _ => rfl⟩
  rw [← hfirst]
  simp only [divvyAllocation] at done
  split at done
  case isTrue =>
    refine othersThan_forall₂ ((mapM_forall₂ done).imp fun stored stored' hround => ?_)
    unfold increaseAllocation at hround
    split at hround
    case isTrue hname =>
      split at hround
      case h_1 =>
        simp only [bind_eq_ok, pure_eq_ok] at hround
        obtain ⟨_, -, _, -, rfl⟩ := hround
        exact ⟨rfl, fun _ hother => absurd hname hother⟩
      case h_2 =>
        obtain rfl := pure_eq_ok.mp hround
        exact ⟨rfl, fun _ _ => rfl⟩
    case isFalse =>
      obtain rfl := pure_eq_ok.mp hround
      exact ⟨rfl, fun _ _ => rfl⟩
  case isFalse =>
    obtain rfl := pure_eq_ok.mp done
    simp [othersThan]

/-! ## How a divvy ends -/

theorem increaseAllocation_errorless (recipient : Addr) (newAllocation : Option Allocation)
    (stored : Recipient) : Errorless (increaseAllocation recipient newAllocation stored) := by
  refine .ite ?_ (.pure _)
  split
  case h_1 =>
    exact .bind (.unwrap _) fun new => .bind (Uint128.add_errorless _ _) fun amount => .pure _
  case h_2 => exact .pure _

theorem divvyAllocation_errorless (sender recipient : Addr) (share : Nat)
    (recipients : List Recipient) :
    Errorless (divvyAllocation sender recipient share recipients) :=
  .ite (.mapM (increaseAllocation_errorless _ _) _) (.pure _)

theorem addAllocation_outcome {deps : Deps} {env : Env} {info : MessageInfo} {recipient : String}
    {share : Nat} {s claimed : State} {response : Response OutMsg} (sound : Sound claimed)
    (claim : claimFeesForContract deps env s = .ok (claimed, response)) (some_share : share ≠ 0)
    (valid : deps.addrValid recipient = true) :
    (∃ recipients, divvyAllocation info.sender recipient share claimed.recipients =
        .ok recipients ∧
      addAllocation deps env info recipient share none s =
        .ok ({ claimed with recipients := recipients }, response)) ∨
    (divvyAllocation info.sender recipient share claimed.recipients = .error .panic ∧
      addAllocation deps env info recipient share none s = .error .panic) := by
  have hrecipient : liftStd (addrValidate deps.addrValid recipient) = .ok recipient :=
    liftStd_eq_ok.mpr (addrValidate_eq_ok.mpr ⟨valid, rfl⟩)
  have hunfold : addAllocation deps env info recipient share none s = (do
      let recipients ← divvyAllocation info.sender recipient share claimed.recipients
      let allocationTotal ← Uint128.sum (allocatedAmounts recipients)
      Outcome.guardErr (claimed.config.totalAllocation < allocationTotal) .overAllocated
      pure ({ claimed with recipients := recipients }, response)) := by
    unfold addAllocation
    rw [claim]
    simp only [bind, Except.bind, guardErr, if_neg some_share, hrecipient, pure, Except.pure]
  rw [hunfold]
  cases hdivvy : divvyAllocation info.sender recipient share claimed.recipients with
  | error fault =>
    cases fault with
    | err e => exact absurd hdivvy (divvyAllocation_errorless _ _ _ _ e)
    | panic => exact .inr ⟨rfl, rfl⟩
  | ok recipients =>
    obtain ⟨old, new, hdivvied, hexchanged⟩ := divvyAllocation_spec sound.distinct hdivvy
    have hsmaller := hdivvied.amounts
    have htotal := hexchanged.total (·.amount)
    have hallocated := sound.allocated
    have hfits := sound.fits
    rw [← allocatedAmounts_sum] at htotal
    have hsum : (Uint128.sum (allocatedAmounts recipients) : Result Nat) =
        .ok (allocatedAmounts recipients).sum := Uint128.sum_fits (by omega)
    refine .inl ⟨recipients, rfl, ?_⟩
    exact bind_eq_ok.mpr ⟨_, rfl, bind_eq_ok.mpr ⟨_, hsum, bind_eq_ok.mpr
      ⟨⟨⟩, guardErr_eq_ok.mpr (by omega), rfl⟩⟩⟩

theorem divvyAllocation_runs {sender recipient : Addr} {share : Nat} {a : Allocation} {s : State}
    (sound : Sound s) (mem : (sender, some a) ∈ holdings s.recipients) :
    ∃ recipients, divvyAllocation sender recipient share s.recipients = .ok recipients := by
  have htaken := @divvySenders_taken sender share a s.recipients none sound.distinct mem
  have hleft := divvySenders_holdings sender share s.recipients none
  have hamounts := a.divvy_amounts share
  simp only [divvyAllocation, htaken]
  split
  case isFalse => exact ⟨_, rfl⟩
  case isTrue =>
    refine ⟨_, (mapM_eq_ok_iff ⟨"", none, []⟩).mpr ⟨fun stored hstored => ?_, rfl⟩⟩
    obtain ⟨stored', hround⟩ : ∃ stored',
        increaseAllocation recipient (some (a.divvy share).2) stored = .ok stored' := by
      unfold increaseAllocation
      split
      case isFalse => exact ⟨_, rfl⟩
      case isTrue hname =>
        split
        case h_2 => exact ⟨_, rfl⟩
        case h_1 b hb =>
          have hheld : stored.holding ∈ (holdings s.recipients).map fun holding =>
              if holding.1 = sender then leftOf share holding else holding :=
            hleft ▸ List.mem_map_of_mem hstored
          obtain ⟨holding, hmem, hholding⟩ := List.mem_map.mp hheld
          have hfits : b.amount + (a.divvy share).2.amount < Uint128.limit := by
            have hallocated := sound.allocated
            have hlimit := sound.fits
            by_cases hsender : holding.1 = sender
            · -- the recipient is the sender: its amount comes back
              obtain rfl : holding = (sender, some a) :=
                List.inj_on_of_nodup_map sound.distinct hmem mem hsender
              rw [if_pos rfl] at hholding
              obtain rfl : (a.divvy share).1 = b :=
                Option.some.inj ((congrArg Prod.snd hholding).trans hb)
              have hone : a.amount ≤ _ := totalOf_one_le (·.amount) mem
              omega
            · rw [if_neg hsender] at hholding
              have hamount : holding.2.elim 0 (·.amount) = b.amount := by
                rw [hholding, Recipient.holding, hb]
                rfl
              have htwo := totalOf_two_le (·.amount) mem hmem
                fun heq => hsender (congrArg Prod.fst heq)
              rw [hamount] at htwo
              simp only [Option.elim_some] at htwo
              omega
          exact ⟨_, bind_eq_ok.mpr ⟨_, rfl, bind_eq_ok.mpr
            ⟨_, Uint128.add_eq_ok.mpr ⟨hfits, rfl⟩, rfl⟩⟩⟩
    rw [hround]
    rfl

/-! ## The condition -/

namespace Exchanged

variable {old new before after : List Holding}

theorem mem_new (exchanged : Exchanged old new before after) {holding : Holding}
    (mem : holding ∈ new) : holding ∈ after := by
  obtain ⟨rest, -, ha⟩ := exchanged
  exact ha.mem_iff.mpr (List.mem_append_left _ mem)

theorem mem_kept (exchanged : Exchanged old new before after) {holding : Holding}
    (mem : holding ∈ before) (kept : holding ∉ old) : holding ∈ after := by
  obtain ⟨rest, hb, ha⟩ := exchanged
  rcases List.mem_append.mp (hb.mem_iff.mp mem) with hold | hrest
  · exact absurd hold kept
  · exact ha.mem_iff.mpr (List.mem_append_right _ hrest)

end Exchanged

@[simp]
theorem Allocation.withdrawable_empty {a : Allocation} (empty : a.amount = 0) (time : Nat) :
    a.withdrawable time = 0 := by
  rw [Allocation.withdrawable, getUnlockedAmount, if_pos empty]
  rfl

section Shifting

variable {now share : Nat} {sender recipient : Addr} {a : Allocation} {before after : List Holding}

private structure Moved (now : Nat) (sender recipient : Addr) (before after : List Holding) :
    Prop where
  shifted : ∃ moved, amountOf sender after + moved = amountOf sender before ∧
    amountOf recipient after = amountOf recipient before + moved
  withdrawn : ∀ time, now ≤ time →
    totalOf (·.withdrawable time) after ≤ totalOf (·.withdrawable time) before

private theorem moved_lost (nodup : (before.map Prod.fst).Nodup)
    (nodup' : (after.map Prod.fst).Nodup) (some_share : share ≠ 0)
    (mem : (sender, some a) ∈ before) (there : (recipient, none) ∈ before)
    (given : Given sender recipient share a before after) :
    Moved now sender recipient before after ↔ a.amount = 0 := by
  have hexchanged := given.lost there
  have hleft := hexchanged.mem_new List.mem_cons_self
  have hkept : (recipient, none) ∈ after := hexchanged.mem_kept there (by simp)
  have hsender : amountOf sender before = a.amount := amountOf_mem nodup mem
  have hsender' : amountOf sender after = a.amount - share := by
    rw [amountOf_mem nodup' hleft, a.divvy_left]
    rfl
  have hrecipient : amountOf recipient before = 0 := amountOf_mem nodup there
  have hrecipient' : amountOf recipient after = 0 := amountOf_mem nodup' hkept
  constructor
  · rintro ⟨⟨moved, hfell, hrose⟩, -⟩
    omega
  · intro hempty
    refine ⟨⟨0, by omega, by omega⟩, fun time _ => ?_⟩
    have htotal := hexchanged.total (·.withdrawable time)
    have hnothing : (a.divvy share).1.withdrawable time = 0 :=
      Allocation.withdrawable_empty (by rw [a.divvy_left, hempty]; exact Nat.zero_sub _) time
    simp only [totalOf_cons, totalOf_nil, Option.elim_some, hnothing] at htotal
    omega

private theorem moved_increased {b : Allocation} (nodup : (before.map Prod.fst).Nodup)
    (nodup' : (after.map Prod.fst).Nodup) (mem : (sender, some a) ∈ before)
    (there : (recipient, some b) ∈ before) (given : Given sender recipient share a before after) :
    Moved now sender recipient before after ↔ Even now share a b := by
  have hexchanged := given.increased b there
  rw [a.divvy_left, a.divvy_taken] at hexchanged
  have hsender : amountOf sender before = a.amount := amountOf_mem nodup mem
  have hrecipient : amountOf recipient before = b.amount := amountOf_mem nodup there
  have hsender' : amountOf sender after = a.amount - share :=
    amountOf_mem nodup' (hexchanged.mem_new List.mem_cons_self)
  have hrecipient' : amountOf recipient after = b.amount + min share a.amount :=
    amountOf_mem nodup' (hexchanged.mem_new (List.mem_cons_of_mem _ List.mem_cons_self))
  have htotal : ∀ time, _ := fun time => hexchanged.total (·.withdrawable time)
  simp only [totalOf_cons, totalOf_nil, Option.elim_some] at htotal
  constructor
  · rintro ⟨-, hwithdrawn⟩ time hnow
    have hbound := hwithdrawn time hnow
    have hsum := htotal time
    omega
  · intro even
    refine ⟨⟨min share a.amount, by omega, by omega⟩, fun time hnow => ?_⟩
    have hbound := even time hnow
    have hsum := htotal time
    omega

private theorem moved_opened (nodup : (before.map Prod.fst).Nodup)
    (nodup' : (after.map Prod.fst).Nodup) (mem : (sender, some a) ∈ before)
    (absent : recipient ∉ before.map Prod.fst)
    (given : Given sender recipient share a before after) :
    Moved now sender recipient before after ↔
      Even now share a { a with amount := 0, amountWithdrawn := 0 } := by
  have hexchanged := given.opened absent
  rw [a.divvy_left, a.divvy_taken] at hexchanged
  have hsender : amountOf sender before = a.amount := amountOf_mem nodup mem
  have hrecipient : amountOf recipient before = 0 := amountOf_absent absent
  have hsender' : amountOf sender after = a.amount - share :=
    amountOf_mem nodup' (hexchanged.mem_new List.mem_cons_self)
  have hrecipient' : amountOf recipient after = min share a.amount :=
    amountOf_mem nodup' (hexchanged.mem_new (List.mem_cons_of_mem _ List.mem_cons_self))
  have htotal : ∀ time, _ := fun time => hexchanged.total (·.withdrawable time)
  simp only [totalOf_cons, totalOf_nil, Option.elim_some] at htotal
  constructor
  · rintro ⟨-, hwithdrawn⟩ time hnow
    have hbound := hwithdrawn time hnow
    have hsum := htotal time
    simp only [Nat.zero_add, Allocation.withdrawable_empty]
    omega
  · intro even
    refine ⟨⟨min share a.amount, by omega, by omega⟩, fun time hnow => ?_⟩
    have hbound := even time hnow
    have hsum := htotal time
    simp only [Nat.zero_add, Allocation.withdrawable_empty] at hbound
    omega

private theorem moved_iff (nodup : (before.map Prod.fst).Nodup)
    (nodup' : (after.map Prod.fst).Nodup) (some_share : share ≠ 0)
    (mem : (sender, some a) ∈ before) (given : Given sender recipient share a before after) :
    Moved now sender recipient before after ↔ Receives now share a recipient before := by
  rcases holding_cases before recipient with ⟨_ | b, hmem⟩ | habsent
  · rw [moved_lost nodup nodup' some_share mem hmem given]
    refine ⟨fun hempty => ⟨fun _ => hempty, fun b hb => ?_, fun habsent => ?_⟩,
      fun h => h.lost hmem⟩
    · cases List.inj_on_of_nodup_map nodup hmem hb rfl
    · exact absurd (List.mem_map_of_mem hmem) habsent
  · rw [moved_increased nodup nodup' mem hmem given]
    refine ⟨fun even => ⟨fun hnone => ?_, fun b' hb' => ?_, fun habsent => ?_⟩,
      fun h => h.increased b hmem⟩
    · cases List.inj_on_of_nodup_map nodup hmem hnone rfl
    · cases List.inj_on_of_nodup_map nodup hmem hb' rfl
      exact even
    · exact absurd (List.mem_map_of_mem hmem) habsent
  · rw [moved_opened nodup nodup' mem habsent given]
    refine ⟨fun even => ⟨fun hnone => ?_, fun b hb => ?_, fun _ => even⟩, fun h => h.opened habsent⟩
    · exact absurd (List.mem_map_of_mem hnone) habsent
    · exact absurd (List.mem_map_of_mem hb) habsent

end Shifting

theorem shifted_iff {now share : Nat} {sender recipient : Addr} {a : Allocation}
    {s claimed : State} {recipients : List Recipient} (sound : Sound claimed)
    (same : (holdings claimed.recipients).Perm (holdings s.recipients)) (some_share : share ≠ 0)
    (mem : (sender, some a) ∈ holdings s.recipients)
    (divvied : divvyAllocation sender recipient share claimed.recipients = .ok recipients) :
    Shifted now sender recipient s claimed { claimed with recipients := recipients } ↔
      recipient = sender ∨ Receives now share a recipient (holdings claimed.recipients) := by
  have hmem : (sender, some a) ∈ holdings claimed.recipients := same.mem_iff.mpr mem
  have hothers := divvyAllocation_others divvied
  have hamounts : ∀ name, amountOf name (holdings claimed.recipients) =
      amountOf name (holdings s.recipients) := fun name => amountOf_perm name same
  have hwithdrawable : ∀ time, totalOf (·.withdrawable time) (holdings claimed.recipients) =
      totalOf (·.withdrawable time) (holdings s.recipients) := fun time => totalOf_perm _ same
  by_cases hself : recipient = sender
  · subst hself
    obtain ⟨rest, hbefore, hafter⟩ := divvyAllocation_self sound.distinct hmem divvied
    have hperm : (holdings recipients).Perm (holdings claimed.recipients) :=
      hafter.trans hbefore.symm
    refine ⟨fun _ => .inl rfl, fun _ => ⟨⟨a, mem⟩, ⟨0, ?_, ?_⟩, hothers, fun time _ => ?_⟩⟩
    · exact (amountOf_perm _ hperm).trans (hamounts _)
    · exact (amountOf_perm _ hperm).trans (hamounts _)
    · exact Nat.le_of_eq ((totalOf_perm _ hperm).trans (hwithdrawable time))
  · have hgiven := divvyAllocation_given sound.distinct hmem hself divvied
    obtain ⟨old, new, hdivvied, hexchanged⟩ := divvyAllocation_spec sound.distinct divvied
    have hnodup' : ((holdings recipients).map Prod.fst).Nodup :=
      hexchanged.distinct sound.distinct hdivvied.distinct.1 hdivvied.distinct.2
    rw [← moved_iff sound.distinct hnodup' some_share hmem hgiven]
    simp only [hself, false_or]
    constructor
    · rintro ⟨-, hshifted, -, hwithdrawn⟩
      simp only [← hamounts] at hshifted
      refine ⟨hshifted, fun time hnow => ?_⟩
      rw [hwithdrawable]
      exact hwithdrawn time hnow
    · rintro ⟨hshifted, hwithdrawn⟩
      simp only [hamounts] at hshifted
      refine ⟨⟨a, mem⟩, hshifted, hothers, fun time hnow => ?_⟩
      rw [withdrawableAt, withdrawableAt, ← hwithdrawable]
      exact hwithdrawn time hnow

theorem Receives.perm {now share : Nat} {a : Allocation} {recipient : Addr}
    {held held' : List Holding} (receives : Receives now share a recipient held)
    (perm : held.Perm held') : Receives now share a recipient held' where
  lost := fun hmem => receives.lost (perm.mem_iff.mpr hmem)
  increased := fun b hmem => receives.increased b (perm.mem_iff.mpr hmem)
  opened := fun habsent => receives.opened fun hmem => habsent ((perm.map _).mem_iff.mp hmem)

theorem addAllocation_turnedDown {deps : Deps} {env : Env} {info : MessageInfo}
    {recipient : String} {share : Nat} {s claimed : State} {response : Response OutMsg}
    (claim : claimFeesForContract deps env s = .ok (claimed, response))
    (bad : share = 0 ∨ deps.addrValid recipient = false) :
    ∃ e, addAllocation deps env info recipient share none s = .error (.err e) := by
  by_cases hshare : share = 0
  · refine ⟨.invalidAllocation, ?_⟩
    unfold addAllocation
    rw [claim]
    simp only [bind, Except.bind, guardErr, if_pos hshare]
    rfl
  · refine ⟨.std (.genericErr "addr_validate errored"), ?_⟩
    have hrecipient := bad.resolve_left hshare
    unfold addAllocation
    rw [claim]
    simp only [bind, Except.bind, guardErr, if_neg hshare, addrValidate, hrecipient]
    rfl

/-- A divvy conserves the allocations and turns down a sender without one exactly when it is
    fair. -/
theorem conserves_iff {deps : Deps} {env : Env} {info : MessageInfo} {recipient : String}
    {share : Nat} {s : State} (sound : Sound s) :
    Conserves deps env info recipient share s ↔ Fair deps env info recipient share s := by
  have hnever : (∀ s' response,
      addAllocation deps env info recipient share none s ≠ .ok (s', response)) →
      (Conserves deps env info recipient share s ↔
        ((∀ a, (info.sender, some a) ∉ holdings s.recipients) →
          ∃ e, addAllocation deps env info recipient share none s = .error (.err e))) := by
    intro stuck
    exact ⟨fun conserves => conserves.rejects,
      fun rejects => ⟨fun s' response done => absurd done (stuck s' response), rejects⟩⟩
  unfold Fair
  cases hclaim : claimFeesForContract deps env s with
  | error fault =>
    have hfails : addAllocation deps env info recipient share none s = .error fault := by
      rw [addAllocation, hclaim]
      rfl
    rw [hnever (fun s' response done => by rw [hfails] at done; cases done), hfails]
    cases fault with
    | err e => exact ⟨fun _ => trivial, fun _ _ => ⟨e, rfl⟩⟩
    | panic =>
      dsimp only
      constructor
      · intro rejects
        by_contra hnobody
        obtain ⟨e, he⟩ := rejects fun a hmem => hnobody ⟨a, hmem⟩
        cases he
      · rintro ⟨a, hmem⟩ hnobody
        exact absurd hmem (hnobody a)
  | ok result =>
    obtain ⟨claimed, response⟩ := result
    dsimp only
    have hsound : Sound claimed := by
      obtain ⟨old, new, effect⟩ := @execute_effect deps env info s claimed response
        .claimFeesForContract sound.distinct hclaim
      exact effect.sound sound
    have hsame : (holdings claimed.recipients).Perm (holdings s.recipients) := by
      obtain ⟨_, rfl, hperm, -⟩ := claimFeesForContract_spec hclaim
      exact hperm
    by_cases hearly : share = 0 ∨ deps.addrValid recipient = false
    · obtain ⟨e, hfails⟩ :=
        @addAllocation_turnedDown deps env info recipient share s claimed response
        hclaim hearly
      rw [hnever fun s' response done => by rw [hfails] at done; cases done]
      exact ⟨fun _ => hearly.imp_right .inl, fun _ _ => ⟨e, hfails⟩⟩
    · obtain ⟨hshare, hvalid⟩ := not_or.mp hearly
      have hvalid : deps.addrValid recipient = true := Bool.of_not_eq_false hvalid
      have houtcome := @addAllocation_outcome deps env info recipient share s claimed response
        hsound hclaim hshare hvalid
      simp only [hshare, hvalid, Bool.true_eq_false, false_or]
      constructor
      · intro conserves
        rcases houtcome with ⟨recipients, hdivvied, hdone⟩ | ⟨hdivvies, hpanics⟩
        · obtain ⟨_, hclaim', hshifted⟩ := conserves.moves _ _ hdone
          obtain rfl : claimed = _ := congrArg Prod.fst (Except.ok.inj (hclaim.symm.trans hclaim'))
          obtain ⟨a, hmem⟩ := hshifted.entitled
          have hfair := (shifted_iff hsound hsame hshare hmem hdivvied).mp hshifted
          exact ⟨a, hmem, hfair.imp_right fun receives => receives.perm hsame⟩
        · -- the allocation of a sender who has one is divvied
          have hnobody : ∀ a, (info.sender, some a) ∉ holdings s.recipients := by
            intro a hmem
            obtain ⟨recipients, hruns⟩ := @divvyAllocation_runs info.sender recipient share
              a claimed hsound (hsame.mem_iff.mpr hmem)
            rw [hdivvies] at hruns
            cases hruns
          obtain ⟨e, he⟩ := conserves.rejects hnobody
          rw [hpanics] at he
          cases he
      · rintro ⟨a, hmem, hfair⟩
        refine ⟨fun s' response' done => ?_, fun hnobody => absurd hmem (hnobody a)⟩
        rcases houtcome with ⟨recipients, hdivvied, hdone⟩ | ⟨-, hpanics⟩
        · obtain ⟨rfl, rfl⟩ := Prod.mk.inj (Except.ok.inj (hdone.symm.trans done))
          refine ⟨claimed, hclaim, (shifted_iff hsound hsame hshare hmem hdivvied).mpr ?_⟩
          exact hfair.imp_right fun receives => receives.perm hsame.symm
        · rw [hpanics] at done
          cases done

/-! ## What a schedule unlocks -/

def Allocation.holding (a : Allocation) (n withdrawn : Nat) : Allocation :=
  { a with amount := n, amountWithdrawn := withdrawn }

/-- Amounts on the schedule of an allocation unlock by one ratio. -/
structure Allocation.UnlocksBy (a : Allocation) (time ratio : Nat) : Prop where
  part : ratio ≤ Decimal.fractional
  unlocks : ∀ n withdrawn, withdrawn + n < Uint128.limit →
    (a.holding n withdrawn).withdrawable time = n * ratio / Decimal.fractional - withdrawn

namespace Allocation

variable {a b : Allocation} {time ratio : Nat}

theorem UnlocksBy.withdrawable (unlocks : a.UnlocksBy time ratio)
    (fits : a.amountWithdrawn + a.amount < Uint128.limit) :
    a.withdrawable time = a.amount * ratio / Decimal.fractional - a.amountWithdrawn :=
  unlocks.unlocks a.amount a.amountWithdrawn fits

theorem getUnlockedAmount_part {passed cliff linear n withdrawn : Nat} {x y ratio : Decimal}
    (hn : n ≠ 0) (le : ratio.atomics ≤ Decimal.fractional) (fits : withdrawn + n < Uint128.limit)
    (started : (subUint time a.startTimeOfAllocation : Outcome StdError Nat) = .ok passed)
    (cliffs : (Uint64.mul a.vestingPeriod.cliff secondsInADay : Outcome StdError Nat) = .ok cliff)
    (past : ¬ passed < cliff)
    (linears : (Uint64.mul a.vestingPeriod.linear secondsInADay : Outcome StdError Nat) =
      .ok linear) (part : passed - cliff < linear)
    (numerator : (Decimal.fromRatio (passed - cliff) 1 : Outcome StdError Decimal) = .ok x)
    (denominator : (Decimal.fromRatio linear 1 : Outcome StdError Decimal) = .ok y)
    (divided : decimalDivision x y = .ok ratio) :
    (a.holding n withdrawn).withdrawable time =
      n * ratio.atomics / Decimal.fractional - withdrawn := by
  have hbound : n * ratio.atomics / Decimal.fractional ≤ n := mul_ratio_le le
  have hdone : getUnlockedAmount (a.holding n withdrawn) time = (do
      let newly ← (if ratio.isZero = false then do
          subUint (← Decimal.mulUint n ratio) withdrawn
        else pure 0)
      let total ← Uint128.add withdrawn newly
      pure (newly, { a.holding n withdrawn with amountWithdrawn := total })) := by
    unfold getUnlockedAmount
    rw [if_neg (show ¬ (a.holding n withdrawn).amount = 0 from hn)]
    dsimp only [holding]
    rw [started, cliffs]
    refine (if_neg past).trans ?_
    rw [linears]
    refine (if_pos part).trans ?_
    rw [numerator, denominator]
    change (decimalDivision x y >>= _) = _
    rw [divided]
    rfl
  have hnewly : ∀ newly, (if ratio.isZero = false then do
        subUint (← Decimal.mulUint n ratio) withdrawn
      else pure 0 : Outcome StdError Nat) = .ok newly →
        newly = n * ratio.atomics / Decimal.fractional - withdrawn := by
    intro newly done
    split at done
    · obtain ⟨product, hproduct, hleft⟩ := bind_eq_ok.mp done
      obtain ⟨-, rfl⟩ := Decimal.mulUint_ok_iff.mp hproduct
      exact (subUint_eq_ok.mp hleft).2.symm
    case isFalse hzero =>
      have hatomics : ratio.atomics = 0 := by simpa [Decimal.isZero] using hzero
      rw [hatomics, Nat.mul_zero, Nat.zero_div, Nat.zero_sub]
      exact (pure_eq_ok.mp done).symm
  unfold withdrawable
  rw [hdone]
  split
  case h_1 newly after done =>
    obtain ⟨_, hsome, done⟩ := bind_eq_ok.mp done
    obtain ⟨_, -, done⟩ := bind_eq_ok.mp done
    obtain ⟨rfl, -⟩ := Prod.mk.inj (pure_eq_ok.mp done)
    exact hnewly _ hsome
  case h_2 error failed =>
    -- only more withdrawn than unlocked fails
    by_contra hne
    have hless : withdrawn < n * ratio.atomics / Decimal.fractional := by omega
    have hpositive : ratio.isZero = false := by
      by_contra hzero
      have hatomics : ratio.atomics = 0 := by simpa [Decimal.isZero] using hzero
      rw [hatomics, Nat.mul_zero, Nat.zero_div] at hless
      exact Nat.not_lt_zero _ hless
    have hunlocked : (do subUint (← Decimal.mulUint n ratio) withdrawn : Outcome StdError Nat) =
        .ok (n * ratio.atomics / Decimal.fractional - withdrawn) := bind_eq_ok.mpr
      ⟨n * ratio.atomics / Decimal.fractional, Decimal.mulUint_ok_iff.mpr ⟨by omega, rfl⟩,
        subUint_eq_ok.mpr ⟨hless.le, rfl⟩⟩
    have htotal : (Uint128.add withdrawn (n * ratio.atomics / Decimal.fractional - withdrawn) :
        Outcome StdError Nat) =
          .ok (withdrawn + (n * ratio.atomics / Decimal.fractional - withdrawn)) :=
      Uint128.add_eq_ok.mpr ⟨by omega, rfl⟩
    rw [if_pos hpositive, hunlocked] at failed
    change (Uint128.add withdrawn _ >>= _) = _ at failed
    rw [htotal] at failed
    cases failed

theorem getUnlockedAmount_whole {passed cliff linear n withdrawn : Nat} (hn : n ≠ 0)
    (fits : withdrawn + n < Uint128.limit)
    (started : (subUint time a.startTimeOfAllocation : Outcome StdError Nat) = .ok passed)
    (cliffs : (Uint64.mul a.vestingPeriod.cliff secondsInADay : Outcome StdError Nat) = .ok cliff)
    (past : ¬ passed < cliff)
    (linears : (Uint64.mul a.vestingPeriod.linear secondsInADay : Outcome StdError Nat) =
      .ok linear) (whole : ¬ passed - cliff < linear) :
    (a.holding n withdrawn).withdrawable time = n - withdrawn := by
  have hdone : getUnlockedAmount (a.holding n withdrawn) time = (do
      let unlocked ← Outcome.ofOption (Uint128.checkedSub n withdrawn)
        (.genericErr "Nothing left to unlock")
      let total ← Uint128.add withdrawn n
      pure (unlocked, { a.holding n withdrawn with amountWithdrawn := total })) := by
    unfold getUnlockedAmount
    rw [if_neg (show ¬ (a.holding n withdrawn).amount = 0 from hn)]
    dsimp only [holding]
    rw [started, cliffs]
    refine (if_neg past).trans ?_
    rw [linears]
    exact if_neg whole
  unfold withdrawable
  rw [hdone]
  by_cases hless : withdrawn ≤ n
  · rw [Uint128.checkedSub_eq_some.mpr ⟨hless, rfl⟩, Uint128.add_eq_ok.mpr ⟨fits, rfl⟩]
    rfl
  · have hnone : Uint128.checkedSub n withdrawn = none := by
      rw [Option.eq_none_iff_forall_ne_some]
      intro left hleft
      exact hless (Uint128.checkedSub_eq_some.mp hleft).1
    rw [hnone, Nat.sub_eq_zero_of_le (Nat.le_of_not_le hless)]
    rfl

theorem unlocksBy (a : Allocation) (time : Nat) : ∃ ratio, a.UnlocksBy time ratio := by
  have hempty : ∀ ratio withdrawn, (a.holding 0 withdrawn).withdrawable time =
      0 * ratio / Decimal.fractional - withdrawn := by
    intro ratio withdrawn
    rw [withdrawable_empty rfl, Nat.zero_mul, Nat.zero_div, Nat.zero_sub]
  -- an amount above nothing, of which the schedule is that of all
  have hnone : (∀ n withdrawn, n ≠ 0 → (a.holding n withdrawn).withdrawable time = 0) →
      a.UnlocksBy time 0 := by
    intro nothing
    refine ⟨Nat.zero_le _, fun n withdrawn _ => ?_⟩
    rw [Nat.mul_zero, Nat.zero_div, Nat.zero_sub]
    by_cases hn : n = 0
    · exact withdrawable_empty hn time
    · exact nothing n withdrawn hn
  have hsome : ∀ {ratio}, ratio ≤ Decimal.fractional → (∀ n withdrawn, n ≠ 0 →
      withdrawn + n < Uint128.limit → (a.holding n withdrawn).withdrawable time =
        n * ratio / Decimal.fractional - withdrawn) → a.UnlocksBy time ratio := by
    intro ratio part unlocks
    refine ⟨part, fun n withdrawn fits => ?_⟩
    by_cases hn : n = 0
    · subst hn
      exact hempty ratio withdrawn
    · exact unlocks n withdrawn hn fits
  by_cases hreads : ∃ n withdrawn result, n ≠ 0 ∧
      getUnlockedAmount (a.holding n withdrawn) time = .ok result
  case neg =>
    refine ⟨0, hnone fun n withdrawn hn => ?_⟩
    unfold withdrawable
    split
    case h_1 h => exact absurd ⟨n, withdrawn, _, hn, h⟩ hreads
    case h_2 => rfl
  obtain ⟨n, withdrawn, result, hn, done⟩ := hreads
  unfold getUnlockedAmount at done
  simp only [if_neg (show ¬ (a.holding n withdrawn).amount = 0 from hn), bind_eq_ok] at done
  obtain ⟨passed, hstarted, cliff, hcliff, done⟩ := done
  split at done
  case isTrue hbefore =>
    refine ⟨0, hnone fun m withdrawn hm => ?_⟩
    have hdone : getUnlockedAmount (a.holding m withdrawn) time =
        .ok (0, a.holding m withdrawn) := by
      unfold getUnlockedAmount
      simp only [if_neg (show ¬ (a.holding m withdrawn).amount = 0 from hm), bind_eq_ok]
      refine ⟨_, hstarted, _, hcliff, ?_⟩
      rw [if_pos hbefore]
      rfl
    rw [withdrawable, hdone]
  case isFalse hpast =>
    rw [bind_eq_ok] at done
    obtain ⟨linear, hlinear, done⟩ := done
    split at done
    case isTrue hpart =>
      simp only [bind_eq_ok] at done
      obtain ⟨x, hx, y, hy, ratio, hdivided, -⟩ := done
      have hle : ratio.atomics ≤ Decimal.fractional := by
        have hratio := hdivided
        rw [Decimal.fromRatio_one hx, Decimal.fromRatio_one hy] at hratio
        exact decimalDivision_ratio_le (Nat.le_of_lt hpart) hratio
      exact ⟨ratio.atomics, hsome hle fun m withdrawn hm hfits =>
        getUnlockedAmount_part hm hle hfits
        hstarted hcliff hpast hlinear hpart hx hy hdivided⟩
    case isFalse hwhole =>
      refine ⟨Decimal.fractional, hsome (Nat.le_refl _) fun m withdrawn hm hfits => ?_⟩
      rw [Nat.mul_div_cancel m (by decide)]
      exact getUnlockedAmount_whole hm hfits hstarted hcliff hpast hlinear hwhole

def Over (a : Allocation) (now : Nat) : Prop :=
  ∀ time, now ≤ time → a.UnlocksBy time Decimal.fractional

theorem over_of_end {now : Nat}
    (cliff : a.vestingPeriod.cliff * secondsInADay < Uint64.limit)
    (linear : a.vestingPeriod.linear * secondsInADay < Uint64.limit)
    (ended : a.startTimeOfAllocation + a.vestingPeriod.cliff * secondsInADay +
      a.vestingPeriod.linear * secondsInADay ≤ now) : a.Over now := by
  intro time hle
  refine ⟨Nat.le_refl _, fun n withdrawn fits => ?_⟩
  rw [Nat.mul_div_cancel n (by decide)]
  by_cases hn : n = 0
  · rw [withdrawable_empty hn, hn, Nat.zero_sub]
  · exact getUnlockedAmount_whole hn fits (subUint_eq_ok.mpr ⟨by omega, rfl⟩)
      (Uint64.mul_eq_ok.mpr ⟨cliff, rfl⟩) (by omega) (Uint64.mul_eq_ok.mpr ⟨linear, rfl⟩) (by omega)

end Allocation

theorem even_untouched {now share : Nat} {a : Allocation} (untouched : a.amountWithdrawn = 0)
    (fits : a.amount < Uint128.limit) :
    Even now share a { a with amount := 0, amountWithdrawn := 0 } := by
  intro time _
  obtain ⟨ratio, hratio⟩ := a.unlocksBy time
  have hwhole := hratio.unlocks a.amount 0 (by omega)
  have hleft := hratio.unlocks (a.amount - share) 0 (by omega)
  have hgiven := hratio.unlocks (min share a.amount) 0 (by omega)
  simp only [Allocation.holding, Nat.sub_zero] at hwhole hleft hgiven
  rw [← untouched] at hwhole hleft
  simp only [Nat.zero_add]
  rw [hleft, hgiven, hwhole]
  refine Nat.le_trans Nat.div_add_div_le_add_div ?_
  rw [← Nat.add_mul, show a.amount - share + min share a.amount = a.amount by omega]
  exact Nat.le_add_right _ _

theorem even_over {now share : Nat} {a b : Allocation} (ended : a.Over now)
    (left : share + a.amountWithdrawn ≤ a.amount)
    (fits : a.amountWithdrawn + a.amount < Uint128.limit)
    (fits' : b.amountWithdrawn + (b.amount + share) < Uint128.limit) : Even now share a b := by
  intro time hle
  have hshare : min share a.amount = share := by omega
  obtain ⟨ratio, hratio⟩ := b.unlocksBy time
  have hpositive : 0 < Decimal.fractional := by decide
  have hwhole := (ended time hle).withdrawable fits
  have hleft := (ended time hle).unlocks (a.amount - share) a.amountWithdrawn (by omega)
  have hbefore := hratio.withdrawable (by omega)
  have hafter := hratio.unlocks (b.amount + share) b.amountWithdrawn fits'
  rw [Nat.mul_div_cancel _ hpositive] at hwhole hleft
  simp only [Allocation.holding] at hleft hafter
  have hgiven : (b.amount + share) * ratio / Decimal.fractional ≤
      b.amount * ratio / Decimal.fractional + share := by
    calc (b.amount + share) * ratio / Decimal.fractional
        ≤ (b.amount * ratio + share * Decimal.fractional) / Decimal.fractional := by
          rw [Nat.add_mul]
          exact Nat.div_le_div_right (Nat.add_le_add_left (Nat.mul_le_mul_left _ hratio.part) _)
      _ = b.amount * ratio / Decimal.fractional + share :=
          Nat.add_mul_div_right _ _ hpositive
  rw [hshare, hleft, hafter, hwhole, hbefore]
  omega

/-! ## Divvies on a sample chain -/

theorem conserves_new_recipient :
    ∃ created, newContract = some created ∧
      Conserves sampleDeps (atTime 0) (MessageInfo.noFunds "early") "friend" 400000000 created := by
  have hsample : newContract.any (fun created =>
      decide (holdings created.recipients =
        [("team", some ⟨1000000000, 0, 0, ⟨730, 365⟩⟩),
          ("early", some ⟨1000000000, 0, 0, ⟨0, 365⟩⟩)])) = true := by decide +kernel
  obtain ⟨created, hnew, hheld⟩ := (Option.any_eq_true _ _).mp hsample
  rw [decide_eq_true_eq] at hheld
  obtain ⟨_, hcreated⟩ := newContract_spec hnew
  refine ⟨created, hnew, (conserves_iff (instantiate_fresh hcreated).sound).mpr ?_⟩
  -- the chain has no rewards, so claiming the fees changes nothing
  have hclaim : claimFeesForContract sampleDeps (atTime 0) created = .ok (created, {}) := rfl
  unfold Fair
  rw [hclaim]
  refine .inr (.inr ⟨⟨1000000000, 0, 0, ⟨0, 365⟩⟩, by rw [hheld]; decide, .inr ?_⟩)
  rw [hheld]
  refine ⟨by decide, fun b hmem => ?_, fun _ => even_untouched rfl (by decide)⟩
  revert hmem
  simp

/-- A stranger divvies what it does not have: with a new recipient it is let through, with
    one that has an allocation the call aborts. And half of an allocation being withdrawn, a
    divvy lets the recipient withdraw a part of it again. -/
theorem not_conserved :
    (¬ ∀ deps env info recipient share s, Sound s →
      Conserves deps env info recipient share s) ∧
    (newContract.map fun created => addAllocation sampleDeps (atTime 0)
        (MessageInfo.noFunds "stranger") "team" 5 none created) = some (.error .panic) ∧
    (afterGenesis [sampleCall (year / 2) "early" .withdrawUnlocked]).map
      (fun l => withdrawableAt (year / 2) l.state.recipients) = some 0 ∧
    (afterGenesis halfWithdrawn).map
      (fun l => withdrawableAt (year / 2) l.state.recipients) = some 200000000 := by
  refine ⟨fun claim => ?_, by decide +kernel, by decide +kernel, by decide +kernel⟩
  have hsample : newContract.any (fun created =>
      decide ("stranger" ∉ names created.recipients) &&
      match addAllocation sampleDeps (atTime 0) (MessageInfo.noFunds "stranger") "friend" 5 none
          created with
      | .ok _ => true
      | .error _ => false) = true := by decide +kernel
  obtain ⟨created, hnew, hsample⟩ := (Option.any_eq_true _ _).mp hsample
  rw [Bool.and_eq_true, decide_eq_true_eq] at hsample
  obtain ⟨habsent, hdone⟩ := hsample
  obtain ⟨_, hcreated⟩ := newContract_spec hnew
  split at hdone
  case h_1 done =>
    have hconserves := claim sampleDeps (atTime 0) (MessageInfo.noFunds "stranger") "friend" 5
      created (instantiate_fresh hcreated).sound
    obtain ⟨_, -, hshifted⟩ := hconserves.moves _ _ done
    obtain ⟨a, hmem⟩ := hshifted.entitled
    exact habsent (List.mem_map_of_mem (f := Prod.fst) hmem)
  case h_2 => cases hdone

end Membrane.Vesting
