import Membrane.Lib.ListEdit
import Membrane.Vesting.Proofs.Unlocking

/-!
# What calls do to the allocations

Every call exchanges the allocations of at most two recipients and leaves the
others, in some order. What a call can do to them is said once here; the
properties of all runs follow from it.
-/

namespace Membrane.Vesting

open Outcome

/-! ## Holdings -/

/-- A recipient and its allocation, without what it can claim. -/
abbrev Holding := Addr × Option Allocation

def Recipient.holding (recipient : Recipient) : Holding :=
  (recipient.recipient, recipient.allocation)

/-- The holdings of the recipients. -/
def holdings (recipients : List Recipient) : List Holding := recipients.map Recipient.holding

/-- The sum of a measure over the allocations held. -/
def totalOf (measure : Allocation → Nat) (held : List Holding) : Nat :=
  (held.map fun holding => holding.2.elim 0 measure).sum

@[simp]
theorem totalOf_nil (measure : Allocation → Nat) : totalOf measure [] = 0 := rfl

@[simp]
theorem totalOf_cons (measure : Allocation → Nat) (holding : Holding) (held : List Holding) :
    totalOf measure (holding :: held) = holding.2.elim 0 measure + totalOf measure held := by
  simp [totalOf]

theorem totalOf_append (measure : Allocation → Nat) (held held' : List Holding) :
    totalOf measure (held ++ held') = totalOf measure held + totalOf measure held' := by
  simp [totalOf]

theorem totalOf_perm (measure : Allocation → Nat) {held held' : List Holding}
    (perm : held.Perm held') : totalOf measure held = totalOf measure held' :=
  (perm.map _).sum_eq

theorem totalOf_le {measure measure' : Allocation → Nat} (le : ∀ a, measure a ≤ measure' a)
    (held : List Holding) : totalOf measure held ≤ totalOf measure' held := by
  induction held with
  | nil => simp
  | cons holding rest ih =>
    obtain ⟨name, allocation⟩ := holding
    cases allocation with
    | none => simpa using ih
    | some a =>
      have := le a
      simp only [totalOf_cons, Option.elim_some]
      omega

theorem allocatedAmounts_sum (recipients : List Recipient) :
    (allocatedAmounts recipients).sum = totalOf (·.amount) (holdings recipients) := by
  induction recipients with
  | nil => rfl
  | cons recipient rest ih =>
    have hrest : totalOf (·.amount) (holdings (recipient :: rest)) =
        recipient.allocation.elim 0 (·.amount) + totalOf (·.amount) (holdings rest) := by
      simp [holdings, Recipient.holding]
    rw [hrest, ← ih]
    cases hallocation : recipient.allocation with
    | none => simp [allocatedAmounts, hallocation]
    | some a => simp [allocatedAmounts, hallocation]

/-! ## Exchanging holdings -/

def Exchanged (old new before after : List Holding) : Prop :=
  ∃ rest, before.Perm (old ++ rest) ∧ after.Perm (new ++ rest)

namespace Exchanged

variable {old new before after : List Holding}

theorem of_perm (perm : after.Perm before) : Exchanged [] [] before after :=
  ⟨before, by simp, by simpa using perm⟩

theorem total (measure : Allocation → Nat) (exchanged : Exchanged old new before after) :
    totalOf measure after + totalOf measure old = totalOf measure before + totalOf measure new := by
  obtain ⟨rest, hbefore, hafter⟩ := exchanged
  rw [totalOf_perm measure hbefore, totalOf_perm measure hafter, totalOf_append, totalOf_append]
  omega

theorem each {p : Holding → Prop} (exchanged : Exchanged old new before after)
    (hbefore : ∀ holding ∈ before, p holding) (hnew : ∀ holding ∈ new, p holding) :
    ∀ holding ∈ after, p holding := by
  obtain ⟨rest, hb, ha⟩ := exchanged
  intro holding hmem
  rcases List.mem_append.mp (ha.mem_iff.mp hmem) with hmem | hmem
  · exact hnew holding hmem
  · exact hbefore holding (hb.mem_iff.mpr (List.mem_append_right _ hmem))

theorem mem_old (exchanged : Exchanged old new before after) {holding : Holding}
    (mem : holding ∈ old) : holding ∈ before := by
  obtain ⟨rest, hb, -⟩ := exchanged
  exact hb.mem_iff.mpr (List.mem_append_left _ mem)

theorem distinct (exchanged : Exchanged old new before after)
    (nodup : (before.map Prod.fst).Nodup) (new_nodup : (new.map Prod.fst).Nodup)
    (known : ∀ name ∈ new.map Prod.fst,
      name ∈ old.map Prod.fst ∨ name ∉ before.map Prod.fst) :
    (after.map Prod.fst).Nodup := by
  obtain ⟨rest, hb, ha⟩ := exchanged
  rw [(hb.map _).nodup_iff, List.map_append, List.nodup_append] at nodup
  rw [(ha.map _).nodup_iff, List.map_append, List.nodup_append]
  refine ⟨new_nodup, nodup.2.1, fun name hnew name' hrest => ?_⟩
  rcases known name hnew with hold | habsent
  · exact nodup.2.2 name hold name' hrest
  · rintro rfl
    refine habsent ((hb.map _).mem_iff.mpr ?_)
    rw [List.map_append]
    exact List.mem_append_right _ hrest

end Exchanged

theorem exchanged_map {held : List Holding} {name : Addr} {allocation : Option Allocation}
    (f : Holding → Holding) (nodup : (held.map Prod.fst).Nodup)
    (mem : (name, allocation) ∈ held) :
    Exchanged [(name, allocation)] [f (name, allocation)] held
      (held.map fun holding => if holding.1 = name then f holding else holding) :=
  ⟨held.filter fun holding => holding.1 != name, ListEdit.perm_cons_filter Prod.fst nodup mem,
    ListEdit.perm_map_key Prod.fst f nodup mem⟩

theorem map_unchanged {held : List Holding} {name : Addr} {f : Holding → Holding}
    (same : ∀ holding ∈ held, holding.1 = name → f holding = holding) :
    (held.map fun holding => if holding.1 = name then f holding else holding) = held := by
  refine (List.map_congr_left fun holding hmem => ?_).trans (List.map_id _)
  by_cases hname : holding.1 = name
  · rw [if_pos hname, same holding hmem hname, id]
  · rw [if_neg hname, id]

theorem holding_cases (held : List Holding) (name : Addr) :
    (∃ allocation, (name, allocation) ∈ held) ∨ name ∉ held.map Prod.fst := by
  by_cases h : name ∈ held.map Prod.fst
  · obtain ⟨⟨_, allocation⟩, hmem, rfl⟩ := List.mem_map.mp h
    exact .inl ⟨allocation, hmem⟩
  · exact .inr h

/-! ## Fees -/

theorem holdings_append (recipients recipients' : List Recipient) :
    holdings (recipients ++ recipients') = holdings recipients ++ holdings recipients' :=
  List.map_append

theorem creditClaim_holding {claimAsset : Asset} {recipient recipient' : Recipient}
    {ratio : Decimal} (done : creditClaim claimAsset recipient ratio = .ok recipient') :
    recipient'.holding = recipient.holding := by
  simp only [creditClaim, bind_eq_ok] at done
  obtain ⟨share, -, done⟩ := done
  split at done
  case h_1 =>
    simp only [bind_eq_ok, pure_eq_ok] at done
    obtain ⟨_, -, _, -, _, -, rfl⟩ := done
    rfl
  case h_2 =>
    simp only [pure_eq_ok] at done
    exact done ▸ rfl

theorem creditClaims_holdings {ratios : List Decimal} {recipients recipients' : List Recipient}
    {claimAsset : Asset} (done : creditClaims ratios recipients claimAsset = .ok recipients') :
    holdings recipients' = holdings recipients := by
  have heach := mapM_forall₂ done
  have hzip : recipients.zipIdx.map (fun entry => entry.1.holding) = holdings recipients := by
    rw [holdings, ← List.zipIdx_map_fst 0 recipients, List.map_map, List.zipIdx_map_fst]
    rfl
  rw [← hzip]
  refine (List.forall₂_iff_get.mp heach).elim fun hlength hget => List.ext_getElem ?_ ?_
  · simpa [holdings] using hlength.symm
  · intro i hi hi'
    have hround := hget i (by simpa using hi') (by simpa [holdings] using hi)
    simp only [bind_eq_ok] at hround
    obtain ⟨ratio, -, hcredit⟩ := hround
    simpa [holdings] using creditClaim_holding hcredit

theorem claimFeesForContract_spec {deps : Deps} {env : Env} {s s' : State}
    {response : Response OutMsg} (done : claimFeesForContract deps env s = .ok (s', response)) :
    ∃ recipients, s' = { s with recipients := recipients } ∧
      (holdings recipients).Perm (holdings s.recipients) ∧ minted response = 0 := by
  simp only [claimFeesForContract, bind_eq_ok] at done
  obtain ⟨claimables, -, done⟩ := done
  split at done
  case isTrue =>
    simp only [pure_eq_ok, Prod.mk.injEq] at done
    obtain ⟨rfl, rfl⟩ := done
    exact ⟨s.recipients, rfl, .refl _, rfl⟩
  case isFalse =>
    simp only [bind_eq_ok, liftStd_eq_ok, pure_eq_ok, Prod.mk.injEq] at done
    obtain ⟨ratios, -, allocated, hcredited, rfl, rfl⟩ := done
    refine ⟨_, rfl, ?_, rfl⟩
    have hsame : holdings allocated =
        holdings (s.recipients.filter fun recipient => recipient.allocation.isSome) :=
      foldlM_keeps (fun recipients => holdings recipients =
          holdings (s.recipients.filter fun recipient => recipient.allocation.isSome))
        (fun _ _ _ hinv hround => (creditClaims_holdings hround).trans hinv) claimables _ _ rfl
        hcredited
    rw [holdings_append, hsame, ← holdings_append]
    refine List.Perm.map _ (List.perm_append_comm.trans ?_)
    have hsplit := List.filter_append_perm
      (fun recipient : Recipient => recipient.allocation.isSome) s.recipients
    simpa using hsplit

/-! ## Divvying -/

/-- What a divvy does to the holdings, those it takes out and those it puts in. -/
inductive Divvied (sender name : Addr) (share : Nat) (before : List Holding) :
    List Holding → List Holding → Prop where
  /-- There is nothing to divvy, or the sender divvies with itself. -/
  | nothing : Divvied sender name share before [] []
  /-- There is nothing to divvy, and the recipient is new. -/
  | added (absent : name ∉ before.map Prod.fst) : Divvied sender name share before [] [(name, none)]
  /-- The recipient has no allocation to add to: the share is lost. -/
  | lost (a : Allocation) (other : name ≠ sender) : Divvied sender name share before
      [(sender, some a)] [(sender, some (a.divvy share).1)]
  | increased (a b : Allocation) (other : name ≠ sender) : Divvied sender name share before
      [(sender, some a), (name, some b)]
      [(sender, some (a.divvy share).1),
        (name, some { b with amount := b.amount + (a.divvy share).2.amount })]
  | opened (a : Allocation) (other : name ≠ sender) (absent : name ∉ before.map Prod.fst) :
      Divvied sender name share before [(sender, some a)]
        [(sender, some (a.divvy share).1), (name, some (a.divvy share).2)]

def leftOf (share : Nat) (holding : Holding) : Holding :=
  (holding.1, holding.2.map fun allocation => (allocation.divvy share).1)

def increasedBy (newAllocation : Option Allocation) (holding : Holding) : Holding :=
  (holding.1, holding.2.map fun allocation =>
    { allocation with amount := allocation.amount + newAllocation.elim 0 (·.amount) })

theorem divvySenders_holdings (sender : Addr) (share : Nat) :
    ∀ (recipients : List Recipient) (newAllocation : Option Allocation),
      holdings (divvySenders sender share newAllocation recipients).1 =
        (holdings recipients).map fun holding =>
          if holding.1 = sender then leftOf share holding else holding := by
  intro recipients
  induction recipients with
  | nil => intro newAllocation; rfl
  | cons stored rest ih =>
    intro newAllocation
    have hhead : (divvySender sender share newAllocation stored).1.holding =
        if stored.holding.1 = sender then leftOf share stored.holding else stored.holding := by
      unfold divvySender leftOf Recipient.holding
      by_cases hname : stored.recipient = sender
      · cases hallocation : stored.allocation <;> simp [hname, hallocation]
      · simp [hname]
    simp only [divvySenders, holdings, List.map_cons] at ih ⊢
    rw [hhead, ih]

theorem divvySenders_absent {sender : Addr} {share : Nat} :
    ∀ {recipients : List Recipient} {newAllocation : Option Allocation},
      (∀ a, (sender, some a) ∉ holdings recipients) →
      (divvySenders sender share newAllocation recipients).2 = newAllocation := by
  intro recipients
  induction recipients with
  | nil => intro newAllocation _; rfl
  | cons stored rest ih =>
    intro newAllocation absent
    have hhead : (divvySender sender share newAllocation stored).2 = newAllocation := by
      unfold divvySender
      by_cases hname : stored.recipient = sender
      · cases hallocation : stored.allocation with
        | none => simp [hname]
        | some a =>
          refine absurd ?_ (absent a)
          exact List.mem_cons.mpr (.inl (by rw [Recipient.holding, hname, hallocation]))
      · simp [hname]
    simp only [divvySenders]
    rw [hhead]
    exact ih fun a hmem => absent a (List.mem_cons_of_mem _ hmem)

theorem divvySenders_taken {sender : Addr} {share : Nat} {a : Allocation} :
    ∀ {recipients : List Recipient} {newAllocation : Option Allocation},
      ((holdings recipients).map Prod.fst).Nodup → (sender, some a) ∈ holdings recipients →
      (divvySenders sender share newAllocation recipients).2 = some (a.divvy share).2 := by
  intro recipients
  induction recipients with
  | nil => intro newAllocation _ mem; cases mem
  | cons stored rest ih =>
    intro newAllocation nodup mem
    simp only [holdings, List.map_cons, List.nodup_cons] at nodup
    simp only [divvySenders]
    rcases List.mem_cons.mp mem with heq | mem
    · obtain ⟨hname, hallocation⟩ := Prod.mk.inj heq
      have hhead : (divvySender sender share newAllocation stored).2 =
          some (a.divvy share).2 := by
        unfold divvySender
        rw [if_pos hname.symm, ← hallocation]
      rw [hhead]
      refine divvySenders_absent fun b hmem => nodup.1 ?_
      exact List.mem_map.mpr ⟨_, hmem, hname⟩
    · exact ih nodup.2 mem

theorem increaseAllocation_holding {name : Addr} {newAllocation : Option Allocation}
    {stored stored' : Recipient}
    (done : increaseAllocation name newAllocation stored = .ok stored') :
    stored'.holding =
        (if stored.holding.1 = name then increasedBy newAllocation stored.holding
          else stored.holding) ∧
      (newAllocation = none → stored.recipient = name → stored.allocation = none) := by
  unfold increaseAllocation at done
  unfold Recipient.holding increasedBy
  split at done
  case isTrue hname =>
    rw [if_pos hname]
    split at done
    case h_1 allocation hallocation =>
      simp only [bind_eq_ok, unwrap_eq_ok, Uint128.add_eq_ok, pure_eq_ok] at done
      obtain ⟨new, rfl, amount, ⟨-, rfl⟩, rfl⟩ := done
      exact ⟨by simp [hallocation], fun h => absurd h (Option.some_ne_none new)⟩
    case h_2 hallocation =>
      simp only [pure_eq_ok] at done
      subst done
      exact ⟨by simp [hallocation], fun _ _ => hallocation⟩
  case isFalse hname =>
    simp only [pure_eq_ok] at done
    subst done
    rw [if_neg hname]
    exact ⟨rfl, fun _ h => absurd h hname⟩

theorem increaseAllocations_holdings {name : Addr} {newAllocation : Option Allocation}
    {recipients recipients' : List Recipient}
    (done : recipients.mapM (increaseAllocation name newAllocation) = .ok recipients') :
    (holdings recipients' = (holdings recipients).map fun holding =>
        if holding.1 = name then increasedBy newAllocation holding else holding) ∧
      (newAllocation = none → ∀ b, (name, some b) ∉ holdings recipients) := by
  have heach := mapM_forall₂ done
  clear done
  induction heach with
  | nil => exact ⟨rfl, fun _ _ hmem => nomatch hmem⟩
  | @cons stored stored' rest rest' hhead _ ih =>
    obtain ⟨hholding, hnone⟩ := increaseAllocation_holding hhead
    refine ⟨?_, fun hnew b hmem => ?_⟩
    · have hrest := ih.1
      simp only [holdings] at hrest
      simp only [holdings, List.map_cons, hholding, hrest]
    · rcases List.mem_cons.mp hmem with heq | hmem
      · obtain ⟨hname, hallocation⟩ := Prod.mk.inj heq
        rw [hnone hnew hname.symm] at hallocation
        cases hallocation
      · exact ih.2 hnew b hmem

theorem Exchanged.both {x x' y y' : Holding} {before mid after : List Holding}
    (first : Exchanged [x] [x'] before mid) (second : Exchanged [y] [y'] mid after)
    (other : y ≠ x') : Exchanged [x, y] [x', y'] before after := by
  obtain ⟨rest, hbefore, hmid⟩ := first
  obtain ⟨rest', hmid', hafter⟩ := second
  have hmem : y ∈ x' :: rest := hmid.mem_iff.mp (hmid'.mem_iff.mpr List.mem_cons_self)
  have hrest : rest.Perm (y :: rest.erase y) :=
    List.perm_cons_erase (List.mem_of_ne_of_mem other hmem)
  have hrest' : rest'.Perm (x' :: rest.erase y) := by
    refine List.Perm.cons_inv (a := y) ?_
    exact (hmid'.symm.trans hmid).trans ((hrest.cons x').trans (List.Perm.swap y x' _))
  refine ⟨rest.erase y, hbefore.trans (hrest.cons x), ?_⟩
  exact hafter.trans ((hrest'.cons y').trans (List.Perm.swap x' y' _))

theorem Exchanged.of_same {x : Holding} {before after : List Holding}
    (same : Exchanged [x] [x] before after) : Exchanged [] [] before after := by
  obtain ⟨rest, hbefore, hafter⟩ := same
  exact of_perm (hafter.trans hbefore.symm)

theorem Allocation.divvy_amounts (a : Allocation) (share : Nat) :
    (a.divvy share).1.amount + (a.divvy share).2.amount = a.amount := by
  unfold Allocation.divvy
  cases h : Uint128.checkedSub a.amount share with
  | some diff =>
    obtain ⟨hle, rfl⟩ := Uint128.checkedSub_eq_some.mp h
    exact Nat.sub_add_cancel hle
  | none => exact Nat.zero_add _

theorem Allocation.divvy_left (a : Allocation) (share : Nat) :
    (a.divvy share).1 = { a with amount := a.amount - share } := by
  unfold Allocation.divvy
  cases h : Uint128.checkedSub a.amount share with
  | some diff => obtain ⟨-, rfl⟩ := Uint128.checkedSub_eq_some.mp h; rfl
  | none =>
    have hlt := Uint128.checkedSub_eq_none.mp h
    rw [Nat.sub_eq_zero_of_le (Nat.le_of_lt hlt)]

theorem Allocation.divvy_taken_withdrawn (a : Allocation) (share : Nat) :
    (a.divvy share).2.amountWithdrawn = 0 := by
  unfold Allocation.divvy
  cases Uint128.checkedSub a.amount share <;> rfl

private theorem any_name {recipients : List Recipient} {name : Addr} :
    (recipients.any fun stored => stored.recipient == name) = true ↔
      name ∈ (holdings recipients).map Prod.fst := by
  simp [holdings, Recipient.holding]

private theorem names_leftOf (sender : Addr) (share : Nat) (held : List Holding) :
    ((held.map fun holding => if holding.1 = sender then leftOf share holding else holding).map
      Prod.fst) = held.map Prod.fst := by
  rw [List.map_map]
  refine List.map_congr_left fun holding _ => ?_
  by_cases hname : holding.1 = sender
  · simp [hname, leftOf]
  · simp [hname]

/-- A divvy of an allocation with another recipient: what becomes of the holdings where the
    recipient has no allocation, where it has one, and where it is new. -/
structure Given (sender name : Addr) (share : Nat) (a : Allocation) (before after : List Holding) :
    Prop where
  lost : (name, none) ∈ before →
    Exchanged [(sender, some a)] [(sender, some (a.divvy share).1)] before after
  increased : ∀ b, (name, some b) ∈ before →
    Exchanged [(sender, some a), (name, some b)]
      [(sender, some (a.divvy share).1),
        (name, some { b with amount := b.amount + (a.divvy share).2.amount })] before after
  opened : name ∉ before.map Prod.fst →
    Exchanged [(sender, some a)]
      [(sender, some (a.divvy share).1), (name, some (a.divvy share).2)] before after

theorem Given.divvied {sender name : Addr} {share : Nat} {a : Allocation}
    {before after : List Holding} (given : Given sender name share a before after)
    (other : name ≠ sender) :
    ∃ old new, Divvied sender name share before old new ∧ Exchanged old new before after := by
  rcases holding_cases before name with ⟨_ | b, hmem⟩ | habsent
  · exact ⟨_, _, .lost a other, given.lost hmem⟩
  · exact ⟨_, _, .increased a b other, given.increased b hmem⟩
  · exact ⟨_, _, .opened a other habsent, given.opened habsent⟩

theorem divvyAllocation_holdings {sender name : Addr} {share : Nat}
    {recipients recipients' : List Recipient}
    (done : divvyAllocation sender name share recipients = .ok recipients') :
    ∃ mid, mid = ((holdings recipients).map fun holding =>
        if holding.1 = sender then leftOf share holding else holding) ∧
      mid.map Prod.fst = (holdings recipients).map Prod.fst ∧
      (name ∈ mid.map Prod.fst → (holdings recipients' = mid.map fun holding =>
          if holding.1 = name then
            increasedBy (divvySenders sender share none recipients).2 holding
          else holding) ∧
        ((divvySenders sender share none recipients).2 = none → ∀ b, (name, some b) ∉ mid)) ∧
      (name ∉ mid.map Prod.fst → holdings recipients' =
        mid ++ [(name, (divvySenders sender share none recipients).2)]) := by
  have hleft := divvySenders_holdings sender share recipients none
  refine ⟨_, rfl, names_leftOf sender share (holdings recipients), ?_⟩
  rw [← hleft]
  simp only [divvyAllocation] at done
  constructor
  · intro hname
    rw [if_pos (any_name.mpr hname)] at done
    exact increaseAllocations_holdings done
  · intro hname
    rw [if_neg (mt any_name.mp hname), pure_eq_ok] at done
    rw [← done, holdings_append]
    rfl

theorem divvyAllocation_given {sender name : Addr} {share : Nat} {a : Allocation}
    {recipients recipients' : List Recipient}
    (nodup : ((holdings recipients).map Prod.fst).Nodup)
    (mem : (sender, some a) ∈ holdings recipients) (other : name ≠ sender)
    (done : divvyAllocation sender name share recipients = .ok recipients') :
    Given sender name share a (holdings recipients) (holdings recipients') := by
  obtain ⟨mid, hmid, hnames, hthere, hnew⟩ := divvyAllocation_holdings done
  rw [divvySenders_taken nodup mem] at hthere hnew
  have hnodup : (mid.map Prod.fst).Nodup := hnames ▸ nodup
  have hleft : Exchanged [(sender, some a)] [(sender, some (a.divvy share).1)]
      (holdings recipients) mid := by
    rw [hmid]
    exact exchanged_map (leftOf share) nodup mem
  -- the holdings of others are the same after the first pass
  have hkept : ∀ {allocation}, (name, allocation) ∈ holdings recipients →
      (name, allocation) ∈ mid := by
    intro allocation hmem
    rw [hmid]
    exact List.mem_map.mpr ⟨_, hmem, if_neg other⟩
  refine ⟨fun hmem => ?_, fun b hmem => ?_, fun habsent => ?_⟩
  · rw [(hthere (List.mem_map_of_mem (f := Prod.fst) (hkept hmem))).1, map_unchanged]
    · exact hleft
    · rintro ⟨_, allocation⟩ hmem' rfl
      have hsame : (allocation : Option Allocation) = none :=
        congrArg Prod.snd (List.inj_on_of_nodup_map hnodup hmem' (hkept hmem) rfl)
      rw [hsame]
      rfl
  · rw [(hthere (List.mem_map_of_mem (f := Prod.fst) (hkept hmem))).1]
    refine hleft.both (exchanged_map _ hnodup (hkept hmem)) fun heq => ?_
    exact other (congrArg Prod.fst heq)
  · rw [hnew (hnames ▸ habsent)]
    obtain ⟨rest, hheld, hrest⟩ := hleft
    refine ⟨rest, hheld, ?_⟩
    exact (hrest.append_right _).trans
      ((List.perm_append_singleton _ _).trans (List.Perm.swap _ _ _))

theorem divvyAllocation_self {sender : Addr} {share : Nat} {a : Allocation}
    {recipients recipients' : List Recipient}
    (nodup : ((holdings recipients).map Prod.fst).Nodup)
    (mem : (sender, some a) ∈ holdings recipients)
    (done : divvyAllocation sender sender share recipients = .ok recipients') :
    Exchanged [] [] (holdings recipients) (holdings recipients') := by
  obtain ⟨mid, hmid, hnames, hthere, -⟩ := divvyAllocation_holdings done
  rw [divvySenders_taken nodup mem] at hthere
  refine Exchanged.of_same (x := (sender, some a)) ?_
  have hsender : sender ∈ mid.map Prod.fst :=
    hnames ▸ List.mem_map_of_mem (f := Prod.fst) mem
  have hafter : holdings recipients' = (holdings recipients).map fun holding =>
      if holding.1 = sender then increasedBy (some (a.divvy share).2) (leftOf share holding)
      else holding := by
    rw [(hthere hsender).1, hmid, List.map_map]
    refine List.map_congr_left fun holding _ => ?_
    by_cases h : holding.1 = sender
    · simp [h, leftOf]
    · simp [h]
  have hback : increasedBy (some (a.divvy share).2) (leftOf share (sender, some a)) =
      (sender, some a) := by
    have hamounts := a.divvy_amounts share
    rw [a.divvy_left] at hamounts
    simp only at hamounts
    simp [increasedBy, leftOf, a.divvy_left, hamounts]
  rw [hafter]
  have hexchange := exchanged_map (fun holding =>
    increasedBy (some (a.divvy share).2) (leftOf share holding)) nodup mem
  rwa [hback] at hexchange

theorem divvyAllocation_spec {sender name : Addr} {share : Nat}
    {recipients recipients' : List Recipient}
    (nodup : ((holdings recipients).map Prod.fst).Nodup)
    (done : divvyAllocation sender name share recipients = .ok recipients') :
    ∃ old new, Divvied sender name share (holdings recipients) old new ∧
      Exchanged old new (holdings recipients) (holdings recipients') := by
  by_cases hgiven : ∃ a, (sender, some a) ∈ holdings recipients
  · obtain ⟨a, hmem⟩ := hgiven
    by_cases hself : name = sender
    · subst hself
      exact ⟨[], [], .nothing, divvyAllocation_self nodup hmem done⟩
    · exact (divvyAllocation_given nodup hmem hself done).divvied hself
  · have hnobody : ∀ a, (sender, some a) ∉ holdings recipients := fun a hmem => hgiven ⟨a, hmem⟩
    obtain ⟨mid, hmid, -, hthere, hnew⟩ := divvyAllocation_holdings done
    rw [divvySenders_absent hnobody] at hthere hnew
    have hsame : mid = holdings recipients := by
      rw [hmid]
      refine map_unchanged ?_
      rintro ⟨_, allocation⟩ hmem rfl
      cases allocation with
      | none => rfl
      | some a => exact absurd hmem (hnobody a)
    rw [hsame] at hthere hnew
    by_cases hname : name ∈ (holdings recipients).map Prod.fst
    · refine ⟨[], [], .nothing, Exchanged.of_perm ?_⟩
      obtain ⟨hafter, hnot⟩ := hthere hname
      rw [hafter, map_unchanged]
      rintro ⟨_, allocation⟩ hmem rfl
      cases allocation with
      | none => rfl
      | some b => exact absurd hmem (hnot rfl b)
    · refine ⟨[], [(name, none)], .added hname, holdings recipients, .refl _, ?_⟩
      rw [hnew hname]
      exact List.perm_append_singleton _ _

end Membrane.Vesting
