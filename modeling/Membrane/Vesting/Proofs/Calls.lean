import Membrane.Lib.Run
import Membrane.Vesting.Proofs.Allocations

/-!
# What a call does

One relation says what each message does to the holdings and what it mints; the
invariants of every run, the distinct names and the cap on what is allocated, are
kept along it.
-/

namespace Membrane.Vesting

open Outcome

def names (recipients : List Recipient) : List Addr := (holdings recipients).map Prod.fst

/-- What a call does to the holdings: those it takes out, those it puts in, and the
    MBRN it mints. -/
inductive Changed (call : Call) (before : List Holding) :
    List Holding → List Holding → Nat → Prop where
  | nothing : Changed call before [] [] 0
  | added (name : Addr) (absent : name ∉ before.map Prod.fst) :
      Changed call before [] [(name, none)] 0
  | removed (name : Addr) (allocation : Option Allocation)
      (msg : call.msg = .removeRecipient name) : Changed call before [(name, allocation)] [] 0
  | replaced (name : Addr) (allocation : Option Allocation) (new : Allocation)
      (fresh : new.amountWithdrawn = 0)
      (msg : call.msg = .addAllocation name new.amount (some new.vestingPeriod)) :
      Changed call before [(name, allocation)] [(name, some new)] 0
  | divvied (name : Addr) (share : Nat) (old new : List Holding)
      (msg : call.msg = .addAllocation name share none)
      (divvied : Divvied call.info.sender name share before old new) :
      Changed call before old new 0
  | withdrew (a a' : Allocation) (unlocked : Nat) (msg : call.msg = .withdrawUnlocked)
      (unlock : Unlocked a call.env.blockTime unlocked a') :
      Changed call before [(call.info.sender, some a)] [(call.info.sender, some a')] unlocked

/-- A call that changes holdings as its message says. The total it may allocate does not
    shrink, and it allocates no more than there was or stays within that total. -/
structure Effect (call : Call) (s s' : State) (mint : Nat) (old new : List Holding) : Prop where
  change : Changed call (holdings s.recipients) old new mint
  exchanged : Exchanged old new (holdings s.recipients) (holdings s'.recipients)
  total : s.config.totalAllocation ≤ s'.config.totalAllocation
  fits : s.config.totalAllocation < Uint128.limit → s'.config.totalAllocation < Uint128.limit
  capped : totalOf (·.amount) new ≤ totalOf (·.amount) old ∨
    totalOf (·.amount) (holdings s'.recipients) ≤ s'.config.totalAllocation

namespace Effect

variable {call : Call} {s s' : State} {mint : Nat}

theorem of_change {old new : List Holding}
    (change : Changed call (holdings s.recipients) old new mint)
    (exchanged : Exchanged old new (holdings s.recipients) (holdings s'.recipients))
    (smaller : totalOf (·.amount) new ≤ totalOf (·.amount) old)
    (total : s'.config.totalAllocation = s.config.totalAllocation) :
    ∃ old new, Effect call s s' mint old new :=
  ⟨old, new, change, exchanged, Nat.le_of_eq total.symm, by rw [total]; exact id, .inl smaller⟩

theorem of_perm (perm : (holdings s'.recipients).Perm (holdings s.recipients))
    (total : s'.config.totalAllocation = s.config.totalAllocation) :
    ∃ old new, Effect call s s' 0 old new :=
  of_change .nothing (Exchanged.of_perm perm) (Nat.le_refl _) total

end Effect

section Spec

variable {deps : Deps} {env : Env} {info : MessageInfo} {s s' : State} {response : Response OutMsg}

theorem withdrawUnlocked_effect (nodup : (names s.recipients).Nodup)
    (done : withdrawUnlocked env info s = .ok (s', response)) :
    ∃ old new, Effect ⟨deps, env, info, .withdrawUnlocked⟩ s s'
      (minted response) old new := by
  simp only [withdrawUnlocked, bind_eq_ok, ofOption_eq_ok, liftStd_eq_ok, pure_eq_ok,
    Prod.mk.injEq] at done
  obtain ⟨recipient, hfind, a, ha, ⟨unlocked, a'⟩, hunlock, rfl, rfl⟩ := done
  have hname : recipient.recipient = info.sender := by simpa using List.find?_some hfind
  have hmem : (info.sender, some a) ∈ holdings s.recipients :=
    List.mem_map.mpr ⟨recipient, List.mem_of_find?_eq_some hfind, by
      rw [Recipient.holding, hname, ha]⟩
  have hspec := getUnlockedAmount_spec hunlock
  have hmint : minted (Response.addMessages {} [.execute s.config.osmosisProxy
      (.mintTokens s.config.mbrnDenom unlocked info.sender) []]) = unlocked := by
    simp [minted, Response.addMessages, SubMsg.new, mintedBy]
  rw [hmint]
  refine Effect.of_change (.withdrew a a' unlocked rfl hspec) ?_ (by simp [hspec.amount]) rfl
  refine ⟨_, ListEdit.perm_cons_filter Prod.fst nodup hmem, ?_⟩
  have hrest : holdings (s.recipients.filter fun r => r.recipient != info.sender) =
      (holdings s.recipients).filter fun holding => holding.1 != info.sender := by
    rw [holdings, holdings, List.filter_map]
    rfl
  simp only
  rw [holdings_append, hrest]
  refine (List.perm_append_comm).trans ?_
  simp [holdings, Recipient.holding, hname]

theorem setAllocation_holdings (name : Addr) (a : Allocation) (recipients : List Recipient) :
    holdings (setAllocation name a recipients) = (holdings recipients).map fun holding =>
      if holding.1 = name then (holding.1, some a) else holding := by
  rw [holdings, holdings, setAllocation, List.map_map, List.map_map]
  refine List.map_congr_left fun recipient _ => ?_
  by_cases hname : recipient.recipient = name
  · simp [Recipient.holding, hname]
  · simp [Recipient.holding, hname]

theorem addAllocation_effect {recipient : String} {allocation : Nat}
    {vestingPeriod : Option VestingPeriod} (nodup : (names s.recipients).Nodup)
    (done : addAllocation deps env info recipient allocation vestingPeriod s = .ok (s', response)) :
    ∃ old new, Effect ⟨deps, env, info, .addAllocation recipient allocation vestingPeriod⟩ s s'
      (minted response) old new := by
  simp only [addAllocation, bind_eq_ok, liftStd_eq_ok, addrValidate_eq_ok, guardErr_eq_ok,
    pure_eq_ok, Prod.mk.injEq] at done
  obtain ⟨⟨mid, response'⟩, hclaim, _, -, _, ⟨-, rfl⟩, after, hafter, sum, hsum, _, hcap, rfl,
    rfl⟩ := done
  obtain ⟨claimed, rfl, hperm, hmint⟩ := claimFeesForContract_spec hclaim
  have hmid : ((holdings claimed).map Prod.fst).Nodup := ((hperm.map _).nodup_iff).mpr nodup
  have hnames : ∀ {name}, name ∉ (holdings claimed).map Prod.fst →
      name ∉ (holdings s.recipients).map Prod.fst :=
    fun habsent hmem => habsent ((hperm.map _).mem_iff.mpr hmem)
  have hcapped : totalOf (·.amount) (holdings after) ≤ s.config.totalAllocation := by
    have := Uint128.sum_eq hsum
    rw [← allocatedAmounts_sum]
    simp only at hcap
    omega
  rw [hmint]
  have hexchange : ∃ old new, Changed ⟨deps, env, info, .addAllocation recipient allocation
      vestingPeriod⟩ (holdings s.recipients) old new 0 ∧
      Exchanged old new (holdings claimed) (holdings after) := by
    cases vestingPeriod with
    | some period =>
      simp only [bind_eq_ok, guardErr_eq_ok, pure_eq_ok] at hafter
      obtain ⟨_, -, rfl⟩ := hafter
      rw [setAllocation_holdings]
      rcases holding_cases (holdings claimed) recipient with ⟨held, hmem⟩ | habsent
      · refine ⟨_, _, .replaced recipient held ⟨allocation, 0, env.blockTime, period⟩ rfl rfl, ?_⟩
        exact exchanged_map (fun holding => (holding.1, some _)) hmid hmem
      · refine ⟨[], [], .nothing, Exchanged.of_perm ?_⟩
        rw [map_unchanged]
        exact fun holding hmem hname => absurd (hname ▸ List.mem_map_of_mem hmem) habsent
    | none =>
      obtain ⟨old, new, hdivvied, hexchanged⟩ := divvyAllocation_spec hmid hafter
      refine ⟨old, new, .divvied recipient allocation old new rfl ?_, hexchanged⟩
      cases hdivvied with
      | nothing => exact .nothing
      | added absent => exact .added (hnames absent)
      | lost a other => exact .lost a other
      | increased a b other => exact .increased a b other
      | opened a other absent => exact .opened a other (hnames absent)
  obtain ⟨old, new, hchange, rest, hbefore, hrest⟩ := hexchange
  have hexchanged : Exchanged old new (holdings s.recipients) (holdings after) :=
    ⟨rest, hperm.symm.trans hbefore, hrest⟩
  exact ⟨old, new, hchange, hexchanged, Nat.le_refl _, id, .inr hcapped⟩

theorem removeRecipient_effect {recipient : String} (nodup : (names s.recipients).Nodup)
    (done : removeRecipient info recipient s = .ok (s', response)) :
    ∃ old new, Effect ⟨deps, env, info, .removeRecipient recipient⟩ s s'
      (minted response) old new := by
  simp only [removeRecipient, bind_eq_ok, guardErr_eq_ok, pure_eq_ok, Prod.mk.injEq] at done
  obtain ⟨_, -, rfl, rfl⟩ := done
  have hrest : holdings (s.recipients.filter fun stored => stored.recipient != recipient) =
      (holdings s.recipients).filter fun holding => holding.1 != recipient := by
    rw [holdings, holdings, List.filter_map]
    rfl
  rcases holding_cases (holdings s.recipients) recipient with ⟨held, hmem⟩ | habsent
  · refine Effect.of_change (.removed recipient held rfl) ?_ (Nat.zero_le _) rfl
    exact ⟨_, ListEdit.perm_cons_filter Prod.fst nodup hmem, by rw [hrest]; exact .refl _⟩
  · refine Effect.of_perm ?_ rfl
    rw [hrest, List.filter_eq_self.mpr]
    intro holding hmem
    simpa using fun heq : holding.1 = recipient => habsent (heq ▸ List.mem_map_of_mem hmem)

theorem addRecipient_effect {recipient : String}
    (done : addRecipient deps info recipient s = .ok (s', response)) :
    ∃ old new, Effect ⟨deps, env, info, .addRecipient recipient⟩ s s'
      (minted response) old new := by
  simp only [addRecipient, bind_eq_ok, guardErr_eq_ok, liftStd_eq_ok, addrValidate_eq_ok,
    pure_eq_ok, Prod.mk.injEq] at done
  obtain ⟨_, -, _, ⟨-, rfl⟩, _, habsent, rfl, rfl⟩ := done
  have hname : recipient ∉ (holdings s.recipients).map Prod.fst := by
    simpa [holdings, Recipient.holding] using habsent
  refine Effect.of_change (.added recipient hname) ⟨holdings s.recipients, .refl _, ?_⟩
    (Nat.le_refl _) rfl
  rw [holdings_append]
  exact List.perm_append_singleton _ _

theorem claimFeesForRecipient_effect
    (done : claimFeesForRecipient info s = .ok (s', response)) :
    ∃ old new, Effect ⟨deps, env, info, .claimFeesForRecipient⟩ s s'
      (minted response) old new := by
  simp only [claimFeesForRecipient, bind_eq_ok, ofOption_eq_ok, index_eq_ok, guardErr_eq_ok,
    setIndex_eq_ok, pure_eq_ok, Prod.mk.injEq] at done
  obtain ⟨i, -, recipient, hget, _, -, recipients, ⟨-, rfl⟩, rfl, rfl⟩ := done
  refine Effect.of_perm (.of_eq ?_) rfl
  exact ListEdit.map_set_same Recipient.holding hget rfl

theorem updateConfig_effect {update : UpdateConfig}
    (done : updateConfig deps info update s = .ok (s', response)) :
    ∃ old new, Effect ⟨deps, env, info, .updateConfig update⟩ s s'
      (minted response) old new := by
  simp only [updateConfig, bind_eq_ok, Uint128.add_eq_ok, pure_eq_ok, Prod.mk.injEq] at done
  obtain ⟨_, -, _, -, _, -, _, -, total, ⟨hfits, rfl⟩, rfl, rfl⟩ := done
  exact ⟨[], [], .nothing, Exchanged.of_perm (.refl _), Nat.le_add_right _ _, fun _ => hfits,
    .inl (Nat.le_refl _)⟩

theorem execute_effect {msg : ExecuteMsg} (nodup : (names s.recipients).Nodup)
    (done : execute deps env info msg s = .ok (s', response)) :
    ∃ old new, Effect ⟨deps, env, info, msg⟩ s s'
      (minted response) old new := by
  cases msg with
  | addRecipient => exact addRecipient_effect done
  | removeRecipient => exact removeRecipient_effect nodup done
  | addAllocation => exact addAllocation_effect nodup done
  | withdrawUnlocked => exact withdrawUnlocked_effect nodup done
  | claimFeesForContract =>
    obtain ⟨recipients, rfl, hperm, hmint⟩ := claimFeesForContract_spec done
    rw [hmint]
    exact Effect.of_perm hperm rfl
  | claimFeesForRecipient => exact claimFeesForRecipient_effect done
  | updateConfig => exact updateConfig_effect done

end Spec

theorem callStep_spec {l l' : Ledger} {call : Call} (step : callStep l call l') :
    ∃ response, response.messages.all accepts = true ∧
      execute call.deps call.env call.info call.msg l.state = .ok (l'.state, response) ∧
      l'.minted = l.minted + minted response := by
  unfold callStep Call.exec at step
  split at step
  case h_1 s' response hdone =>
    split at step
    case isTrue haccepted =>
      obtain rfl := Option.some.inj step
      exact ⟨response, haccepted, hdone, rfl⟩
    case isFalse => cases step
  case h_2 => cases step

/-! ## What every run keeps -/

/-- Recipients have distinct names, and no more is allocated than may be. -/
structure Sound (s : State) : Prop where
  distinct : (names s.recipients).Nodup
  allocated : totalOf (·.amount) (holdings s.recipients) ≤ s.config.totalAllocation
  fits : s.config.totalAllocation < Uint128.limit

theorem Divvied.distinct {sender name : Addr} {share : Nat} {before old new : List Holding}
    (divvied : Divvied sender name share before old new) :
    (new.map Prod.fst).Nodup ∧
      ∀ name ∈ new.map Prod.fst, name ∈ old.map Prod.fst ∨ name ∉ before.map Prod.fst := by
  cases divvied with
  | nothing => simp
  | added absent => simpa using absent
  | lost => simp
  | increased a b other => simpa using Ne.symm other
  | opened a other absent =>
    refine ⟨by simpa using Ne.symm other, fun name hname => ?_⟩
    simp only [List.map_cons, List.map_nil, List.mem_cons, List.not_mem_nil, or_false] at hname
    rcases hname with rfl | rfl
    · exact .inl (by simp)
    · exact .inr absent

theorem Changed.distinct {call : Call} {before old new : List Holding} {mint : Nat}
    (change : Changed call before old new mint) :
    (new.map Prod.fst).Nodup ∧
      ∀ name ∈ new.map Prod.fst, name ∈ old.map Prod.fst ∨ name ∉ before.map Prod.fst := by
  cases change with
  | nothing => simp
  | added name absent => simpa using absent
  | removed => simp
  | replaced => simp
  | divvied name share _ _ msg divvied => exact divvied.distinct
  | withdrew => simp

theorem Effect.sound {call : Call} {s s' : State} {mint : Nat} {old new : List Holding}
    (effect : Effect call s s' mint old new) (sound : Sound s) : Sound s' where
  distinct := effect.exchanged.distinct sound.distinct effect.change.distinct.1
    effect.change.distinct.2
  allocated := by
    rcases effect.capped with smaller | capped
    · have hexchanged := effect.exchanged.total (·.amount)
      have htotal := effect.total
      have hbefore := sound.allocated
      omega
    · exact capped
  fits := effect.fits sound.fits

/-- A new contract: everything is allocated and nothing withdrawn. -/
structure Fresh (s : State) : Prop where
  distinct : (names s.recipients).Nodup
  allocated : totalOf (·.amount) (holdings s.recipients) = s.config.totalAllocation
  fits : s.config.totalAllocation < Uint128.limit
  untouched : ∀ name a, (name, some a) ∈ holdings s.recipients → a.amountWithdrawn = 0

theorem Fresh.sound {s : State} (fresh : Fresh s) : Sound s :=
  ⟨fresh.distinct, Nat.le_of_eq fresh.allocated, fresh.fits⟩

/-- What adding the community keeps: distinct names, the amounts, and nothing withdrawn. -/
private structure Opened (initial : Nat) (recipients : List Recipient) : Prop where
  distinct : (names recipients).Nodup
  allocated : totalOf (·.amount) (holdings recipients) =
    initial + (recipients.length - 1) * communityAllocation
  some_recipient : 0 < recipients.length
  untouched : ∀ name a, (name, some a) ∈ holdings recipients → a.amountWithdrawn = 0

private theorem addCommunity_opened {deps : Deps} {env : Env} {initial : Nat} :
    ∀ (community : List String) (recipients : List Recipient), Opened initial recipients →
      Opened initial (community.foldl (addCommunity deps env) recipients) := by
  intro community
  induction community with
  | nil => intro recipients opened; exact opened
  | cons address rest ih =>
    intro recipients opened
    refine ih _ ?_
    unfold addCommunity
    split
    case isTrue => exact opened
    case isFalse =>
      split
      case isTrue => exact opened
      case isFalse habsent =>
        have hname : address ∉ names recipients := by
          simpa [names, holdings, Recipient.holding] using habsent
        have hallocated := opened.allocated
        have hpositive := opened.some_recipient
        refine ⟨?_, ?_, by simp, ?_⟩
        · rw [names, holdings_append, List.map_append, List.nodup_append]
          refine ⟨opened.distinct, by simp [holdings], ?_⟩
          intro name hmem name' hmem' heq
          have haddress : name' = address := by
            simpa [holdings, Recipient.holding] using hmem'
          exact hname (haddress ▸ heq ▸ hmem)
        · rw [holdings_append, totalOf_append, hallocated]
          simp only [holdings, List.map_cons, List.map_nil, Recipient.holding, totalOf_cons,
            Option.elim_some, totalOf_nil, List.length_append, List.length_cons, List.length_nil]
          have hlength : recipients.length + (0 + 1) - 1 = (recipients.length - 1) + 1 := by omega
          rw [hlength, Nat.add_mul]
          omega
        · intro name a hmem
          rw [holdings_append] at hmem
          rcases List.mem_append.mp hmem with hmem | hmem
          · exact opened.untouched name a hmem
          · obtain ⟨-, rfl⟩ : name = address ∧
              a = ⟨communityAllocation, 0, env.blockTime, ⟨0, 365⟩⟩ := by
              simpa [holdings, Recipient.holding] using hmem
            rfl

theorem instantiate_fresh {deps : Deps} {env : Env} {info : MessageInfo} {msg : InstantiateMsg}
    {s : State} {response : Response OutMsg}
    (done : instantiate deps env info msg = .ok (s, response)) : Fresh s := by
  simp only [instantiate, bind_eq_ok, liftStd_eq_ok, addrValidate_eq_ok, Uint128.mul_eq_ok,
    Uint128.add_eq_ok, pure_eq_ok, Prod.mk.injEq] at done
  obtain ⟨_, -, _, -, _, -, contributors, -, _, ⟨-, rfl⟩, _, ⟨hfits, rfl⟩, rfl, -⟩ := done
  have hfirst : Opened msg.initialAllocation
      [⟨contributors, some ⟨msg.initialAllocation, 0, env.blockTime, ⟨730, 365⟩⟩, []⟩] := by
    refine ⟨by simp [names, holdings], by simp [holdings, Recipient.holding], by simp, ?_⟩
    intro name a hmem
    obtain ⟨-, rfl⟩ : name = contributors ∧
      a = ⟨msg.initialAllocation, 0, env.blockTime, ⟨730, 365⟩⟩ := by
      simpa [holdings, Recipient.holding] using hmem
    rfl
  have hopened : Opened msg.initialAllocation (msg.preLaunchCommunity.foldl (addCommunity deps env)
      [⟨contributors, some ⟨msg.initialAllocation, 0, env.blockTime, ⟨730, 365⟩⟩, []⟩]) :=
    addCommunity_opened msg.preLaunchCommunity _ hfirst
  exact ⟨hopened.distinct, hopened.allocated, hfits, hopened.untouched⟩

end Membrane.Vesting
