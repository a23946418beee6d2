import Membrane.LiqQueue.Proofs.Calls

/-!
# Runs of calls

What every allowed move of a queue keeps, a run of calls keeps of every queue. Alongside
each queue goes the ledger of what it got and gave.
-/

namespace Membrane.LiqQueue

open Outcome

def Call.recordAll (s : State) (call : Call) (response : Response OutMsg)
    (ledgers : String → Ledger) : String → Ledger :=
  match call.msg.about with
  | none => ledgers
  | some text =>
    match s.queues.lookup text with
    | none => ledgers
    | some queue =>
      Function.update ledgers text (call.record s queue response (ledgers text))

structure Tracked where
  state : State
  ledgers : String → Ledger

namespace Tracked

/-- A successful call, recorded. -/
def Steps (t : Tracked) (call : Call) (t' : Tracked) : Prop :=
  ∃ response, call.Executes t.state t'.state response ∧
    t'.ledgers = call.recordAll t.state response t.ledgers

def book (t : Tracked) (text : String) (queue : Queue) : Book :=
  ⟨queue, slotSums t.state.epochScaleSums text, t.ledgers text⟩

/-- Every queue of a state is sound, and nothing has happened where there is no queue. -/
structure Tidy (t : Tracked) : Prop where
  sound : t.state.Sound
  sums : ∀ text, t.state.queues.lookup text = none →
    slotSums t.state.epochScaleSums text = fun _ _ _ => none
  ledgers : ∀ text, t.state.queues.lookup text = none → t.ledgers text = Ledger.blank

def Every (P : Book → Prop) (t : Tracked) : Prop :=
  ∀ text queue, t.state.queues.lookup text = some queue → P (t.book text queue)

/-- A contract that was just made, with nothing recorded. -/
def start (s : State) : Tracked := ⟨s, fun _ => Ledger.blank⟩

/-! ## The start -/

theorem tidy_start {s : State} (fresh : Fresh s) : (start s).Tidy := by
  obtain ⟨deps, info, msg, response, done⟩ := fresh
  simp only [instantiate, bind_eq_ok, pure_eq_ok, Prod.mk.injEq] at done
  obtain ⟨_, -, _, -, _, -, rfl, -⟩ := done
  refine ⟨fun text queue hqueue => ?_, fun text _ => ?_, fun text _ => rfl⟩
  · cases hqueue
  · rfl

theorem every_start {s : State} (P : Book → Prop) (fresh : Fresh s) : (start s).Every P := by
  obtain ⟨deps, info, msg, response, done⟩ := fresh
  simp only [instantiate, bind_eq_ok, pure_eq_ok, Prod.mk.injEq] at done
  obtain ⟨_, -, _, -, _, -, rfl, -⟩ := done
  intro text queue hqueue
  cases hqueue

theorem addedQueue_sound (config : Config) (maxPremium bidThreshold : Nat) :
    (addedQueue config maxPremium bidThreshold).Sound := by
  have hblank : ∀ slot ∈ (addedQueue config maxPremium bidThreshold).slots, Blank slot := by
    intro slot hslot
    obtain ⟨premium, -, rfl⟩ := List.mem_map.mp hslot
    exact ⟨premium, rfl⟩
  have hnothing : (addedQueue config maxPremium bidThreshold).allBids = [] :=
    List.flatMap_eq_nil_iff.mpr fun slot hslot => allBids_of_blank (hblank slot hslot)
  refine ⟨?_, fun slot hslot => ?_, ?_, fun bid hbid => ?_, Nat.one_pos⟩
  · exact List.pairwise_of_forall_mem_list fun _ _ slot hslot _ => hblank slot hslot
  · obtain ⟨premium, rfl⟩ := hblank slot hslot
    exact Book.newSlot_sound premium
  · rw [hnothing]
    exact List.nodup_nil
  · rw [hnothing] at hbid
    cases hbid

/-! ## Steps -/

theorem Steps.keeps {P : Book → Prop} {t t' : Tracked} {call : Call} (steps : t.Steps call t')
    (tidy : t.Tidy) (every : t.Every P)
    (made : ∀ bidFor maxPremium bidThreshold,
      call.msg = .addQueue bidFor maxPremium bidThreshold →
      P ⟨addedQueue t.state.config maxPremium bidThreshold, fun _ _ _ => none, Ledger.blank⟩)
    (moved : ∀ text queue, call.msg.about = some text →
      t.state.queues.lookup text = some queue → ∀ b m b', b.queue.Sound → P b →
        call.Makes t.state (t.book text queue) b m → b.Moves m b' → P b') :
    t'.Tidy ∧ t'.Every P := by
  obtain ⟨response, done, hledgers⟩ := steps
  cases Call.does tidy.sound done with
  | nothing about queues sums =>
    have hsame : t'.ledgers = t.ledgers := by
      rw [hledgers]
      simp only [Call.recordAll, about]
    refine ⟨⟨fun text queue hqueue => ?_, fun text habsent => ?_, fun text habsent => ?_⟩,
      fun text queue hqueue => ?_⟩
    · rw [queues] at hqueue
      exact tidy.sound text queue hqueue
    · rw [queues] at habsent
      rw [sums]
      exact tidy.sums text habsent
    · rw [queues] at habsent
      rw [hsame]
      exact tidy.ledgers text habsent
    · rw [queues] at hqueue
      unfold book
      rw [sums, hsame]
      exact every text queue hqueue
  | @adds bidFor maxPremium bidThreshold adds absent queues sums =>
    have hsame : t'.ledgers = t.ledgers := by
      rw [hledgers]
      simp only [Call.recordAll, adds, ExecuteMsg.about, absent]
    have hlookup : ∀ {text queue}, t'.state.queues.lookup text = some queue →
        (text = bidFor.toText ∧ queue = addedQueue t.state.config maxPremium bidThreshold) ∨
          t.state.queues.lookup text = some queue := by
      intro text queue hqueue
      rw [queues] at hqueue
      by_cases htext : text = bidFor.toText
      · subst htext
        rw [AList.lookup_insert] at hqueue
        exact Or.inl ⟨rfl, (Option.some.inj hqueue).symm⟩
      · rw [AList.lookup_insert_ne htext] at hqueue
        exact Or.inr hqueue
    have habsent : ∀ {text}, t'.state.queues.lookup text = none →
        t.state.queues.lookup text = none := by
      intro text hnone
      rw [queues] at hnone
      by_cases htext : text = bidFor.toText
      · rw [htext]
        exact absent
      · rwa [AList.lookup_insert_ne htext] at hnone
    refine ⟨⟨fun text queue hqueue => ?_, fun text hnone => ?_, fun text hnone => ?_⟩,
      fun text queue hqueue => ?_⟩
    · rcases hlookup hqueue with ⟨-, rfl⟩ | hqueue
      · exact addedQueue_sound _ _ _
      · exact tidy.sound text queue hqueue
    · rw [sums]
      exact tidy.sums text (habsent hnone)
    · rw [hsame]
      exact tidy.ledgers text (habsent hnone)
    · unfold book
      rw [sums, hsame]
      rcases hlookup hqueue with ⟨rfl, rfl⟩ | hqueue
      · rw [tidy.sums _ absent, tidy.ledgers _ absent]
        exact made bidFor maxPremium bidThreshold adds
      · exact every text queue hqueue
  | @moves text queue queue' about found queues sums runs =>
    have hrecorded : t'.ledgers = Function.update t.ledgers text
        (call.record t.state queue response (t.ledgers text)) := by
      rw [hledgers]
      simp only [Call.recordAll, about, found]
    have hkeeps : ∀ b m b', (b.queue.Sound ∧ P b) →
        call.Makes t.state (t.book text queue) b m → b.Moves m b' →
        (b'.queue.Sound ∧ P b') := fun b m b' h hmakes hmoves =>
      ⟨hmoves.sound h.1, moved text queue about found b m b' h.1 h.2 hmakes hmoves⟩
    have hrun := runs (t.ledgers text)
    obtain ⟨hsound', hP'⟩ := RunWhere.keeps hkeeps hrun
      ⟨tidy.sound text queue found, every text queue found⟩
    have hlookup : ∀ {other queue₁}, t'.state.queues.lookup other = some queue₁ →
        (other = text ∧ queue₁ = queue') ∨
          (other ≠ text ∧ t.state.queues.lookup other = some queue₁) := by
      intro other queue₁ hqueue
      rw [queues] at hqueue
      by_cases htext : other = text
      · subst htext
        rw [AList.lookup_insert] at hqueue
        exact Or.inl ⟨rfl, (Option.some.inj hqueue).symm⟩
      · rw [AList.lookup_insert_ne htext] at hqueue
        exact Or.inr ⟨htext, hqueue⟩
    have habsent : ∀ {other}, t'.state.queues.lookup other = none →
        other ≠ text ∧ t.state.queues.lookup other = none := by
      intro other hnone
      rw [queues] at hnone
      by_cases htext : other = text
      · subst htext
        rw [AList.lookup_insert] at hnone
        cases hnone
      · rw [AList.lookup_insert_ne htext] at hnone
        exact ⟨htext, hnone⟩
    refine ⟨⟨fun other queue₁ hqueue => ?_, fun other hnone => ?_, fun other hnone => ?_⟩,
      fun other queue₁ hqueue => ?_⟩
    · rcases hlookup hqueue with ⟨-, rfl⟩ | ⟨-, hqueue⟩
      · exact hsound'
      · exact tidy.sound other queue₁ hqueue
    · obtain ⟨hne, hnone⟩ := habsent hnone
      rw [sums other hne]
      exact tidy.sums other hnone
    · obtain ⟨hne, hnone⟩ := habsent hnone
      rw [hrecorded, Function.update_of_ne hne]
      exact tidy.ledgers other hnone
    · unfold book
      rcases hlookup hqueue with ⟨rfl, rfl⟩ | ⟨hne, hqueue⟩
      · rw [hrecorded, Function.update_self]
        exact hP'
      · rw [sums other hne, hrecorded, Function.update_of_ne hne]
        exact every other queue₁ hqueue

/-! ## Runs -/

def Meets (allowed : State → Call → Prop) (t : Tracked) (call : Call) : Prop :=
  allowed t.state call

theorem of_run {allowed : State → Call → Prop} {s s' : State}
    (run : RunWhere LiqQueue.Steps allowed s s')
    (ledgers : String → Ledger) :
    ∃ ledgers', RunWhere Tracked.Steps (Meets allowed) ⟨s, ledgers⟩ ⟨s', ledgers'⟩ := by
  induction run with
  | refl => exact ⟨ledgers, .refl⟩
  | @tail mid last _ step ih =>
    obtain ⟨ledgers', hrun⟩ := ih
    obtain ⟨call, hallowed, hstep⟩ := step
    unfold LiqQueue.Steps Call.exec at hstep
    split at hstep
    case h_1 s₁ response hexecute =>
      obtain rfl := Option.some.inj hstep
      exact ⟨_, hrun.tail ⟨call, hallowed, response, hexecute, rfl⟩⟩
    case h_2 => cases hstep

theorem runs_keep {P : Book → Prop} {allowed : State → Call → Prop} {t t' : Tracked}
    (made : ∀ s call bidFor maxPremium bidThreshold, allowed s call →
      call.msg = .addQueue bidFor maxPremium bidThreshold →
      P ⟨addedQueue s.config maxPremium bidThreshold, fun _ _ _ => none, Ledger.blank⟩)
    (moved : ∀ (t : Tracked) (call : Call) text queue, allowed t.state call →
      call.msg.about = some text → t.state.queues.lookup text = some queue →
      ∀ b m b', b.queue.Sound → P b → call.Makes t.state (t.book text queue) b m →
        b.Moves m b' → P b')
    (run : RunWhere Tracked.Steps (Meets allowed) t t') (tidy : t.Tidy) (every : t.Every P) :
    t'.Tidy ∧ t'.Every P := by
  have hkeeps : ∀ (t : Tracked) (call : Call) (t' : Tracked), (t.Tidy ∧ t.Every P) →
      Meets allowed t call → t.Steps call t' → (t'.Tidy ∧ t'.Every P) := by
    intro t call t' h hallowed hsteps
    exact Steps.keeps hsteps h.1 h.2 (fun _ _ _ => made _ call _ _ _ hallowed)
      (fun text queue habout hqueue => moved t call text queue hallowed habout hqueue)
  exact RunWhere.keeps hkeeps run ⟨tidy, every⟩

end Tracked

theorem reachable_sound {allowed : State → Call → Prop} {s s' : State} (fresh : Fresh s)
    (run : RunWhere Steps allowed s s') : s'.Sound := by
  obtain ⟨ledgers', hrun⟩ := Tracked.of_run run fun _ => Ledger.blank
  exact (Tracked.runs_keep (P := fun _ => True) (fun _ _ _ _ _ _ _ => trivial)
    (fun _ _ _ _ _ _ _ _ _ _ _ _ _ _ => trivial) hrun (Tracked.tidy_start fresh)
    (Tracked.every_start _ fresh)).1.sound

/-! ## A sample chain -/

/-- A contract with a waiting period of a minute and a minimum bid of 1000. -/
def sampleStart : State :=
  ⟨{ owner := "gov"
     positionsContract := "cdp"
     osmosisProxyContract := "proxy"
     addedAssets := some []
     waitingPeriod := 60
     bidAsset := .nativeToken "cdt"
     minimumBid := 1000
     maximumWaitingBids := 100 }, ∅, ∅, none⟩

def anyAddr : Deps := ⟨fun _ => true⟩

theorem sampleStart_fresh : Fresh sampleStart :=
  ⟨anyAddr, MessageInfo.noFunds "gov", ⟨none, "cdp", "proxy", 60, 1000, 100⟩, {}, rfl⟩

def sampleCall (time : Nat) (sender : Addr) (amount : Nat) (msg : ExecuteMsg) : Call :=
  ⟨anyAddr, ⟨time, "queue"⟩,
    if positive : 0 < amount then MessageInfo.oneCoin sender ⟨"cdt", amount⟩ positive
    else MessageInfo.noFunds sender, msg⟩

def sampleQueue (maxPremium bidThreshold : Nat) : Call :=
  sampleCall 0 "gov" 0 (.addQueue (.nativeToken "atom") maxPremium bidThreshold)

def sampleBid (time : Nat) (user : Addr) (premium amount : Nat) : Call :=
  sampleCall time user amount (.submitBid ⟨.nativeToken "atom", premium⟩ none)

def sampleLiquidation (time collateral : Nat) : Call :=
  sampleCall time "cdp" 0 (.liquidate ⟨Decimal.one, 6⟩ ⟨Decimal.one, 6⟩ collateral
    (.nativeToken "atom"))

def sampleReads {α : Type} (calls : List Call) (read : Queue → α) : Option α :=
  (execAll Call.exec calls sampleStart).bind fun s => (s.queues.lookup "atom").map read

theorem sampleReads_eq {α : Type} {calls : List Call} {read : Queue → α} {result : α}
    (done : sampleReads calls read = some result) :
    ∃ s queue, execAll Call.exec calls sampleStart = some s ∧
      s.queues.lookup "atom" = some queue ∧ read queue = result := by
  obtain ⟨s, hrun, hread⟩ := Option.bind_eq_some_iff.mp done
  obtain ⟨queue, hqueue, hresult⟩ := Option.map_eq_some_iff.mp hread
  exact ⟨s, queue, hrun, hqueue, hresult⟩

end Membrane.LiqQueue
