import Membrane.Lib.Fifo
import Membrane.StabilityPool.Proofs.Underflow

/-!
# Who pays for a liquidation

A distribution takes what a liquidation repaid from the front of the list of deposits. The
deposits it used are then taken out of the list by comparing user, amount and time, which
finds the right ones where no other deposit looks like one of them.
-/

namespace Membrane.StabilityPool

open Outcome

/-- The amount of a deposit, in atomics. -/
def held (deposit : Deposit) : Nat := deposit.amount.atomics

def Deposit.resize (deposit : Deposit) (amount : Nat) : Deposit :=
  { deposit with amount := ⟨amount⟩ }

@[simp]
theorem resize_held (deposit : Deposit) : deposit.resize (held deposit) = deposit := rfl

@[simp]
theorem held_resize (deposit : Deposit) (amount : Nat) :
    held (deposit.resize amount) = amount := rfl

def withCapitalAhead (deposits : List Deposit) : List (Deposit × Nat) :=
  Fifo.withAhead held 0 deposits

/-- What is left of a deposit when `repaid` is taken from the front of the list: its amount
    less what the capital ahead leaves to be paid. -/
def leftOfDeposit (repaid : Nat) (entry : Deposit × Nat) : Option Deposit :=
  Fifo.leftOf held Deposit.resize repaid entry

def usedDeposits (repaid : Nat) (deposits : List Deposit) : List Deposit :=
  (withCapitalAhead deposits).filterMap (Fifo.takenOf held Deposit.resize repaid)

/-- A distribution lowers the deposits by what was repaid, in total and each by what the
    capital ahead of it leaves to be paid, as the query of that capital tells its user. -/
structure PaidInOrder (s s' : State) (repaid : Nat) : Prop where
  total : (s'.asset.deposits.map held).sum + repaid = (s.asset.deposits.map held).sum
  each : s'.asset.deposits = (withCapitalAhead s.asset.deposits).filterMap (leftOfDeposit repaid)
  told : ∀ user positions, queryCapitalAheadOfDeposits user s = .ok positions →
    (s'.asset.deposits.filter fun deposit => deposit.user = user) =
      (positions.map fun position => (position.deposit, position.capitalAhead.atomics)).filterMap
        (leftOfDeposit repaid)

/-- No deposit of which something is left looks like one that was used, or like the used
    part of itself. -/
def NoneAlike (repaid : Nat) (deposits : List Deposit) : Prop :=
  ∀ entry ∈ withCapitalAhead deposits, (leftOfDeposit repaid entry).isSome = true →
    entry.1.equal (usedDeposits repaid deposits) = false

/-! ## The list of a distribution -/

theorem distributionList_used {blockTime : Nat} {config : Config} {repaid : Nat} :
    ∀ {deposits : List Deposit} {ahead : Nat} {used used' : List Deposit} {s s' : State},
      distributionList blockTime config ⟨repaid⟩ deposits ⟨ahead⟩ used s = .ok (used', s') →
      used' = used ++ (Fifo.withAhead held ahead deposits).filterMap
        (Fifo.takenOf held Deposit.resize repaid) := by
  intro deposits
  induction deposits with
  | nil =>
    intro ahead used used' s s' done
    simp only [distributionList, pure_eq_ok, Prod.mk.injEq] at done
    rw [Fifo.withAhead, List.filterMap_nil, List.append_nil, done.1]
  | cons deposit rest ih =>
    intro ahead used used' s s' done
    rw [distributionList] at done
    split at done
    case isFalse far =>
      simp only [pure_eq_ok, Prod.mk.injEq] at done
      have hbeyond := Fifo.beyond resize_held (deposit :: rest) (Nat.not_lt.mp far)
      rw [hbeyond.1, List.append_nil, done.1]
    case isTrue near =>
      have hnear : ahead < repaid := near
      simp only [bind_eq_ok, Decimal.add_eq_ok] at done
      obtain ⟨sum, ⟨-, rfl⟩, hround⟩ := done
      split at hround
      case isTrue beyond =>
        have hover : repaid < ahead + held deposit := beyond
        simp only [bind_eq_ok, Decimal.add_eq_ok, Decimal.sub_eq_ok] at hround
        obtain ⟨left, ⟨-, rfl⟩, _, -, _, ⟨-, rfl⟩, _, -, mid, -, hrest⟩ := hround
        dsimp only at hrest
        have hsum : ahead + (repaid - ahead) = repaid := by omega
        rw [hsum] at hrest
        have htaken : Fifo.takenOf held Deposit.resize repaid (deposit, ahead) =
            some (deposit.resize (repaid - ahead)) := by
          have hpart : repaid - ahead ≤ held deposit := by omega
          exact (if_pos hnear).trans (congrArg some (congrArg _ (Nat.min_eq_right hpart)))
        have hbeyond := Fifo.beyond resize_held rest (Nat.le_of_lt hover)
        have hnothing := Fifo.beyond resize_held rest (Nat.le_refl repaid)
        rw [ih hrest, hnothing.1, Fifo.withAhead, List.filterMap_cons_some htaken, hbeyond.1,
          List.append_nil]
        rfl
      case isFalse under =>
        have hunder : ahead + held deposit ≤ repaid := Nat.not_lt.mp under
        simp only [bind_eq_ok] at hround
        obtain ⟨_, -, mid, -, hrest⟩ := hround
        have htaken : Fifo.takenOf held Deposit.resize repaid (deposit, ahead) =
            some deposit := by
          have hall : held deposit ≤ repaid - ahead := by omega
          exact (if_pos hnear).trans (congrArg some (congrArg _ (Nat.min_eq_left hall)))
        rw [ih hrest, Fifo.withAhead, List.filterMap_cons_some htaken, List.append_assoc]
        rfl

/-! ## Taking the used deposits out -/

theorem equal_of_mem {deposit : Deposit} {deposits : List Deposit} (mem : deposit ∈ deposits) :
    deposit.equal deposits = true := by
  rw [Deposit.equal, List.any_eq_true]
  exact ⟨deposit, mem, by simp⟩

theorem editedDeposits_iff {deposits used left untouched edited : List Deposit}
    (parts : Fifo.Parts held Deposit.resize deposits used left untouched)
    (done : editedDeposits deposits used = .ok edited) :
    edited = left ↔ ∀ deposit ∈ untouched, deposit.equal used = false := by
  unfold editedDeposits at done
  dsimp only at done
  have hfront : ∀ (front rest : List Deposit), (∀ deposit ∈ front, deposit.equal used = true) →
      (front ++ rest).filter (fun deposit => !deposit.equal used) =
        rest.filter fun deposit => !deposit.equal used := by
    intro front rest hused
    rw [List.filter_append, List.filter_eq_nil_iff.mpr, List.nil_append]
    intro deposit mem
    rw [hused deposit mem]
    exact Bool.false_ne_true
  cases parts with
  | between =>
    rw [hfront _ _ fun deposit mem => equal_of_mem mem] at done
    have hshort := List.length_filter_le (fun deposit : Deposit => !deposit.equal used) left
    rw [if_neg (by rw [List.length_append]; omega)] at done
    obtain rfl := pure_eq_ok.mp done
    rw [List.filter_eq_self]
    simp only [Bool.not_eq_true']
  | inside front a rest part positive less =>
    have hused : ∀ deposit ∈ front, deposit.equal (front ++ [a.resize part]) = true :=
      fun deposit mem => equal_of_mem (List.mem_append_left _ mem)
    rw [hfront _ _ hused] at done
    by_cases none : ∀ deposit ∈ a :: rest, deposit.equal (front ++ [a.resize part]) = false
    · -- all are kept, and the first of them loses the used part
      have hall : (a :: rest).filter
          (fun deposit => !deposit.equal (front ++ [a.resize part])) = a :: rest := by
        rw [List.filter_eq_self]
        intro deposit mem
        rw [none deposit mem]
        rfl
      rw [hall, if_pos (by simp)] at done
      simp only [bind_eq_ok, index_eq_ok, setIndex_eq_ok, Decimal.sub_eq_ok] at done
      obtain ⟨first, hfirst, last, hlast, lower, ⟨-, rfl⟩, -, rfl⟩ := done
      obtain rfl : a = first := by simpa using hfirst
      obtain rfl : a.resize part = last := by simpa using hlast
      exact ⟨fun _ => none, fun _ => rfl⟩
    · -- one is taken out that should stay, and nothing is lowered
      have hfewer : ((a :: rest).filter
          (fun deposit => !deposit.equal (front ++ [a.resize part]))).length <
            (a :: rest).length := by
        refine Nat.lt_of_le_of_ne (List.length_filter_le _ _) fun hlength => none ?_
        rw [List.length_filter_eq_length_iff] at hlength
        intro deposit mem
        simpa using hlength deposit mem
      rw [if_neg (by simp at hfewer ⊢; omega)] at done
      obtain rfl := pure_eq_ok.mp done
      refine ⟨fun heq => ?_, fun all => absurd all none⟩
      rw [heq, List.length_cons, List.length_cons] at hfewer
      omega

/-! ## The query -/

theorem addPositions_spec {user : Addr} :
    ∀ {deposits : List Deposit} {ahead : Nat} {acc acc' : Decimal × List DepositPosition},
      acc.1 = ⟨ahead⟩ → deposits.foldlM (addPosition user) acc = .ok acc' →
      acc'.2 = acc.2 ++ ((Fifo.withAhead held ahead deposits).filter fun entry =>
        entry.1.user = user).map fun entry => ⟨entry.1, ⟨entry.2⟩⟩ := by
  intro deposits
  induction deposits with
  | nil =>
    intro ahead acc acc' _ done
    obtain rfl := pure_eq_ok.mp done
    rw [Fifo.withAhead, List.filter_nil, List.map_nil, List.append_nil]
  | cons deposit rest ih =>
    intro ahead acc acc' start done
    simp only [List.foldlM_cons, bind_eq_ok, addPosition, Decimal.add_eq_ok, pure_eq_ok] at done
    obtain ⟨mid, ⟨sum, ⟨-, rfl⟩, rfl⟩, hrest⟩ := done
    have hnext := @ih (ahead + held deposit) _ _ (by rw [start]; rfl) hrest
    rw [hnext, Fifo.withAhead]
    by_cases mine : deposit.user = user
    · rw [if_pos mine, List.filter_cons_of_pos (by simpa using mine), List.map_cons,
        List.append_assoc, start]
      rfl
    · rw [if_neg mine, List.filter_cons_of_neg (by simpa using mine)]

theorem queryCapitalAhead_spec {user : Addr} {s : State} {positions : List DepositPosition}
    (done : queryCapitalAheadOfDeposits user s = .ok positions) :
    (positions.map fun position => (position.deposit, position.capitalAhead.atomics)) =
      (withCapitalAhead s.asset.deposits).filter fun entry => entry.1.user = user := by
  simp only [queryCapitalAheadOfDeposits, bind_eq_ok, pure_eq_ok] at done
  obtain ⟨acc, hloop, rfl⟩ := done
  rw [@addPositions_spec user _ 0 _ _ rfl hloop, List.nil_append, List.map_map]
  exact List.map_id _

theorem leftOfDeposit_user {repaid : Nat} {entry : Deposit × Nat} {deposit : Deposit}
    (left : leftOfDeposit repaid entry = some deposit) : deposit.user = entry.1.user := by
  unfold leftOfDeposit Fifo.leftOf at left
  split at left
  · cases left
  · obtain rfl := Option.some.inj left
    rfl

theorem left_of_user {repaid : Nat} {user : Addr} (entries : List (Deposit × Nat)) :
    ((entries.filterMap (leftOfDeposit repaid)).filter fun deposit => deposit.user = user) =
      (entries.filter fun entry => entry.1.user = user).filterMap (leftOfDeposit repaid) := by
  induction entries with
  | nil => rfl
  | cons entry rest ih =>
    cases left : leftOfDeposit repaid entry with
    | none =>
      rw [List.filterMap_cons_none left, ih]
      by_cases mine : entry.1.user = user
      · rw [List.filter_cons_of_pos (by simpa using mine), List.filterMap_cons_none left]
      · rw [List.filter_cons_of_neg (by simpa using mine)]
    | some deposit =>
      have huser := leftOfDeposit_user left
      rw [List.filterMap_cons_some left]
      by_cases mine : entry.1.user = user
      · rw [List.filter_cons_of_pos (by simpa [huser] using mine), ih,
          List.filter_cons_of_pos (by simpa using mine), List.filterMap_cons_some left]
      · rw [List.filter_cons_of_neg (by simpa [huser] using mine), ih,
          List.filter_cons_of_neg (by simpa using mine)]

/-! ## A distribution -/

/-- A distribution is paid in order exactly where no deposit that it leaves something of
    looks like one that it used. -/
theorem paid_in_order_iff {blockTime : Nat} {info : MessageInfo} {distributionAssets : List Asset}
    {distributionAssetRatios : List Decimal} {distributeFor : Nat} {s s' : State}
    {msgs : List (CosmosMsg OutMsg)}
    (done : distributeFunds blockTime info distributionAssets distributionAssetRatios distributeFor
      s = .ok (s', msgs))
    (covered : distributeFor * Decimal.fractional ≤ (s.asset.deposits.map held).sum) :
    PaidInOrder s s' (distributeFor * Decimal.fractional) ↔
      NoneAlike (distributeFor * Decimal.fractional) s.asset.deposits := by
  simp only [distributeFunds, bind_eq_ok, pure_eq_ok, liftStd_eq_ok, Prod.mk.injEq] at done
  obtain ⟨-, -, repaid, hrepaid, ⟨used, mid⟩, hlist, edited, hedited, ratios, -, users, -,
    rfl, -⟩ :=
    done
  obtain rfl := Decimal.fromRatio_one hrepaid
  have hused : used = usedDeposits (distributeFor * Decimal.fractional) s.asset.deposits :=
    distributionList_used hlist
  subst hused
  have hparts := @Fifo.parts _ held Deposit.resize resize_held (distributeFor * Decimal.fractional)
    s.asset.deposits 0
  have hiff := editedDeposits_iff hparts hedited
  have htotal := hparts.total held_resize
  have htaken := @Fifo.taken_sum _ held Deposit.resize held_resize
    (distributeFor * Decimal.fractional) s.asset.deposits 0
  rw [Nat.sub_zero, Nat.min_eq_right covered] at htaken
  rw [htaken] at htotal
  have hall : (∀ deposit ∈ Fifo.remaining held Deposit.resize
      (distributeFor * Decimal.fractional) 0 s.asset.deposits, deposit.equal
        (usedDeposits (distributeFor * Decimal.fractional) s.asset.deposits) = false) ↔
      NoneAlike (distributeFor * Decimal.fractional) s.asset.deposits := by
    unfold Fifo.remaining NoneAlike withCapitalAhead leftOfDeposit
    simp only [List.mem_map, List.mem_filter]
    constructor
    · intro none entry mem left
      exact none entry.1 ⟨entry, ⟨mem, left⟩, rfl⟩
    · rintro none _ ⟨entry, ⟨mem, left⟩, rfl⟩
      exact none entry mem left
  refine Iff.trans ?_ (hiff.trans hall)
  constructor
  · intro paid
    exact paid.each
  · intro heq
    refine ⟨?_, heq, ?_⟩
    · show (edited.map held).sum + _ = _
      rw [heq, ← htotal]
      exact Nat.add_comm _ _
    · intro user positions hquery
      rw [queryCapitalAhead_spec hquery]
      show edited.filter _ = _
      rw [heq]
      exact left_of_user _

/-! ## On a sample pool -/

/-- A distribution for `distributeFor` after some calls. -/
def sampleDistribution (calls : List Call) (distributeFor : Nat) : Option (State × State) :=
  (sampleAfter (fun _ _ => True) calls).bind fun l =>
    match distributeFunds 20 (MessageInfo.noFunds "positions") [⟨.nativeToken "uatom", 10⟩]
      [Decimal.one] distributeFor l.state with
    | .ok (s', _) => some (l.state, s')
    | .error _ => none

theorem sampleDistribution_spec {calls : List Call} {distributeFor : Nat} {s s' : State}
    (done : sampleDistribution calls distributeFor = some (s, s')) :
    ∃ msgs, distributeFunds 20 (MessageInfo.noFunds "positions") [⟨.nativeToken "uatom", 10⟩]
      [Decimal.one] distributeFor s = .ok (s', msgs) := by
  obtain ⟨l, -, hcall⟩ := Option.bind_eq_some_iff.mp done
  split at hcall
  case h_1 msgs hdone =>
    obtain ⟨rfl, rfl⟩ := by simpa only [Option.some.injEq, Prod.mk.injEq] using hcall
    exact ⟨msgs, hdone⟩
  case h_2 => cases hcall

theorem hundred_positive : 0 < 100 := by decide

def twoDeposits : List Call :=
  [sampleDeposit 0 100 hundred_positive, sampleDeposit 10 100 hundred_positive,
    sampleCall "positions" 20 (.liquidate ⟨150 * Decimal.fractional⟩)]

theorem paid_in_order_two :
    ∃ s s', sampleDistribution twoDeposits 150 = some (s, s') ∧
      PaidInOrder s s' (150 * Decimal.fractional) := by
  have hread : (sampleDistribution twoDeposits 150).map (fun run => run.1.asset.deposits) =
      some [⟨"user", ⟨100 * Decimal.fractional⟩, 0, 0, none⟩,
        ⟨"user", ⟨100 * Decimal.fractional⟩, 10, 10, none⟩] := by
    decide +kernel
  obtain ⟨⟨s, s'⟩, hrun, hdeposits⟩ := Option.map_eq_some_iff.mp hread
  obtain ⟨msgs, done⟩ := sampleDistribution_spec hrun
  dsimp only at hdeposits
  refine ⟨s, s', hrun, (paid_in_order_iff done ?_).mpr ?_⟩
  · rw [hdeposits]
    decide +kernel
  · rw [hdeposits]
    unfold NoneAlike
    decide +kernel

/-- Two deposits of 100 by one user in one second, of which a liquidation used 100. -/
def equalDeposits : List Call :=
  [sampleDeposit 0 100 hundred_positive, sampleDeposit 0 100 hundred_positive,
    sampleCall "positions" 20 (.liquidate ⟨100 * Decimal.fractional⟩)]

/-- The distribution takes both out of the list. -/
theorem not_paid_in_order :
    ¬ ∀ s s', sampleDistribution equalDeposits 100 = some (s, s') →
      PaidInOrder s s' (100 * Decimal.fractional) := by
  intro claim
  have hread : (sampleDistribution equalDeposits 100).map
      (fun run => (run.1.asset.deposits.map held, run.2.asset.deposits.map held)) =
        some ([100 * Decimal.fractional, 100 * Decimal.fractional], []) := by
    decide +kernel
  obtain ⟨⟨s, s'⟩, hrun, hdeposits⟩ := Option.map_eq_some_iff.mp hread
  have htotal := (claim s s' hrun).total
  simp only [Prod.mk.injEq] at hdeposits
  rw [hdeposits.1, hdeposits.2] at htotal
  exact absurd htotal (by decide)

end Membrane.StabilityPool
