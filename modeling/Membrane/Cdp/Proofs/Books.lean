import Membrane.Cdp.Proofs.Debt
import Membrane.Cdp.Proofs.Deposit
import Membrane.Cdp.Proofs.Governance
import Membrane.Cdp.Proofs.Withdrawal

/-!
# Movements of the books

What each call adds to and takes off the debt of the stored positions, the debt of
the basket and its pending revenue, in one record of amounts.
-/

namespace Membrane.Cdp

open Outcome

/-- The amounts a call moves: interest charged to stored positions and booked in the
    basket, debt borrowed, debt taken off stored positions and off the basket, and
    revenue taken out. -/
structure Movement where
  charged : Nat := 0
  booked : Nat := 0
  borrowed : Nat := 0
  repaid : Nat := 0
  credited : Nat := 0
  paid : Nat := 0

/-- A call moved the books by these amounts, and kept ids apart. -/
structure Moved (s s' : State) (m : Movement) : Prop where
  debt : totalDebt s'.positions + m.repaid = totalDebt s.positions + m.charged + m.borrowed
  basket : s'.basket.creditAsset.amount + m.credited =
    s.basket.creditAsset.amount + m.booked + m.borrowed
  revenue : s'.basket.pendingRevenue + m.paid = s.basket.pendingRevenue + m.booked
  creditInfo : s'.basket.creditAsset.info = s.basket.creditAsset.info
  sound : SoundIds s'.basket.currentPositionId s'.positions

/-- The ids of the stored positions are sound. -/
abbrev State.Sound (s : State) : Prop := SoundIds s.basket.currentPositionId s.positions

section

variable {deps : Deps} {env : Env} {info : MessageInfo} {s s' : State} {owner : Addr}

theorem Governed.moved {response : Response OutMsg} {taken : Nat}
    (governed : Governed s s' response taken) (sound : s.Sound) :
    Moved s s' { paid := s.basket.pendingRevenue - s'.basket.pendingRevenue } where
  debt := by simp [governed.positions]
  basket := by simp [governed.creditAsset]
  revenue := by
    have := governed.pendingRevenue
    simp only
    omega
  creditInfo := by rw [governed.creditAsset]
  sound := by
    rw [governed.positions, governed.currentPositionId]
    exact sound

/-! ## Deposit -/

theorem DepositedInto.moved {id : Nat} {deposits assets : List CAsset} {position : Position}
    {out : Accrued} (into : DepositedInto deps env s s' owner id deposits position assets out)
    (sound : s.Sound) : Moved s s' { booked := out.interest position } := by
  have hcharged := accrue_charged into.accrued
  have hdebt := into.write.debt
  refine ⟨?_, ?_, ?_, ?_, ?_⟩
  · simpa using hdebt
  · rw [into.books.creditAsset]
    exact hcharged.basketCredit
  · rw [into.books.pendingRevenue]
    exact hcharged.pendingRevenue
  · rw [into.books.creditAsset, hcharged.creditInfo]
  · rw [into.books.currentPositionId, hcharged.currentPositionId]
    exact into.write.ids sound

theorem DepositedNew.moved {deposits : List CAsset} {out : Accrued}
    (new : DepositedNew deps env s s' owner deposits out) (sound : s.Sound) :
    Moved s s' { charged := out.position.creditAmount, booked := out.position.creditAmount } := by
  have hcharged := accrue_charged new.accrued
  refine ⟨?_, ?_, ?_, ?_, ?_⟩
  · simpa using new.write.debt
  · rw [new.books.creditAsset]
    exact hcharged.basketCredit
  · rw [new.books.pendingRevenue]
    exact hcharged.pendingRevenue
  · rw [new.books.creditAsset, hcharged.creditInfo]
  · rw [new.books.currentPositionId, hcharged.currentPositionId]
    exact new.write.ids hcharged.positionId sound

/-! ## Withdrawal -/

section Withdrawn

variable {position target : Position} {out : Accrued} {withdrawals : List Asset}

theorem Withdrawn.charged
    (withdrawn : Withdrawn deps env s s' owner position out target withdrawals) :
    Charged position s.basket out.position out.basket (out.interest position) :=
  accrue_charged withdrawn.accrued

theorem WithdrawWrite.ids {store store' : Store} {nextId : Nat}
    (write : WithdrawWrite store store' owner position target) (sound : SoundIds nextId store) :
    SoundIds nextId store' := by
  cases write with
  | replaced _ write => exact write.ids sound
  | removed _ _ write => exact write.ids sound

theorem Withdrawn.moved_untouched
    (withdrawn : Withdrawn deps env s s' owner position out target withdrawals)
    (untouched : touches position.held withdrawals = false) (sound : s.Sound) :
    Moved s s' { booked := out.interest position } := by
  have hcharged := withdrawn.charged
  refine ⟨?_, ?_, ?_, ?_, ?_⟩
  · simp [withdrawn.untouched untouched]
  · rw [withdrawn.books.creditAsset]
    exact hcharged.basketCredit
  · rw [withdrawn.books.pendingRevenue]
    exact hcharged.pendingRevenue
  · rw [withdrawn.books.creditAsset, hcharged.creditInfo]
  · rw [withdrawn.books.currentPositionId, hcharged.currentPositionId,
      withdrawn.untouched untouched]
    exact sound

theorem Withdrawn.moved_touched
    (withdrawn : Withdrawn deps env s s' owner position out target withdrawals)
    (touched : touches position.held withdrawals = true) (sound : s.Sound) :
    Moved s s' { charged := out.interest position, booked := out.interest position } := by
  have hcharged := withdrawn.charged
  have hwrite := withdrawn.written touched
  refine ⟨?_, ?_, ?_, ?_, ?_⟩
  · have hcredit := withdrawn.credit
    have hinterest := hcharged.credit
    cases hwrite with
    | replaced _ write =>
      have hdebt := write.debt
      simp only
      omega
    | removed _ free write =>
      have hdebt := write.debt
      simp only
      omega
  · rw [withdrawn.books.creditAsset]
    exact hcharged.basketCredit
  · rw [withdrawn.books.pendingRevenue]
    exact hcharged.pendingRevenue
  · rw [withdrawn.books.creditAsset, hcharged.creditInfo]
  · rw [withdrawn.books.currentPositionId, hcharged.currentPositionId]
    exact hwrite.ids sound

end Withdrawn

/-! ## Repayment and debt increase -/

theorem RepayWrite.ids {store store' : Store} {nextId : Nat} {position target : Position}
    (write : RepayWrite store store' owner position target) (sound : SoundIds nextId store) :
    SoundIds nextId store' := by
  cases write with
  | replaced _ write => exact write.ids sound
  | removed _ write => exact write.ids sound

theorem Repaid.moved {position charged : Position} {basket : Basket} {repaid paid : Nat}
    (done : Repaid deps env info s s' owner position charged basket repaid paid)
    (clears : checkForEmptyPosition position.collateralAssets = true →
      charged.creditAmount = repaid) (sound : s.Sound) :
    ∃ interest, basket.creditAsset.amount = s.basket.creditAsset.amount + interest ∧
      charged.creditAmount = position.creditAmount + interest ∧
      Moved s s'
        { charged := interest, booked := interest, repaid := repaid,
          credited := min repaid basket.creditAsset.amount, paid := paid } := by
  obtain ⟨prices, haccrue⟩ := done.accrued
  obtain ⟨interest, hcharged⟩ := accrueForRepay_charged haccrue
  refine ⟨interest, hcharged.basketCredit, hcharged.credit, ?_, ?_, ?_, ?_, ?_⟩
  · have hcredit := hcharged.credit
    have hle := done.debt
    cases done.write with
    | replaced _ write =>
      have hdebt := write.debt
      simp only at hdebt ⊢
      omega
    | removed empty write =>
      have hdebt := write.debt
      have hclear := clears empty
      simp only
      omega
  · have hbasket := hcharged.basketCredit
    rw [done.credit]
    simp only
    omega
  · have hrevenue := hcharged.pendingRevenue
    have hpaid := done.pendingRevenue
    simp only
    omega
  · rw [done.credit, hcharged.creditInfo]
  · rw [done.currentPositionId, hcharged.currentPositionId]
    exact done.write.ids sound

theorem Increased.moved {position : Position} {out : Accrued} {amount : Nat}
    (increased : Increased deps env info s s' position out amount) (sound : s.Sound) :
    Moved s s'
      { charged := out.interest position, booked := out.interest position,
        borrowed := amount } := by
  have hcharged := accrue_charged increased.accrued
  refine ⟨?_, ?_, ?_, ?_, ?_⟩
  · have hdebt := increased.write.debt
    have hcredit := hcharged.credit
    simp only at hdebt ⊢
    omega
  · have hbasket := hcharged.basketCredit
    rw [increased.credit]
    simp only
    omega
  · rw [increased.pendingRevenue]
    exact hcharged.pendingRevenue
  · rw [increased.credit, hcharged.creditInfo]
  · rw [increased.currentPositionId, hcharged.currentPositionId]
    exact increased.write.ids sound

/-! ## Accrual by message -/

structure AccruedSoFar (s : State) (acc : State × Basket) (interest : Nat) : Prop where
  debt : totalDebt acc.1.positions = totalDebt s.positions + interest
  basket : acc.2.creditAsset.amount = s.basket.creditAsset.amount + interest
  creditInfo : acc.2.creditAsset.info = s.basket.creditAsset.info
  revenue : acc.2.pendingRevenue = s.basket.pendingRevenue + interest
  nextId : acc.2.currentPositionId = s.basket.currentPositionId
  sound : SoundIds s.basket.currentPositionId acc.1.positions
  each : ∀ P : Asset → Prop, EachPosition (Holding P) s.positions →
    EachPosition (Holding P) acc.1.positions

theorem accruePosition_soFar {acc acc' : State × Basket} {id interest : Nat}
    (before : AccruedSoFar s acc interest)
    (done : accruePosition deps env info owner acc id = .ok acc') :
    ∃ interest', AccruedSoFar s acc' interest' := by
  obtain ⟨position, out, haccrue, hwrite, hbasket⟩ := accruePosition_spec before.sound done
  have hcharged := accrue_charged haccrue
  have hdebt := hwrite.debt
  have hcredit := hcharged.credit
  refine ⟨interest + out.interest position, ?_, ?_, ?_, ?_, ?_, ?_, ?_⟩
  · have := before.debt
    omega
  · rw [hbasket, hcharged.basketCredit, before.basket]
    omega
  · rw [hbasket, hcharged.creditInfo, before.creditInfo]
  · rw [hbasket, hcharged.pendingRevenue, before.revenue]
    omega
  · rw [hbasket, hcharged.currentPositionId, before.nextId]
  · exact hwrite.ids before.sound
  · intro P each
    have hold := before.each P each
    obtain ⟨list, i, stored, found, -⟩ := hwrite.written
    exact hwrite.each ((hold.at stored found).congr hcharged.held) hold

theorem externalAccrueCall_moved {positionOwner : Option String} {positionIds : List Nat}
    {response : Response OutMsg} (sound : s.Sound)
    (done : externalAccrueCall deps env info positionOwner positionIds s = .ok (s', response)) :
    response = {} ∧
      (∀ P : Asset → Prop, EachPosition (Holding P) s.positions →
        EachPosition (Holding P) s'.positions) ∧
      ∃ interest, Moved s s' { charged := interest, booked := interest } := by
  simp only [externalAccrueCall, bind_eq_ok, pure_eq_ok, liftStd_eq_ok, Prod.mk.injEq] at done
  obtain ⟨owner, _, ⟨last, basket⟩, hfold, rfl, rfl⟩ := done
  have hstart : ∃ interest, AccruedSoFar s (s, s.basket) interest :=
    ⟨0, rfl, rfl, rfl, rfl, rfl, sound, fun _ h => h⟩
  obtain ⟨interest, hlast⟩ := foldlM_keeps (fun acc => ∃ interest, AccruedSoFar s acc interest)
    (fun _ _ _ hinv hstep => hinv.elim fun _ before => accruePosition_soFar before hstep) _ _ _
    hstart hfold
  refine ⟨rfl, hlast.each, interest, ?_, hlast.basket, hlast.revenue, hlast.creditInfo, ?_⟩
  · simpa using hlast.debt
  · rw [hlast.nextId]
    exact hlast.sound

end

end Membrane.Cdp
