import Membrane.Cdp.Positions

/-!
# What opting in writes

Every path through `edit_redemption_info` writes the opt-in map and nothing else.
-/

namespace Membrane.Cdp

open Outcome

def OnlyOptIn (s s' : State) : Prop := ∃ optIn, s' = { s with redemptionOptIn := optIn }

theorem OnlyOptIn.refl (s : State) : OnlyOptIn s s := ⟨s.redemptionOptIn, rfl⟩

theorem OnlyOptIn.trans {s₁ s₂ s₃ : State} (h : OnlyOptIn s₁ s₂) (h' : OnlyOptIn s₂ s₃) :
    OnlyOptIn s₁ s₃ := by
  obtain ⟨optIn, rfl⟩ := h
  obtain ⟨optIn', rfl⟩ := h'
  exact ⟨optIn', rfl⟩

theorem OnlyOptIn.insert {s s' : State} (h : OnlyOptIn s s') (premium : Nat)
    (users : List RedemptionInfo) :
    OnlyOptIn s { s' with redemptionOptIn := s'.redemptionOptIn.insert premium users } := by
  obtain ⟨optIn, rfl⟩ := h
  exact ⟨optIn.insert premium users, rfl⟩

theorem addRedemptions_onlyOptIn {s s' : State} {sender : Addr} {edit : RedemptionEdit}
    {premium : Nat} {positionIds positionIds' : List Nat}
    (done : addRedemptions s sender edit premium positionIds = .ok (s', positionIds')) :
    OnlyOptIn s s' := by
  unfold addRedemptions at done
  dsimp only at done
  split at done
  case h_1 =>
    simp only [bind_eq_ok, pure_eq_ok, Prod.mk.injEq] at done
    obtain ⟨_, _, users, _, rfl, -⟩ := done
    exact (OnlyOptIn.refl s).insert premium users
  case h_2 =>
    simp only [bind_eq_ok, pure_eq_ok, Prod.mk.injEq] at done
    obtain ⟨_, _, rfl, -⟩ := done
    exact (OnlyOptIn.refl s).insert premium _

theorem dropEntry_onlyOptIn {premium userIndex index : Nat} {loop loop' : RedemptionEditLoop}
    {stop : Bool} (done : dropEntry premium userIndex index loop = .ok (loop', stop)) :
    OnlyOptIn loop.s loop'.s := by
  simp only [dropEntry, bind_eq_ok] at done
  obtain ⟨infos, _, hrest⟩ := done
  split at hrest
  case isTrue =>
    simp only [bind_eq_ok, pure_eq_ok, Prod.mk.injEq] at hrest
    obtain ⟨users, _, rfl, -⟩ := hrest
    exact (OnlyOptIn.refl loop.s).insert premium users
  case isFalse =>
    obtain ⟨rfl, -⟩ := Prod.mk.inj (pure_eq_ok.mp hrest)
    exact .refl loop.s

theorem changeEntry_state {index : Nat} {change : PositionRedemption → PositionRedemption}
    {loop loop' : RedemptionEditLoop} (done : changeEntry index change loop = .ok loop') :
    loop'.s = loop.s := by
  simp only [changeEntry, bind_eq_ok, pure_eq_ok] at done
  obtain ⟨_, _, _, _, rfl⟩ := done
  rfl

theorem editEntry_onlyOptIn {sender : Addr} {edit : RedemptionEdit}
    {premium userIndex index id : Nat}
    {loop loop' : RedemptionEditLoop} {stop : Bool}
    (done : editEntry sender edit premium userIndex index id loop = .ok (loop', stop)) :
    OnlyOptIn loop.s loop'.s := by
  simp only [editEntry, bind_eq_ok] at done
  obtain ⟨⟨loop₁, stop₁⟩, hdrop, hrest⟩ := done
  have h₁ : OnlyOptIn loop.s loop₁.s := by
    split at hdrop
    · exact dropEntry_onlyOptIn hdrop
    · obtain ⟨rfl, -⟩ := Prod.mk.inj (pure_eq_ok.mp hdrop)
      exact .refl _
  split at hrest
  · obtain ⟨rfl, -⟩ := Prod.mk.inj (pure_eq_ok.mp hrest)
    exact h₁
  simp only [bind_eq_ok] at hrest
  obtain ⟨loop₂, hmax, ⟨loop₃, stop₃⟩, hpremium, hrest⟩ := hrest
  have h₂ : loop₂.s = loop₁.s := by
    split at hmax
    · obtain rfl := pure_eq_ok.mp hmax
      rfl
    · simp only [bind_eq_ok] at hmax
      obtain ⟨_, _, _, _, hchange⟩ := hmax
      exact changeEntry_state hchange
  have h₃ : OnlyOptIn loop₂.s loop₃.s := by
    split at hpremium
    · obtain ⟨rfl, -⟩ := Prod.mk.inj (pure_eq_ok.mp hpremium)
      exact .refl _
    · split at hpremium
      · exact dropEntry_onlyOptIn hpremium
      · obtain ⟨rfl, -⟩ := Prod.mk.inj (pure_eq_ok.mp hpremium)
        exact .refl _
  have h : OnlyOptIn loop.s loop₃.s := h₁.trans (h₂ ▸ h₃)
  split at hrest
  · obtain ⟨rfl, -⟩ := Prod.mk.inj (pure_eq_ok.mp hrest)
    exact h
  simp only [bind_eq_ok, pure_eq_ok, Prod.mk.injEq] at hrest
  obtain ⟨loop₄, hrestrict, users, _, rfl, -⟩ := hrest
  have h₄ : loop₄.s = loop₃.s := by
    split at hrestrict
    · obtain rfl := pure_eq_ok.mp hrestrict
      rfl
    · simp only [bind_eq_ok] at hrestrict
      obtain ⟨_, _, hchange⟩ := hrestrict
      exact changeEntry_state hchange
  exact (h₄ ▸ h).insert premium users

theorem editEntries_onlyOptIn {sender : Addr} {edit : RedemptionEdit} {premium userIndex : Nat} :
    ∀ (ids : List Nat) (loop loop' : RedemptionEditLoop),
      editEntries sender edit premium userIndex ids loop = .ok loop' →
        OnlyOptIn loop.s loop'.s := by
  intro ids
  induction ids with
  | nil =>
    intro loop loop' done
    obtain rfl := pure_eq_ok.mp done
    exact .refl _
  | cons id rest ih =>
    intro loop loop' done
    unfold editEntries at done
    split at done
    case h_1 => exact ih loop loop' done
    case h_2 =>
      simp only [bind_eq_ok] at done
      obtain ⟨⟨mid, stop⟩, hentry, hrest⟩ := done
      have h := editEntry_onlyOptIn hentry
      split at hrest
      · obtain rfl := pure_eq_ok.mp hrest
        exact h
      · exact h.trans (ih mid loop' hrest)

theorem editPremium_onlyOptIn {sender : Addr} {edit : RedemptionEdit} {acc acc' : State × List Nat}
    {premium : Nat} (done : editPremium sender edit acc premium = .ok acc') :
    OnlyOptIn acc.1 acc'.1 := by
  unfold editPremium at done
  dsimp only at done
  split at done
  · obtain rfl := pure_eq_ok.mp done
    exact .refl _
  split at done
  · obtain rfl := pure_eq_ok.mp done
    exact .refl _
  · simp only [bind_eq_ok, pure_eq_ok] at done
    obtain ⟨loop, hentries, rfl⟩ := done
    exact editEntries_onlyOptIn _ _ _ hentries

theorem editRedemptionInfo_onlyOptIn {s s' : State} {sender : Addr} {positionIds : List Nat}
    {edit : RedemptionEdit} {calledByContract : Bool}
    (done : editRedemptionInfo s sender positionIds edit calledByContract = .ok s') :
    OnlyOptIn s s' := by
  simp only [editRedemptionInfo, bind_eq_ok, pure_eq_ok] at done
  obtain ⟨_, _, ⟨mid, ids⟩, hadd, ⟨last, _⟩, hedit, rfl⟩ := done
  have hmid : OnlyOptIn s mid := by
    split at hadd
    · obtain ⟨rfl, -⟩ := Prod.mk.inj (pure_eq_ok.mp hadd)
      exact .refl _
    split at hadd
    · exact addRedemptions_onlyOptIn hadd
    · simp only [bind_eq_ok, pure_eq_ok, Prod.mk.injEq] at hadd
      obtain ⟨_, _, rfl, -⟩ := hadd
      exact .refl _
  exact foldlM_keeps (fun acc : State × List Nat => OnlyOptIn s acc.1)
    (fun _ _ _ hinv hstep => hinv.trans (editPremium_onlyOptIn hstep)) _ _ _ hmid hedit

theorem forceRedemption_onlyOptIn {setRedemption : Bool} {info : MessageInfo} {positionId : Nat}
    {s s' : State} (done : forceRedemption setRedemption info positionId s = .ok s') :
    OnlyOptIn s s' := by
  unfold forceRedemption at done
  split at done
  · exact editRedemptionInfo_onlyOptIn done
  · obtain rfl := pure_eq_ok.mp done
    exact .refl _

end Membrane.Cdp
