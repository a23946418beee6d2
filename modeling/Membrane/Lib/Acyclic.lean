import Mathlib.Data.Fintype.Card
import Mathlib.Data.Set.Finite.Basic
import Mathlib.Logic.Relation

/-!
# Graphs without cycles

A graph is given by the successors of each vertex. Where only finitely many vertices have
successors and none reaches itself, a walk along the edges ends. An edit of the successors
of one vertex makes a cycle only through that vertex.
-/

namespace Membrane

universe u

variable {α : Type u}

def Acyclic (edge : α → α → Prop) : Prop := ∀ x, ¬ Relation.TransGen edge x x

namespace Acyclic

variable {edge edge' : α → α → Prop}

theorem mono (acyclic : Acyclic edge) (fewer : ∀ x y, edge' x y → edge x y) : Acyclic edge' := by
  intro x cycle
  exact acyclic x (Relation.TransGen.mono fewer x x cycle)

theorem of_rank (rank : α → Nat) (lowers : ∀ x y, edge x y → rank y < rank x) : Acyclic edge := by
  have hreach : ∀ x y, Relation.TransGen edge x y → rank y < rank x := by
    intro x y reach
    induction reach with
    | single hedge => exact lowers _ _ hedge
    | tail _ hedge ih => exact Nat.lt_trans (lowers _ _ hedge) ih
  intro x reach
  exact Nat.lt_irrefl _ (hreach x x reach)

theorem wellFounded (acyclic : Acyclic edge) {sources : List α}
    (finite : ∀ x y, edge x y → x ∈ sources) : WellFounded fun y x => edge x y := by
  -- on the sources, reaching is a strict order of a finite type
  let below : {x // x ∈ sources} → {x // x ∈ sources} → Prop :=
    fun y x => Relation.TransGen edge x.val y.val
  have htrans : IsTrans _ below := ⟨fun z y x hzy hyx => hyx.trans hzy⟩
  have hfinite : Finite {x // x ∈ sources} := (List.finite_toSet sources).to_subtype
  have hirrefl : Std.Irrefl below := ⟨fun x => acyclic x.val⟩
  have hwf : WellFounded below := Finite.wellFounded_of_trans_of_irrefl below
  have hsource : ∀ x : {x // x ∈ sources}, Acc (fun y x => edge x y) x.val := by
    intro x
    induction x using hwf.induction with
    | _ x ih =>
      refine ⟨_, fun y hedge => ?_⟩
      by_cases hy : y ∈ sources
      · exact ih ⟨y, hy⟩ (.single hedge)
      · exact ⟨_, fun z hz => absurd (finite y z hz) hy⟩
  refine ⟨fun x => ?_⟩
  by_cases hx : x ∈ sources
  · exact hsource ⟨x, hx⟩
  · exact ⟨_, fun y hedge => absurd (finite x y hedge) hx⟩

private theorem walk_edited {vertex : α} (others : ∀ x y, x ≠ vertex → edge' x y → edge x y)
    {x y : α} (walk : Relation.TransGen edge' x y) :
    Relation.TransGen edge x y ∨
      Relation.ReflTransGen edge' x vertex ∧ Relation.TransGen edge' vertex y := by
  induction walk with
  | @single y hedge =>
    by_cases hx : x = vertex
    · subst hx
      exact .inr ⟨.refl, .single hedge⟩
    · exact .inl (.single (others x y hx hedge))
  | @tail mid y before hedge ih =>
    by_cases hmid : mid = vertex
    · subst hmid
      exact .inr ⟨before.to_reflTransGen, .single hedge⟩
    · rcases ih with hwalk | ⟨hto, hfrom⟩
      · exact .inl (hwalk.tail (others mid y hmid hedge))
      · exact .inr ⟨hto, hfrom.tail hedge⟩

theorem edit (acyclic : Acyclic edge) {vertex : α}
    (others : ∀ x y, x ≠ vertex → edge' x y → edge x y)
    (edited : ¬ Relation.TransGen edge' vertex vertex) : Acyclic edge' := by
  intro x cycle
  rcases walk_edited others cycle with hwalk | ⟨hto, hfrom⟩
  · exact acyclic x hwalk
  · exact edited (Relation.TransGen.trans_left hfrom hto)

end Acyclic

end Membrane
