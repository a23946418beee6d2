import Membrane.Lib.Outcome
import Membrane.Proxy.Swaps

/-!
# Routes that connect

A route is a path through the stored hops, from the token that is sent to the one that is
asked for. The loop looks for the next hop of the token it started with, so that it takes the
first hop again: only routes of one hop are paths.
-/

namespace Membrane.Proxy

open Outcome

/-- The hops lead through stored routes from one token to another. -/
inductive Connected (swapRoutes : List SwapRoute) : String → String → List SwapAmountInRoute → Prop
  | last {route : SwapRoute} (stored : route ∈ swapRoutes) :
      Connected swapRoutes route.tokenIn route.routeOut.tokenOutDenom [route.routeOut]
  | hop {route : SwapRoute} {tokenOut : String} {hops : List SwapAmountInRoute}
      (stored : route ∈ swapRoutes)
      (rest : Connected swapRoutes route.routeOut.tokenOutDenom tokenOut hops) :
      Connected swapRoutes route.tokenIn tokenOut (route.routeOut :: hops)

/-- The hops are a path: they connect the tokens, and none is repeated. -/
structure IsPath (swapRoutes : List SwapRoute) (tokenIn tokenOut : String)
    (hops : List SwapAmountInRoute) : Prop where
  connected : Connected swapRoutes tokenIn tokenOut hops
  simple : hops.Nodup

/-- The stored route of a token, the first one, leads to the other token. -/
def LeadsTo (swapRoutes : List SwapRoute) (tokenIn tokenOut : String) : Prop :=
  ∃ route, findRoute swapRoutes tokenIn = some route ∧ route.routeOut.tokenOutDenom = tokenOut

instance (swapRoutes : List SwapRoute) (tokenIn tokenOut : String) :
    Decidable (LeadsTo swapRoutes tokenIn tokenOut) :=
  decidable_of_iff (∃ route ∈ (findRoute swapRoutes tokenIn).toList,
      route.routeOut.tokenOutDenom = tokenOut) (by simp only [LeadsTo, Option.mem_toList])

section

variable {swapRoutes : List SwapRoute} {tokenIn tokenOut : String} {hops : List SwapAmountInRoute}

theorem findRoute_spec {route : SwapRoute} (found : findRoute swapRoutes tokenIn = some route) :
    route ∈ swapRoutes ∧ route.tokenIn = tokenIn :=
  ⟨List.mem_of_find?_eq_some found, by simpa using List.find?_some found⟩

theorem swapLoop_prefix {iterations : Nat} {routes : List SwapAmountInRoute} {last : String}
    (done : swapLoop swapRoutes tokenOut iterations tokenIn routes = .ok (last, hops)) :
    routes <+: hops := by
  induction iterations generalizing tokenIn routes with
  | zero =>
    obtain ⟨-, rfl⟩ := Prod.mk.inj (pure_eq_ok.mp done)
    exact List.prefix_rfl
  | succ iterations ih =>
    unfold swapLoop at done
    split at done
    case isTrue =>
      obtain ⟨-, rfl⟩ := Prod.mk.inj (pure_eq_ok.mp done)
      exact List.prefix_rfl
    case isFalse =>
      obtain ⟨route, -, hrest⟩ := bind_eq_ok.mp done
      exact (List.prefix_append routes [route.routeOut]).trans (ih hrest)

theorem swapLoop_repeats {iterations : Nat} {route : SwapRoute} {last : String}
    (found : findRoute swapRoutes tokenIn = some route)
    (further : route.routeOut.tokenOutDenom ≠ tokenOut)
    (done : swapLoop swapRoutes tokenOut (iterations + 1) tokenIn [route.routeOut] =
      .ok (last, hops)) : [route.routeOut, route.routeOut] <+: hops := by
  unfold swapLoop at done
  rw [if_neg (by simpa [lastTokenOut] using further)] at done
  simp only [found, bind_eq_ok, ofOption_eq_ok, Option.some.injEq] at done
  obtain ⟨_, rfl, hrest⟩ := done
  exact swapLoop_prefix hrest

/-- A route that is found is a path exactly where the first hop leads to the token that is
    asked for. -/
theorem isPath_iff (done : getSwapRoute swapRoutes tokenIn tokenOut = .ok hops) :
    IsPath swapRoutes tokenIn tokenOut hops ↔ LeadsTo swapRoutes tokenIn tokenOut := by
  simp only [getSwapRoute, bind_eq_ok, ofOption_eq_ok, guardErr_eq_ok, pure_eq_ok] at done
  obtain ⟨route, hfound, ⟨last, hops'⟩, hloop, _, -, rfl⟩ := done
  obtain ⟨hstored, htoken⟩ := findRoute_spec hfound
  constructor
  · intro path
    refine ⟨route, hfound, ?_⟩
    by_contra hfurther
    -- the first hop stands twice at the front
    obtain ⟨rest, rfl⟩ := swapLoop_repeats hfound hfurther hloop
    exact (List.nodup_cons.mp path.simple).1 List.mem_cons_self
  · rintro ⟨route', hfound', hleads⟩
    obtain rfl := Option.some.inj (hfound.symm.trans hfound')
    unfold swapLoop at hloop
    rw [if_pos (by simp [lastTokenOut, hleads])] at hloop
    obtain ⟨-, rfl⟩ := Prod.mk.inj (pure_eq_ok.mp hloop)
    constructor
    · rw [← htoken, ← hleads]
      exact .last hstored
    · exact List.nodup_singleton _

end

/-! ## Examples -/

def sampleRoutes : List SwapRoute :=
  [⟨"uatom", ⟨1, "uosmo"⟩⟩, ⟨"uosmo", ⟨2, "ucdt"⟩⟩]

theorem isPath_single : getSwapRoute sampleRoutes "uatom" "uosmo" = .ok [⟨1, "uosmo"⟩] ∧
    IsPath sampleRoutes "uatom" "uosmo" [⟨1, "uosmo"⟩] := by
  have hdone : getSwapRoute sampleRoutes "uatom" "uosmo" = .ok [⟨1, "uosmo"⟩] := by decide
  exact ⟨hdone, (isPath_iff hdone).mpr (by decide)⟩

/-- Two hops are found with the first one twice. -/
theorem not_isPath :
    ¬ ∀ swapRoutes tokenIn tokenOut hops, getSwapRoute swapRoutes tokenIn tokenOut = .ok hops →
      IsPath swapRoutes tokenIn tokenOut hops := by
  intro claim
  have hdone : getSwapRoute sampleRoutes "uatom" "ucdt" =
      .ok [⟨1, "uosmo"⟩, ⟨1, "uosmo"⟩, ⟨2, "ucdt"⟩] := by decide
  exact absurd (claim _ _ _ _ hdone).simple (by decide)

end Membrane.Proxy
