import Membrane.Cdp.Debt

/-!
# The debt token in a response

How much of a denomination the messages of a response mint and burn.
-/

namespace Membrane.Cdp

open Outcome

def mintedBy (denom : String) : CosmosMsg OutMsg → Nat
  | .execute _ (.mintTokens denom' amount _) _ => if denom' = denom then amount else 0
  | _ => 0

def burnedBy (denom : String) : CosmosMsg OutMsg → Nat
  | .execute _ (.burnTokens denom' amount _) _ => if denom' = denom then amount else 0
  | _ => 0

/-- What a response mints of a denomination. -/
def minted (denom : String) (response : Response OutMsg) : Nat :=
  (response.messages.map fun sub => mintedBy denom sub.msg).sum

/-- What a response burns of a denomination. -/
def burned (denom : String) (response : Response OutMsg) : Nat :=
  (response.messages.map fun sub => burnedBy denom sub.msg).sum

@[simp]
theorem minted_addMessages (denom : String) (msgs : List (CosmosMsg OutMsg)) :
    minted denom (Response.addMessages {} msgs) = (msgs.map (mintedBy denom)).sum := by
  simp [minted, Response.addMessages, SubMsg.new, Function.comp_def]

@[simp]
theorem burned_addMessages (denom : String) (msgs : List (CosmosMsg OutMsg)) :
    burned denom (Response.addMessages {} msgs) = (msgs.map (burnedBy denom)).sum := by
  simp [burned, Response.addMessages, SubMsg.new, Function.comp_def]

def Inert (msgs : List (CosmosMsg OutMsg)) : Prop :=
  ∀ msg ∈ msgs, ∀ denom, mintedBy denom msg = 0 ∧ burnedBy denom msg = 0

namespace Inert

variable {msgs msgs' : List (CosmosMsg OutMsg)}

theorem minted (inert : Inert msgs) (denom : String) : (msgs.map (mintedBy denom)).sum = 0 :=
  List.sum_eq_zero fun _ hmem => by
    obtain ⟨msg, hmsg, rfl⟩ := List.mem_map.mp hmem
    exact (inert msg hmsg denom).1

theorem burned (inert : Inert msgs) (denom : String) : (msgs.map (burnedBy denom)).sum = 0 :=
  List.sum_eq_zero fun _ hmem => by
    obtain ⟨msg, hmsg, rfl⟩ := List.mem_map.mp hmem
    exact (inert msg hmsg denom).2

theorem nil : Inert [] := by simp [Inert]

theorem append (inert : Inert msgs) (inert' : Inert msgs') : Inert (msgs ++ msgs') := by
  intro msg hmsg
  rcases List.mem_append.mp hmsg with h | h
  · exact inert msg h
  · exact inert' msg h

theorem bankSend (recipient : Addr) (coins : List Coin) :
    Inert [.bankSend recipient coins] := by simp [Inert, mintedBy, burnedBy]

end Inert

theorem withdrawalMsg_inert {asset : Asset} {recipient : Addr} {msg : CosmosMsg OutMsg}
    (done : withdrawalMsg asset recipient = .ok msg) : Inert [msg] := by
  unfold withdrawalMsg at done
  split at done
  · obtain rfl := Except.ok.inj done
    exact .bankSend _ _
  · simp at done

theorem excessMsg_inert {basket : Basket} {excess : Nat} {recipient : Addr}
    {msgs : List (CosmosMsg OutMsg)} (done : excessMsg basket excess recipient = .ok msgs) :
    Inert msgs := by
  unfold excessMsg at done
  split at done
  · obtain rfl := pure_eq_ok.mp done
    exact .nil
  · simp only [bind_eq_ok, pure_eq_ok] at done
    obtain ⟨msg, hmsg, rfl⟩ := done
    exact withdrawalMsg_inert hmsg

theorem revenueMsg_inert (config : Config) (denom : String) (amount : Nat) :
    Inert (revenueMsg config denom amount) := by
  unfold revenueMsg
  split
  · split
    · exact .nil
    · simp [Inert, mintedBy, burnedBy]
  · exact .nil

theorem burnMsg_amounts (proxy : Addr) (env : Env) (denom : String) (amount : Nat) :
    ((burnMsg proxy env denom amount).map (burnedBy denom)).sum = amount ∧
      ∀ denom', ((burnMsg proxy env denom amount).map (mintedBy denom')).sum = 0 := by
  unfold burnMsg
  split
  case isTrue h => simp [h]
  case isFalse => simp [burnedBy, mintedBy]

theorem creditBurnRevMsg_spec {config : Config} {env : Env} {asset : Asset}
    {basket basket' : Basket}
    {msgs : List (CosmosMsg OutMsg)} (done : creditBurnRevMsg config env asset basket =
      .ok (msgs, basket')) :
    ∃ paid, basket' = { basket with pendingRevenue := basket.pendingRevenue - paid } ∧
      paid ≤ basket.pendingRevenue ∧
      (∀ denom, (msgs.map (mintedBy denom)).sum = 0) ∧
      (msgs.map (burnedBy asset.info.toText)).sum + paid = asset.amount := by
  simp only [creditBurnRevMsg, bind_eq_ok, subUint_eq_ok] at done
  obtain ⟨burnAmount, ⟨hle, rfl⟩, pendingRevenue, ⟨hrev, rfl⟩, hrest⟩ := done
  split at hrest
  case h_1 => simp at hrest
  case h_2 denom hinfo =>
    split at hrest
    case h_1 => simp at hrest
    case h_2 proxy _ =>
      obtain ⟨rfl, rfl⟩ := Prod.mk.inj (pure_eq_ok.mp hrest)
      have htext : asset.info.toText = denom := by rw [hinfo]; rfl
      obtain ⟨hburn, hmint⟩ := burnMsg_amounts proxy env denom
        (asset.amount - revenueShare basket asset.amount)
      have hrevenue := revenueMsg_inert config denom (revenueShare basket asset.amount)
      refine ⟨revenueShare basket asset.amount, rfl, hrev, ?_, ?_⟩
      · intro denom'
        rw [List.map_append, List.sum_append, hmint, hrevenue.minted]
      · rw [htext, List.map_append, List.sum_append, hburn, hrevenue.burned]
        omega

end Membrane.Cdp
