import Membrane.Cdp.Governance
import Membrane.Cdp.Proofs.Store
import Membrane.Cdp.Proofs.OptIn
import Membrane.Cdp.Proofs.Supply

/-!
# What instantiation and governance write

A contract starts without positions and without revenue. Governance writes neither
positions nor debt, and sends no mint or burn; `take_revenue` is the one edit that
lowers the revenue.
-/

namespace Membrane.Cdp

open Outcome

/-- A new contract. -/
structure Fresh (s : State) (credit : Asset) : Prop where
  positions : s.positions = ∅
  creditAsset : s.basket.creditAsset = credit
  pendingRevenue : s.basket.pendingRevenue = 0

theorem instantiate_fresh {deps : Deps} {env : Env} {info : MessageInfo} {msg : InstantiateMsg}
    {s : State} {response : Response OutMsg}
    (done : instantiate deps env info msg = .ok (s, response)) :
    Fresh s msg.createBasket.creditAsset := by
  simp only [instantiate, bind_eq_ok, pure_eq_ok, liftStd_eq_ok, Prod.mk.injEq] at done
  obtain ⟨_, _, _, _, _, _, _, _, _, _, _, _, _, _, _, _, ⟨basket, _⟩, hbasket, rfl, -⟩ := done
  simp only [createBasket, bind_eq_ok, liftStd_eq_ok] at hbasket
  obtain ⟨_, _, _, _, msgs, _, hrest⟩ := hbasket
  split at hrest
  case h_1 => simp at hrest
  case h_2 =>
    obtain ⟨rfl, -⟩ := Prod.mk.inj (pure_eq_ok.mp hrest)
    exact ⟨rfl, rfl, rfl⟩

/-- A call that moves neither positions nor debt, and nothing of the supply. `taken`
    is what it takes out of the revenue. -/
structure Governed (s s' : State) (response : Response OutMsg) (taken : Nat) : Prop where
  positions : s'.positions = s.positions
  creditAsset : s'.basket.creditAsset = s.basket.creditAsset
  currentPositionId : s'.basket.currentPositionId = s.basket.currentPositionId
  pendingRevenue : s'.basket.pendingRevenue = s.basket.pendingRevenue - taken
  inert : ∀ denom, minted denom response = 0 ∧ burned denom response = 0

theorem Inert.response {msgs : List (CosmosMsg OutMsg)} (inert : Inert msgs) (denom : String) :
    Cdp.minted denom (Response.addMessages {} msgs) = 0 ∧
      Cdp.burned denom (Response.addMessages {} msgs) = 0 := by
  rw [minted_addMessages, burned_addMessages]
  exact ⟨inert.minted denom, inert.burned denom⟩

theorem updateConfig_governed {deps : Deps} {info : MessageInfo} {update : UpdateConfig}
    {s s' : State} {response : Response OutMsg}
    (done : updateConfig deps info update s = .ok (s', response)) : Governed s s' response 0 := by
  simp only [updateConfig, bind_eq_ok, pure_eq_ok, liftStd_eq_ok, Prod.mk.injEq] at done
  obtain ⟨_, _, _, _, _, _, rfl, rfl⟩ := done
  exact ⟨rfl, rfl, rfl, rfl, fun _ => ⟨rfl, rfl⟩⟩

theorem editRedemptionInfo_governed {s s' : State} {sender : Addr} {positionIds : List Nat}
    {edit : RedemptionEdit} {calledByContract : Bool}
    (done : editRedemptionInfo s sender positionIds edit calledByContract = .ok s') :
    Governed s s' {} 0 := by
  obtain ⟨optIn, rfl⟩ := editRedemptionInfo_onlyOptIn done
  exact ⟨rfl, rfl, rfl, rfl, fun _ => ⟨rfl, rfl⟩⟩

theorem editCAsset_governed {info : MessageInfo} {asset : AssetInfo}
    {maxBorrowLTV maxLTV : Option Decimal} {s s' : State} {response : Response OutMsg}
    (done : editCAsset info asset maxBorrowLTV maxLTV s = .ok (s', response)) :
    Governed s s' response 0 := by
  simp only [editCAsset, bind_eq_ok, pure_eq_ok, Prod.mk.injEq] at done
  obtain ⟨_, _, _, _, _, _, msgs, hmsgs, rfl, rfl⟩ := done
  refine ⟨rfl, rfl, rfl, rfl, Inert.response ?_⟩
  split at hmsgs
  case h_1 =>
    simp only [bind_eq_ok, pure_eq_ok, liftStd_eq_ok] at hmsgs
    obtain ⟨_, _, rfl⟩ := hmsgs
    simp [Inert, mintedBy, burnedBy]
  case h_2 =>
    obtain rfl := pure_eq_ok.mp hmsgs
    exact .nil

/-! ## The basket's parameters -/

theorem addQueueMsg_inert {queue : Addr} {asset : CAsset} {msg : CosmosMsg OutMsg}
    (done : addQueueMsg queue asset = .ok msg) : Inert [msg] := by
  simp only [addQueueMsg, bind_eq_ok, pure_eq_ok] at done
  obtain ⟨_, _, rfl⟩ := done
  simp [Inert, mintedBy, burnedBy]

theorem addPool_inert {deps : Deps} {config : Config} {basket : Basket}
    {poolInfo poolInfo' : PoolInfo}
    {share : AssetInfo} {msg : CosmosMsg OutMsg}
    (done : addPool deps config basket poolInfo = .ok (share, poolInfo', msg)) : Inert [msg] := by
  simp only [addPool, bind_eq_ok, pure_eq_ok, Prod.mk.injEq] at done
  obtain ⟨_, _, _, _, _, _, _, _, _, _, rfl⟩ := done
  simp [Inert, mintedBy, burnedBy]

theorem addCollateral_inert {deps : Deps} {config : Config} {basket : Basket} {added asset : CAsset}
    {queue : Option Addr} {msgs : List (CosmosMsg OutMsg)}
    (done : addCollateral deps config basket added queue = .ok (asset, msgs)) : Inert msgs := by
  simp only [addCollateral, bind_eq_ok, pure_eq_ok, Prod.mk.injEq] at done
  obtain ⟨_, _, _, _, _, _, ⟨_, oracleMsgs⟩, horacle, queueMsgs, hqueue, _, _, _, rfl⟩ := done
  refine Inert.append ?_ ?_
  · split at horacle
    case h_1 =>
      simp only [bind_eq_ok, pure_eq_ok, Prod.mk.injEq] at horacle
      obtain ⟨⟨_, _, _⟩, hpool, -, rfl⟩ := horacle
      exact addPool_inert hpool
    case h_2 =>
      simp only [bind_eq_ok, pure_eq_ok, Prod.mk.injEq] at horacle
      obtain ⟨_, _, -, rfl⟩ := horacle
      exact .nil
  · split at hqueue
    case h_1 =>
      simp only [bind_eq_ok, pure_eq_ok] at hqueue
      obtain ⟨_, hmsg, rfl⟩ := hqueue
      exact addQueueMsg_inert hmsg
    case h_2 =>
      obtain rfl := pure_eq_ok.mp hqueue
      exact .nil

theorem creditOracleMsg_inert (config : Config) (basket : Basket) (source : Option TWAPPoolInfo) :
    Inert (creditOracleMsg config basket source) := by
  unfold creditOracleMsg
  split
  · simp [Inert, mintedBy, burnedBy]
  · exact .nil

theorem creditPoolMsg_inert (config : Config) (basket : Basket) (infos : Option (List PoolType)) :
    Inert (creditPoolMsg config basket infos) := by
  unfold creditPoolMsg
  split
  · simp [Inert, mintedBy, burnedBy]
  · exact .nil

theorem editBasket_governed {deps : Deps} {env : Env} {info : MessageInfo} {edit : EditBasket}
    {s s' : State} {response : Response OutMsg}
    (done : editBasket deps env info edit s = .ok (s', response)) :
    Governed s s' response (edit.takeRevenue.getD 0) := by
  simp only [editBasket, bind_eq_ok, pure_eq_ok, liftStd_eq_ok, Prod.mk.injEq] at done
  obtain ⟨_, _, newQueue, _, ⟨newCAsset, msgs⟩, hadd, rfl, rfl⟩ := done
  have hbooks : SameBooks s.basket (if edit.addedCAsset.isSome then { s.basket with
      collateralSupplyCaps := s.basket.collateralSupplyCaps ++ [newSupplyCap newCAsset] }
      else s.basket) := by
    split
    · exact ⟨rfl, rfl, rfl⟩
    · exact .refl _
  have hmsgs : Inert msgs := by
    split at hadd
    · exact addCollateral_inert hadd
    · obtain ⟨-, rfl⟩ := Prod.mk.inj (pure_eq_ok.mp hadd)
      exact .nil
  refine ⟨rfl, hbooks.creditAsset, hbooks.currentPositionId, ?_, Inert.response ?_⟩
  · exact congrArg (· - edit.takeRevenue.getD 0) hbooks.pendingRevenue
  · exact (hmsgs.append (creditOracleMsg_inert _ _ _)).append (creditPoolMsg_inert _ _ _)

end Membrane.Cdp
