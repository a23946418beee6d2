import Mathlib.Algebra.Order.BigOperators.Group.List
import Membrane.Lib.ListEdit
import Membrane.StabilityPool.Proofs.Underflow

/-!
# What users can claim

Collateral reaches the claims of users by distributions only, which split what they are given among
the users, and leaves them by the users' own claims. So over every run what users can still claim
of a collateral, and what they were sent of it, is within what was distributed of it.
-/

namespace Membrane.StabilityPool

open Outcome

/-! ## Coins -/

def coinsOf (denom : String) (coins : List Coin) : Nat :=
  (coins.map fun coin => if coin.denom = denom then coin.amount else 0).sum

def assetsOf (denom : String) (assets : List Asset) : Nat :=
  (assets.map fun asset => if asset.info.toText = denom then asset.amount else 0).sum

/-- What all users can claim of a denom. -/
def claimable (denom : String) (users : KeyMap Addr (List Coin)) : Nat :=
  KeyMap.total (coinsOf denom) users

/-- What one user can claim of a denom. -/
def claimOf (denom : String) (users : KeyMap Addr (List Coin)) (user : Addr) : Nat :=
  KeyMap.measureAt (coinsOf denom) users user

section Coins

variable {denom : String} {coin : Coin} {users users' : KeyMap Addr (List Coin)} {user : Addr}

theorem coinsOf_addCoin : ∀ {coins coins' : List Coin}, addCoin coin coins = .ok coins' →
    coinsOf denom coins' = coinsOf denom coins + if coin.denom = denom then coin.amount else 0 := by
  intro coins
  induction coins with
  | nil =>
    intro coins' done
    obtain rfl := pure_eq_ok.mp done
    simp [coinsOf]
  | cons head rest ih =>
    intro coins' done
    unfold addCoin at done
    split at done
    case isTrue same =>
      split at done
      case isTrue =>
        obtain rfl := pure_eq_ok.mp done
        simp only [coinsOf, List.map_cons, List.sum_cons, same]
        split
        · omega
        · rfl
      case isFalse => cases done
    case isFalse =>
      split at done
      case isTrue =>
        obtain rfl := pure_eq_ok.mp done
        simp only [coinsOf, List.map_cons, List.sum_cons]
        omega
      case isFalse =>
        obtain ⟨rest', hrest, htail⟩ := bind_eq_ok.mp done
        obtain rfl := pure_eq_ok.mp htail
        have htail := ih hrest
        simp only [coinsOf, List.map_cons, List.sum_cons] at htail ⊢
        omega

theorem claimable_addClaim (done : addClaim user coin users = .ok users') :
    claimable denom users' =
      claimable denom users + if coin.denom = denom then coin.amount else 0 := by
  obtain ⟨claims, hclaims, hstore⟩ := bind_eq_ok.mp done
  obtain rfl := pure_eq_ok.mp hstore
  have hcoins : coinsOf denom claims = _ := coinsOf_addCoin hclaims
  have htotal := KeyMap.total_insert (coinsOf denom) users user claims
  have hbefore : KeyMap.measureAt (coinsOf denom) users user =
      coinsOf denom ((users.lookup user).getD []) := by
    unfold KeyMap.measureAt
    cases users.lookup user <;> rfl
  unfold claimable
  omega

theorem claimOf_addClaim (done : addClaim user coin users = .ok users') (other : Addr) :
    claimOf denom users other ≤ claimOf denom users' other := by
  obtain ⟨claims, hclaims, hstore⟩ := bind_eq_ok.mp done
  obtain rfl := pure_eq_ok.mp hstore
  unfold claimOf
  rw [KeyMap.measureAt_insert]
  split
  case isTrue same =>
    have hcoins : coinsOf denom claims = _ := coinsOf_addCoin hclaims
    rw [same, hcoins]
    refine Nat.le_trans ?_ (Nat.le_add_right _ _)
    unfold KeyMap.measureAt
    cases users.lookup user with
    | none => exact Nat.zero_le _
    | some claims => exact Nat.le_refl _
  case isFalse => exact Nat.le_refl _

end Coins

/-! ## Credits -/

/-- A change of the claims that credits at most an amount of a denom, and takes from nobody. -/
structure Credits (denom : String) (amount : Nat) (users users' : KeyMap Addr (List Coin)) :
    Prop where
  total : claimable denom users' ≤ claimable denom users + amount
  kept : ∀ user, claimOf denom users user ≤ claimOf denom users' user

namespace Credits

variable {denom : String} {amount amount' : Nat} {users mid users' : KeyMap Addr (List Coin)}

theorem refl (denom : String) (users : KeyMap Addr (List Coin)) : Credits denom 0 users users :=
  ⟨Nat.le_refl _, fun _ => Nat.le_refl _⟩

theorem trans (first : Credits denom amount users mid) (second : Credits denom amount' mid users') :
    Credits denom (amount + amount') users users' := by
  refine ⟨?_, fun user => Nat.le_trans (first.kept user) (second.kept user)⟩
  have hfirst := first.total
  have hsecond := second.total
  omega

theorem of_other {user : Addr} {coin : Coin} (other : coin.denom ≠ denom)
    (done : addClaim user coin users = .ok users') : Credits denom 0 users users' := by
  refine ⟨?_, fun user => claimOf_addClaim done user⟩
  rw [claimable_addClaim done, if_neg other]

theorem added {user : Addr} {asset : AssetInfo} {amount : Nat}
    (done : addToUserClaims user asset amount users = .ok users') :
    Credits denom (if asset.toText = denom then amount else 0) users users' := by
  unfold addToUserClaims at done
  split at done
  case isTrue hzero =>
    obtain rfl := pure_eq_ok.mp done
    rw [hzero, ite_self]
    exact .refl denom users
  case isFalse => exact ⟨(claimable_addClaim done).le, fun user => claimOf_addClaim done user⟩

end Credits

theorem Credits.incentives {denom mbrnDenom : String} {user : Addr} {amount : Nat}
    {users users' : KeyMap Addr (List Coin)} (other : mbrnDenom ≠ denom)
    (done : addToUserClaims user (.nativeToken mbrnDenom) amount users = .ok users') :
    Credits denom 0 users users' := by
  have hcredits : Credits denom _ users users' := Credits.added done
  rwa [AssetInfo.toText, if_neg other] at hcredits

/-! ## Splitting -/

section Splitting

variable {denom : String} {user : Addr}

/-- A part of the assets is credited, and the rest is left to split. -/
structure Splits (denom : String) (split split' : Split) : Prop where
  total : claimable denom split'.users + assetsOf denom split'.assets ≤
    claimable denom split.users + assetsOf denom split.assets
  kept : ∀ user, claimOf denom split.users user ≤ claimOf denom split'.users user

theorem Splits.refl (denom : String) (split : Split) : Splits denom split split :=
  ⟨Nat.le_refl _, fun _ => Nat.le_refl _⟩

theorem Splits.trans {split mid split' : Split} (first : Splits denom split mid)
    (second : Splits denom mid split') : Splits denom split split' :=
  ⟨Nat.le_trans second.total first.total,
    fun user => Nat.le_trans (first.kept user) (second.kept user)⟩

theorem send_splits {split split' : Split} {index amount left : Nat} {ratio : Decimal}
    {asset : Asset} (found : split.assets[index]? = some asset)
    (within : amount + left ≤ asset.amount)
    (done : split.send user index amount left ratio = .ok split') : Splits denom split split' := by
  simp only [Split.send, bind_eq_ok, index_eq_ok] at done
  obtain ⟨stored, hstored, users, hclaims, hsplit⟩ := done
  obtain rfl := pure_eq_ok.mp hsplit
  obtain rfl : stored = asset := Option.some.inj (hstored.symm.trans found)
  have hcredits :
      Credits denom (if stored.info.toText = denom then amount else 0) split.users users :=
    .added hclaims
  refine ⟨?_, hcredits.kept⟩
  have htotal := hcredits.total
  have hset := ListEdit.sum_set
    (fun asset : Asset => if asset.info.toText = denom then asset.amount else 0)
    { stored with amount := left } found
  show claimable denom users +
    assetsOf denom (split.assets.set index { stored with amount := left }) ≤ _
  unfold assetsOf
  split at htotal
  case isTrue same =>
    simp only [if_pos same] at hset
    omega
  case isFalse other =>
    simp only [if_neg other] at hset
    omega

theorem splitToUser_splits : ∀ {ratios : List Decimal} {index : Nat} {ratio : Decimal}
    {split split' : Split}, splitToUser user ratios index ratio split = .ok split' →
    Splits denom split split' := by
  intro ratios
  induction ratios with
  | nil =>
    intro index ratio split split' done
    obtain rfl := pure_eq_ok.mp done
    exact .refl denom split
  | cons cAssetRatio rest ih =>
    intro index ratio split split' done
    unfold splitToUser at done
    split at done
    case isTrue => exact ih done
    case isFalse =>
      simp only [bind_eq_ok, index_eq_ok] at done
      obtain ⟨asset, hfound, done⟩ := done
      split at done
      case isTrue => exact send_splits hfound (Nat.le_refl _) done
      case isFalse =>
        split at done
        case isTrue =>
          -- a part of the asset's ratio is the user's
          simp only [bind_eq_ok, subUint_eq_ok] at done
          obtain ⟨_, -, _, -, _, -, sendAmount, -, left, ⟨hle, rfl⟩, _, -, hsend⟩ := done
          exact send_splits hfound (Nat.add_sub_cancel' hle).le hsend
        case isFalse =>
          simp only [bind_eq_ok] at done
          obtain ⟨mid, hsend, _, -, hrest⟩ := done
          exact (send_splits hfound (Nat.le_refl _) hsend).trans (ih hrest)

theorem splitAssetsToUsers_credits {ratios : List Decimal} {assets : List Asset}
    {shares : List UserRatio} {users users' : KeyMap Addr (List Coin)}
    (done : splitAssetsToUsers ratios assets shares users = .ok users') :
    Credits denom (assetsOf denom assets) users users' := by
  simp only [splitAssetsToUsers, bind_eq_ok] at done
  obtain ⟨split, hloop, husers⟩ := done
  obtain rfl := pure_eq_ok.mp husers
  have hsplits : Splits denom ⟨ratios, assets, users⟩ split := by
    refine foldlM_keeps (fun mid => Splits denom ⟨ratios, assets, users⟩ mid) ?_ _ _ _
      (.refl denom _) hloop
    intro mid share next hmid hround
    exact hmid.trans (splitToUser_splits hround)
  exact ⟨Nat.le_trans (Nat.le_add_right _ _) hsplits.total, hsplits.kept⟩

end Splitting

/-! ## Handlers -/

section Handlers

variable {denom : String} {blockTime : Nat} {s s' : State} {info : MessageInfo}
  {addrValid : String → Bool} {msgs : List (CosmosMsg OutMsg)}

theorem withdrawalFromState_credits {user : Addr} {asked : Decimal} {skipUnstaking : Bool}
    {withdrawable : Nat} (other : s.config.mbrnDenom ≠ denom)
    (done : withdrawalFromState blockTime user asked skipUnstaking s = .ok (withdrawable, s')) :
    Credits denom 0 s.users s'.users := by
  simp only [withdrawalFromState, bind_eq_ok] at done
  obtain ⟨result, -, _, -, amount, -, hrest⟩ := done
  split at hrest
  case h_1 => cases hrest
  case h_2 =>
    obtain ⟨users, hclaims, hstate⟩ := bind_eq_ok.mp hrest
    cases pure_eq_ok.mp hstate
    unfold claimIncentives at hclaims
    split at hclaims
    case isTrue =>
      obtain rfl := pure_eq_ok.mp hclaims
      exact .refl denom _
    case isFalse =>
      simp only [bind_eq_ok, liftStd_eq_ok] at hclaims
      obtain ⟨_, -, hadd⟩ := hclaims
      exact .of_other other hadd

theorem withdraw_credits {amount : Nat} (other : s.config.mbrnDenom ≠ denom)
    (done : withdraw blockTime info amount s = .ok (s', msgs)) :
    Credits denom 0 s.users s'.users := by
  simp only [withdraw, bind_eq_ok] at done
  obtain ⟨_, -, _, -, _, -, ⟨withdrawable, left⟩, htake, _, -, _, -, _, -, hrest⟩ := done
  have hcredits := withdrawalFromState_credits other htake
  split at hrest
  case isTrue =>
    cases pure_eq_ok.mp hrest
    exact hcredits
  case isFalse =>
    obtain ⟨_, -, hstate⟩ := bind_eq_ok.mp hrest
    cases pure_eq_ok.mp hstate
    exact hcredits

theorem repay_credits {userInfo : UserInfo} {repayment : Asset}
    (other : s.config.mbrnDenom ≠ denom)
    (done : repay addrValid blockTime info userInfo repayment s = .ok (s', msgs)) :
    Credits denom 0 s.users s'.users := by
  simp only [repay, bind_eq_ok] at done
  obtain ⟨_, -, _, -, _, -, _, -, _, -, _, -, _, -, ⟨withdrawable, left⟩, htake, _, -, hstate⟩ :=
    done
  cases pure_eq_ok.mp hstate
  exact withdrawalFromState_credits other htake

theorem restake_credits {restakeAmount : Decimal} (other : s.config.mbrnDenom ≠ denom)
    (done : restake blockTime info restakeAmount s = .ok (s', msgs)) :
    Credits denom 0 s.users s'.users := by
  simp only [restake, bind_eq_ok] at done
  obtain ⟨result, -, hrest⟩ := done
  split at hrest
  case h_1 => cases hrest
  case h_2 =>
    obtain ⟨users, hclaims, hstate⟩ := bind_eq_ok.mp hrest
    cases pure_eq_ok.mp hstate
    split at hclaims
    case isTrue =>
      obtain rfl := pure_eq_ok.mp hclaims
      exact .refl denom _
    case isFalse => exact .of_other other (liftStd_eq_ok.mp hclaims)

theorem accrueUsed_credits {config : Config} {stake : Nat} {deposit : Deposit}
    (other : config.mbrnDenom ≠ denom)
    (done : accrueUsed blockTime config stake deposit s = .ok s') :
    Credits denom 0 s.users s'.users := by
  unfold accrueUsed at done
  split at done
  case isTrue =>
    simp only [bind_eq_ok] at done
    obtain ⟨_, -, users, hclaims, hstate⟩ := done
    obtain rfl := pure_eq_ok.mp hstate
    exact .incentives other hclaims
  case isFalse =>
    obtain rfl := pure_eq_ok.mp done
    exact .refl denom _

theorem distributionList_credits {config : Config} {repaid : Decimal}
    (other : config.mbrnDenom ≠ denom) : ∀ {deposits : List Deposit} {repayTotal : Decimal}
    {used used' : List Deposit} {s s' : State},
    distributionList blockTime config repaid deposits repayTotal used s = .ok (used', s') →
    Credits denom 0 s.users s'.users := by
  intro deposits
  induction deposits with
  | nil =>
    intro repayTotal used used' s s' done
    cases pure_eq_ok.mp done
    exact .refl denom _
  | cons deposit rest ih =>
    intro repayTotal used used' s s' done
    rw [distributionList] at done
    split at done
    case isFalse =>
      cases pure_eq_ok.mp done
      exact .refl denom _
    case isTrue =>
      obtain ⟨sum, -, hround⟩ := bind_eq_ok.mp done
      split at hround
      case isTrue =>
        simp only [bind_eq_ok] at hround
        obtain ⟨_, -, _, -, _, -, _, -, mid, haccrue, hrest⟩ := hround
        exact (accrueUsed_credits other haccrue).trans (ih hrest)
      case isFalse =>
        simp only [bind_eq_ok] at hround
        obtain ⟨_, -, mid, haccrue, hrest⟩ := hround
        exact (accrueUsed_credits other haccrue).trans (ih hrest)

theorem distributeFunds_credits {assets : List Asset} {ratios : List Decimal} {distributeFor : Nat}
    (other : s.config.mbrnDenom ≠ denom)
    (done : distributeFunds blockTime info assets ratios distributeFor s = .ok (s', msgs)) :
    Credits denom (assetsOf denom assets) s.users s'.users := by
  simp only [distributeFunds, bind_eq_ok, liftStd_eq_ok] at done
  obtain ⟨_, -, repaid, -, ⟨used, mid⟩, hlist, edited, -, shares, -, users, hsplit, hstate⟩ := done
  cases pure_eq_ok.mp hstate
  have hcredits := (distributionList_credits other hlist).trans (splitAssetsToUsers_credits hsplit)
  rwa [Nat.zero_add] at hcredits

def sentBy (denom : String) : CosmosMsg OutMsg → Nat
  | .bankSend _ coins => coinsOf denom coins
  | .execute .. => 0

def sentOf (denom : String) (msgs : List (CosmosMsg OutMsg)) : Nat := (msgs.map (sentBy denom)).sum

theorem sentOf_append (msgs' : List (CosmosMsg OutMsg)) :
    sentOf denom (msgs ++ msgs') = sentOf denom msgs + sentOf denom msgs' := by
  simp only [sentOf, List.map_append, List.sum_append]

theorem sentOf_mints (contract : Addr) (mint : Coin → OutMsg) (coins : List Coin) :
    sentOf denom (coins.map fun coin => .execute contract (mint coin) []) = 0 := by
  induction coins with
  | nil => rfl
  | cons coin rest ih =>
    simp only [sentOf, List.map_cons, List.sum_cons] at ih ⊢
    rw [ih]
    rfl

theorem coinsOf_filter_le (keep : Coin → Bool) (coins : List Coin) :
    coinsOf denom (coins.filter keep) ≤ coinsOf denom coins :=
  ((List.filter_sublist).map _).sum_le_sum fun _ _ => Nat.zero_le _

/-- A claim takes what it sends from the claims of its sender, and from nobody else's. -/
structure Claims (denom : String) (sender : Addr) (s s' : State) (msgs : List (CosmosMsg OutMsg)) :
    Prop where
  paid : claimable denom s'.users + sentOf denom msgs ≤ claimable denom s.users
  kept : ∀ user, user ≠ sender → claimOf denom s.users user ≤ claimOf denom s'.users user

theorem userClaimsMsgs_spec (done : userClaimsMsgs info s = .ok (s', msgs)) :
    Claims denom info.sender s s' msgs := by
  simp only [userClaimsMsgs, bind_eq_ok, ofOption_eq_ok, List.partition_eq_filter_filter] at done
  obtain ⟨claims, hfound, hstate⟩ := done
  generalize hnative : claims.filter (not ∘ fun coin => coin.denom == s.config.mbrnDenom) = native
    at hstate
  cases pure_eq_ok.mp hstate
  constructor
  · have herased := KeyMap.total_erase (coinsOf denom) s.users info.sender
    rw [KeyMap.measureAt_of_lookup hfound] at herased
    have hsent : sentOf denom (if native = [] then [] else [.bankSend info.sender native]) ≤
        coinsOf denom claims := by
      split
      · exact Nat.zero_le _
      · rw [sentOf, List.map_singleton, List.sum_singleton]
        rw [← hnative]
        exact coinsOf_filter_le _ claims
    rw [sentOf_append, sentOf_mints]
    show claimable denom (s.users.erase info.sender) + _ ≤ claimable denom s.users
    unfold claimable
    omega
  · intro user ne
    show KeyMap.measureAt (coinsOf denom) s.users user ≤
      KeyMap.measureAt (coinsOf denom) (s.users.erase info.sender) user
    rw [KeyMap.measureAt, KeyMap.measureAt, AList.lookup_erase_ne ne]

theorem claim_spec (other : s.config.mbrnDenom ≠ denom)
    (done : claim blockTime info s = .ok (s', msgs)) : Claims denom info.sender s s' msgs := by
  simp only [claim, bind_eq_ok, liftStd_eq_ok] at done
  obtain ⟨⟨incentives, mid⟩, hget, users, hadd, hmsgs⟩ := done
  obtain ⟨hmid, -⟩ := getUserIncentives_spec hget
  have hcredits : Credits denom 0 s.users users := by
    dsimp only at hadd
    rw [hmid] at hadd
    exact .incentives other hadd
  have hclaims : Claims denom info.sender _ s' msgs := userClaimsMsgs_spec hmsgs
  exact ⟨Nat.le_trans hclaims.paid hcredits.total,
    fun user ne => Nat.le_trans (hcredits.kept user) (hclaims.kept user ne)⟩

end Handlers

/-! ## Runs -/

/-- The pool in time, with what was distributed of each denom and what claims were sent of it. -/
structure Books where
  ledger : Ledger
  distributed : String → Nat
  claimed : String → Nat

def distributedBy (denom : String) : ExecuteMsg → Nat
  | .distribute distributionAssets _ _ => assetsOf denom distributionAssets
  | _ => 0

def claimedBy (denom : String) (msg : ExecuteMsg) (msgs : List (CosmosMsg OutMsg)) : Nat :=
  match msg with
  | .claimRewards => sentOf denom msgs
  | _ => 0

/-- A call that succeeds, not earlier than the last one. -/
def Books.exec (b : Books) (call : Call) : Option Books :=
  if b.ledger.now ≤ call.env.blockTime then
    match execute call.addrValid call.env call.info call.msg b.ledger.state with
    | .ok (s, msgs) => some {
        ledger := ⟨s, call.env.blockTime⟩
        distributed := fun denom => b.distributed denom + distributedBy denom call.msg
        claimed := fun denom => b.claimed denom + claimedBy denom call.msg msgs }
    | .error _ => none
  else none

def Books.step (b : Books) (call : Call) (b' : Books) : Prop := b.exec call = some b'

/-- What all users can claim of a denom. -/
def Books.claimable (b : Books) (denom : String) : Nat :=
  StabilityPool.claimable denom b.ledger.state.users

/-- What a user can claim of a denom. -/
def Books.claimOf (b : Books) (denom : String) (user : Addr) : Nat :=
  StabilityPool.claimOf denom b.ledger.state.users user

/-- A denom that is not that of the incentives. -/
def NotMbrn (denom : String) (b : Books) : Prop := b.ledger.state.config.mbrnDenom ≠ denom

/-- A call that is no claim of a user. -/
def NotClaimedBy (user : Addr) (call : Call) : Prop :=
  match call.msg with
  | .claimRewards => call.info.sender ≠ user
  | _ => True

instance (denom : String) (b : Books) : Decidable (NotMbrn denom b) :=
  inferInstanceAs (Decidable (_ ≠ _))

def ExecuteMsg.isClaim : ExecuteMsg → Bool
  | .claimRewards => true
  | _ => false

theorem notClaimedBy_iff {user : Addr} {call : Call} :
    (call.msg.isClaim = true → call.info.sender ≠ user) ↔ NotClaimedBy user call := by
  unfold NotClaimedBy
  cases call.msg <;> simp [ExecuteMsg.isClaim]

instance notClaimedByDecidable (user : Addr) (call : Call) : Decidable (NotClaimedBy user call) :=
  decidable_of_iff _ notClaimedBy_iff

section Runs

variable {denom : String} {b b' : Books} {call : Call}

theorem execute_claims {s s' : State} {addrValid : String → Bool} {env : Env} {info : MessageInfo}
    {msg : ExecuteMsg} {msgs : List (CosmosMsg OutMsg)} (other : s.config.mbrnDenom ≠ denom)
    (done : execute addrValid env info msg s = .ok (s', msgs)) :
    StabilityPool.claimable denom s'.users + claimedBy denom msg msgs ≤
        StabilityPool.claimable denom s.users + distributedBy denom msg ∧
      ∀ user, (msg = .claimRewards → info.sender ≠ user) →
        StabilityPool.claimOf denom s.users user ≤ StabilityPool.claimOf denom s'.users user := by
  cases msg with
  | updateConfig update =>
    simp only [execute, updateConfig, bind_eq_ok] at done
    obtain ⟨_, -, _, -, _, -, _, -, _, -, _, -, _, -, _, -, hstate⟩ := done
    cases pure_eq_ok.mp hstate
    exact ⟨Nat.le_refl _, fun _ _ => Nat.le_refl _⟩
  | deposit user =>
    simp only [execute, executeDeposit, deposit, bind_eq_ok] at done
    obtain ⟨_, -, _, -, _, -, _, -, _, -, _, -, _, -, _, -, _, -, hstate⟩ := done
    cases pure_eq_ok.mp hstate
    exact ⟨Nat.le_refl _, fun _ _ => Nat.le_refl _⟩
  | withdraw amount =>
    have hcredits := withdraw_credits other done
    exact ⟨hcredits.total, fun user _ => hcredits.kept user⟩
  | restake restakeAmount =>
    have hcredits := restake_credits other done
    exact ⟨hcredits.total, fun user _ => hcredits.kept user⟩
  | claimRewards =>
    have hclaims := claim_spec other done
    exact ⟨hclaims.paid, fun user ne => hclaims.kept user (ne rfl).symm⟩
  | liquidate liqAmount =>
    simp only [execute, liquidate, bind_eq_ok] at done
    obtain ⟨_, -, _, -, _, -, _, -, _, -, _, -, hstate⟩ := done
    cases pure_eq_ok.mp hstate
    exact ⟨Nat.le_refl _, fun _ _ => Nat.le_refl _⟩
  | distribute assets ratios distributeFor =>
    have hcredits := distributeFunds_credits other done
    exact ⟨hcredits.total, fun user _ => hcredits.kept user⟩
  | repay userInfo repayment =>
    have hcredits := repay_credits other done
    exact ⟨hcredits.total, fun user _ => hcredits.kept user⟩

theorem books_step_iff : b.step call b' ↔ b.ledger.now ≤ call.env.blockTime ∧ ∃ s msgs,
    execute call.addrValid call.env call.info call.msg b.ledger.state = .ok (s, msgs) ∧
    b' = {
      ledger := ⟨s, call.env.blockTime⟩
      distributed := fun denom => b.distributed denom + distributedBy denom call.msg
      claimed := fun denom => b.claimed denom + claimedBy denom call.msg msgs } := by
  unfold Books.step Books.exec
  constructor
  · intro step
    split at step
    case isTrue later =>
      split at step
      case h_1 s msgs hexecute => exact ⟨later, s, msgs, hexecute, (Option.some.inj step).symm⟩
      case h_2 => cases step
    case isFalse => cases step
  · rintro ⟨later, s, msgs, hexecute, rfl⟩
    rw [if_pos later, hexecute]

/-- What claims sent of a denom, and what users can still claim, was distributed. -/
def Covered (denom : String) (b : Books) : Prop :=
  b.claimable denom + b.claimed denom ≤ b.distributed denom

theorem step_covered (covered : Covered denom b) (other : NotMbrn denom b) (step : b.step call b') :
    Covered denom b' := by
  obtain ⟨-, s, msgs, hexecute, rfl⟩ := books_step_iff.mp step
  have hclaims := (execute_claims other hexecute).1
  unfold Covered Books.claimable at covered ⊢
  dsimp only
  omega

theorem step_claimOf {user : Addr} (other : NotMbrn denom b) (unclaimed : NotClaimedBy user call)
    (step : b.step call b') : b.claimOf denom user ≤ b'.claimOf denom user := by
  obtain ⟨-, s, msgs, hexecute, rfl⟩ := books_step_iff.mp step
  refine (execute_claims other hexecute).2 user fun hmsg => ?_
  unfold NotClaimedBy at unclaimed
  rw [hmsg] at unclaimed
  exact unclaimed

/-- In every run of the pool, for every denom but that of the incentives, what users can claim and
    what their claims were sent is within what was distributed. From any point of it, as long as a
    user does not claim, nothing that happens lowers what the user can claim. -/
theorem claims_covered {addrValid : String → Bool} {info : MessageInfo} {msg : InstantiateMsg}
    {s : State} {now : Nat} (created : instantiate addrValid info msg = .ok s) (denom : String)
    (run : RunWhere Books.step (fun b _ => NotMbrn denom b) ⟨⟨s, now⟩, fun _ => 0, fun _ => 0⟩ b) :
    b.claimable denom + b.claimed denom ≤ b.distributed denom ∧
    ∀ user b', RunWhere Books.step (fun b call => NotMbrn denom b ∧ NotClaimedBy user call) b b' →
      b.claimOf denom user ≤ b'.claimOf denom user := by
  constructor
  · have hkeeps : ∀ mid call next, Covered denom mid → NotMbrn denom mid → mid.step call next →
        Covered denom next :=
      fun _ _ _ covered other step => step_covered covered other step
    refine RunWhere.keeps hkeeps run ?_
    · simp only [instantiate, bind_eq_ok] at created
      obtain ⟨_, -, _, -, _, -, _, -, hstate⟩ := created
      obtain rfl := pure_eq_ok.mp hstate
      exact Nat.le_refl 0
  · intro user b' rest
    have hkeeps : ∀ mid call next, b.claimOf denom user ≤ mid.claimOf denom user →
        NotMbrn denom mid ∧ NotClaimedBy user call → mid.step call next →
        b.claimOf denom user ≤ next.claimOf denom user :=
      fun _ _ _ kept allowed step =>
        Nat.le_trans kept (step_claimOf allowed.1 allowed.2 step)
    exact RunWhere.keeps hkeeps rest (Nat.le_refl _)

end Runs

/-! ## A sample distribution -/

theorem thousand_positive : 0 < 1000 := by decide

/-- A liquidation uses half of the user's deposit and distributes collateral for it. -/
def sampleDistributed : List Call := [
  sampleDeposit 1 1000 thousand_positive,
  sampleCall "positions" 2 (.liquidate ⟨500 * Decimal.fractional⟩),
  sampleCall "positions" 3 (.distribute [⟨.nativeToken "uatom", 100⟩] [Decimal.one] 500)]

def sampleLater : List Call := [
  sampleCall "positions" 4 (.distribute [⟨.nativeToken "uatom", 20⟩] [Decimal.one] 100),
  sampleCall "user" 5 (.withdraw 100)]

def sampleBooks : Option Books :=
  match instantiate (fun _ => true) (MessageInfo.noFunds "owner") sampleMsg with
  | .ok s => some ⟨⟨s, 0⟩, fun _ => 0, fun _ => 0⟩
  | .error _ => none

theorem sampleBooks_spec {start : Books} (created : sampleBooks = some start) :
    ∃ s, instantiate (fun _ => true) (MessageInfo.noFunds "owner") sampleMsg = .ok s ∧
      start = ⟨⟨s, 0⟩, fun _ => 0, fun _ => 0⟩ := by
  unfold sampleBooks at created
  split at created
  case h_1 s hinstantiate => exact ⟨s, hinstantiate, (Option.some.inj created).symm⟩
  case h_2 => cases created

theorem claims_covered_shared : ∃ start b b', sampleBooks = some start ∧
    execAll (execWhere Books.exec fun b _ => NotMbrn "uatom" b) sampleDistributed start = some b ∧
    execAll (execWhere Books.exec fun b call => NotMbrn "uatom" b ∧ NotClaimedBy "user" call)
      sampleLater b = some b' ∧
    b.claimOf "uatom" "user" = 100 ∧ b'.claimOf "uatom" "user" = 120 ∧
    b.claimable "uatom" + b.claimed "uatom" ≤ b.distributed "uatom" ∧
    b.claimOf "uatom" "user" ≤ b'.claimOf "uatom" "user" := by
  have hreads : (sampleBooks.bind fun start =>
      (execAll (execWhere Books.exec fun b _ => NotMbrn "uatom" b) sampleDistributed start).bind
        fun b => (execAll (execWhere Books.exec fun b call =>
          NotMbrn "uatom" b ∧ NotClaimedBy "user" call) sampleLater b).map
            fun b' => (b.claimOf "uatom" "user", b'.claimOf "uatom" "user")) = some (100, 120) := by
    decide +kernel
  obtain ⟨start, hstart, hreads⟩ := Option.bind_eq_some_iff.mp hreads
  obtain ⟨b, hrun, hreads⟩ := Option.bind_eq_some_iff.mp hreads
  obtain ⟨b', hlater, hclaims⟩ := Option.map_eq_some_iff.mp hreads
  obtain ⟨s, hcreated, rfl⟩ := sampleBooks_spec hstart
  obtain ⟨hbefore, hafter⟩ := Prod.mk.inj hclaims
  have hcovered := claims_covered hcreated "uatom" (execWhere_run (fun _ _ _ h => h) hrun)
  exact ⟨_, b, b', hstart, hrun, hlater, hbefore, hafter,
    hcovered.1, hcovered.2 "user" b' (execWhere_run (fun _ _ _ h => h) hlater)⟩

end Membrane.StabilityPool
